import TimeLimit.Limit

/-!
# Adding an argument to the tail of a call

The tail of a call is what stands between the body and the call's closing parenthesis: further
arguments, perhaps a trailing comma, blanks and `//` comments. A new argument goes behind the last
argument and ahead of the blanks and comments that end the tail, so that it is never swallowed by a
comment. `Tail.split` finds that place line by line, from the last line up; it loses nothing
(`Tail.split_append`), and what it keeps does not end in a blank
(`Tail.isBlank_getLast_split`).
-/

namespace TimeLimit

namespace Tail

/-- Cuts a line at the first `//` outside quotes: the code before it, and the comment. `quote` is
the quote character that is open, if one is; inside quotes a backslash skips the character after
it. -/
def splitComment : Option Char → Text → Text × Text
  | _, [] => ([], [])
  | none, c :: t =>
    if c = '/' ∧ t.head? = some '/' then ([], c :: t)
    else
      let r := splitComment (if c = '\x27' ∨ c = '\x22' then some c else none) t
      (c :: r.1, r.2)
  | some q, c :: t =>
    if c = '\\' then
      match t with
      | [] => ([c], [])
      | d :: t =>
        let r := splitComment (some q) t
        (c :: d :: r.1, r.2)
    else
      let r := splitComment (if c = q then none else some q) t
      (c :: r.1, r.2)

theorem splitComment_append (quote : Option Char) (line : Text) :
    (splitComment quote line).1 ++ (splitComment quote line).2 = line := by
  fun_induction splitComment quote line <;> simp_all +zetaDelta

/-- The code of a line without its trailing blanks, and what follows it on the line. -/
def splitLine (line : Text) : Text × Text :=
  let (code, comment) := splitComment none line
  let (kept, blanks) := Text.splitTrailing code
  (kept, blanks ++ comment)

theorem splitLine_append (line : Text) : (splitLine line).1 ++ (splitLine line).2 = line := by
  simp only [splitLine]
  rw [← List.append_assoc, Text.splitTrailing_append, splitComment_append]

/-- Cuts a list of lines behind its last code; there is no cut when all lines are blanks and
comments. -/
def splitLines? : List Text → Option (Text × Text)
  | [] => none
  | line :: lines =>
    match splitLines? lines with
    | some (kept, rest) => some (line ++ '\n' :: kept, rest)
    | none =>
      let (kept, rest) := splitLine line
      if kept.isEmpty then none else some (kept, rest ++ lines.flatMap ('\n' :: ·))

/-- Cuts the tail of a call behind its last argument, or behind that argument's comma. -/
def split (tail : Text) : Text × Text :=
  (splitLines? (Text.pieces '\n' tail)).getD ([], tail)

/-- The cut of a list of lines loses nothing. -/
theorem splitLines?_append {lines : List Text} {kept rest : Text}
    (h : splitLines? lines = some (kept, rest)) :
    kept ++ rest = ['\n'].intercalate lines := by
  induction lines generalizing kept rest with
  | nil => simp [splitLines?] at h
  | cons line lines ih =>
    rw [splitLines?] at h
    split at h
    · next k r hk =>
      cases h
      cases lines with
      | nil => simp [splitLines?] at hk
      | cons l ls =>
        rw [List.intercalate_cons_cons, ← ih hk]
        simp
    · simp only [Option.ite_none_left_eq_some, Option.some.injEq, Prod.mk.injEq] at h
      obtain ⟨-, rfl, rfl⟩ := h
      rw [← List.append_assoc, splitLine_append]
      rename_i hnone
      clear ih hnone
      induction lines generalizing line with
      | nil => simp
      | cons l ls ih => rw [List.flatMap_cons, List.intercalate_cons_cons, ← ih]; simp

/-- The cut of a tail loses nothing. -/
theorem split_append (tail : Text) : (split tail).1 ++ (split tail).2 = tail := by
  rw [split]
  cases h : splitLines? (Text.pieces '\n' tail) with
  | none => rfl
  | some r => exact (splitLines?_append h).trans (Text.intercalate_pieces '\n' tail)

/-- A cut keeps at least one character of code. -/
theorem splitLines?_ne_nil {lines : List Text} {kept rest : Text}
    (h : splitLines? lines = some (kept, rest)) : kept ≠ [] := by
  cases lines with
  | nil => simp [splitLines?] at h
  | cons line lines =>
    rw [splitLines?] at h
    split at h
    · cases h
      simp
    · simp only [Option.ite_none_left_eq_some, Option.some.injEq, Prod.mk.injEq] at h
      obtain ⟨hne, rfl, -⟩ := h
      simpa using hne

theorem isBlank_getLast_splitLines? {lines : List Text} {kept rest : Text} {c : Char}
    (h : splitLines? lines = some (kept, rest)) (hc : kept.getLast? = some c) :
    Text.isBlank c = false := by
  induction lines generalizing kept rest with
  | nil => simp [splitLines?] at h
  | cons line lines ih =>
    rw [splitLines?] at h
    split at h
    · next k r hk =>
      cases h
      obtain ⟨x, k, rfl⟩ := List.exists_cons_of_ne_nil (splitLines?_ne_nil hk)
      exact ih hk (by simpa [List.getLast?_append] using hc)
    · simp only [Option.ite_none_left_eq_some, Option.some.injEq, Prod.mk.injEq] at h
      obtain ⟨-, rfl, rfl⟩ := h
      exact Text.isBlank_getLast_splitTrailing hc

/-- What is kept of a tail does not end in a blank. -/
theorem isBlank_getLast_split {tail : Text} {c : Char}
    (h : (split tail).1.getLast? = some c) : Text.isBlank c = false := by
  rw [split] at h
  cases hs : splitLines? (Text.pieces '\n' tail) with
  | none => simp [hs] at h
  | some r =>
    rw [hs] at h
    exact isBlank_getLast_splitLines? hs h

/-- What is put behind the part that is kept: a comma goes before the argument, or, where the kept
part already ends in one, after it. -/
def insertion (kept : Text) (seconds : UInt64) : Text :=
  if kept.getLast? = some ',' then ' ' :: (Limit.argument seconds ++ [','])
  else ',' :: ' ' :: Limit.argument seconds

/-- The tail of a call with a time limit added to its arguments. -/
def withLimit (seconds : UInt64) (tail : Text) : Text :=
  (split tail).1 ++ insertion (split tail).1 seconds ++ (split tail).2

end Tail

end TimeLimit
