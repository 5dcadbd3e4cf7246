import TimeLimit.Proofs.LastArgument

/-!
# Quotes and comments of a line

A line is read character by character: quotes open and close, and a backslash inside them takes the
next character with it (`Quotes.step`). A comment starts where no quotes are open and `//` follows
(`StartsComment`). `Tail.splitComment` cuts a line in front of the first place of that kind
(`Tail.firstComment_of_splitComment`, `Tail.splitComment_of_firstComment`), and what it keeps has no
comment (`Tail.noComment_splitComment`).
-/

namespace TimeLimit

/-- What is open at a place of a line. -/
inductive Quotes where
  | outside
  /-- Inside quotes of this character. -/
  | inside (q : Char)
  /-- Inside quotes, behind a backslash. -/
  | escaped (q : Char)
  deriving DecidableEq, Repr

namespace Quotes

/-- What is open behind one more character. -/
def step : Quotes → Char → Quotes
  | outside, c => if c = '\x27' ∨ c = '\x22' then inside c else outside
  | inside q, c => if c = '\\' then escaped q else if c = q then outside else inside q
  | escaped q, _ => inside q

/-- What is open behind a text. -/
def behind (s : Quotes) (t : Text) : Quotes :=
  t.foldl step s

variable (s : Quotes)

@[simp] theorem behind_cons (c : Char) (t : Text) : s.behind (c :: t) = (s.step c).behind t := rfl

/-- The quotes that a quote character opens, if there is one. -/
def ofOpen : Option Char → Quotes
  | none => outside
  | some q => inside q

theorem step_outside (c : Char) :
    outside.step c = ofOpen (if c = '\x27' ∨ c = '\x22' then some c else none) := by
  rw [step]
  split <;> rfl

/-- Inside quotes, a character other than the backslash closes them or stands in them. -/
theorem step_inside {q c : Char} (h : c ≠ '\\') :
    (inside q).step c = ofOpen (if c = q then none else some q) := by
  rw [step, if_neg h]
  split <;> rfl

end Quotes

/-- Between two parts of a line a comment starts, when these quotes are open before the line. -/
def Quotes.StartsComment (s : Quotes) (code rest : Text) : Prop :=
  s.behind code = .outside ∧ ['/', '/'] <+: rest

/-- A comment starts between two parts of a line. -/
def StartsComment (code rest : Text) : Prop :=
  Quotes.outside.StartsComment code rest

/-- No comment starts on a line. -/
def NoComment (line : Text) : Prop :=
  ∀ a b, line = a ++ b → ¬ StartsComment a b

/-- The first comment of a line stands behind its code. -/
structure FirstComment (code comment : Text) : Prop where
  starts : StartsComment code comment
  first : ∀ a b, code ++ comment = a ++ b → StartsComment a b → code.length ≤ a.length

theorem noComment_nil : NoComment [] := by
  intro a b h hs
  obtain ⟨-, rfl⟩ := List.nil_eq_append_iff.1 h
  exact absurd hs.2 (by simp)

/-- A line without a comment has none on its first part. -/
theorem NoComment.of_append {a b : Text} (h : NoComment (a ++ b)) : NoComment a := by
  rintro c d rfl ⟨hc, hd⟩
  exact h c (d ++ b) (List.append_assoc c d b) ⟨hc, hd.trans (List.prefix_append d b)⟩

/-- A comment may end before the rest of its line. -/
theorem FirstComment.of_append {code comment rest : Text}
    (h : FirstComment code (comment ++ rest)) (hstart : ['/', '/'] <+: comment) :
    FirstComment code comment where
  starts := ⟨h.starts.1, hstart⟩
  first := by
    rintro a b he ⟨hout, hslashes⟩
    refine h.first a (b ++ rest) ?_ ⟨hout, hslashes.trans (List.prefix_append b rest)⟩
    rw [← List.append_assoc, he, List.append_assoc]

namespace Tail

/-! ## The cut in front of a comment -/

/-- What is cut off a line is nothing or a comment. -/
theorem startsComment_of_splitComment (quote : Option Char) (line : Text) :
    (splitComment quote line).2 = [] ∨
      (Quotes.ofOpen quote).StartsComment (splitComment quote line).1
        (splitComment quote line).2 := by
  unfold Quotes.StartsComment
  fun_induction splitComment quote line with
  | case1 quote => exact .inl rfl
  | case2 c t h =>
    obtain ⟨rfl, ht⟩ := h
    obtain ⟨t, rfl⟩ := List.head?_eq_some_iff.1 ht
    exact .inr ⟨rfl, t, rfl⟩
  | case3 c t h r ih =>
    rw [← Quotes.step_outside] at ih
    exact ih
  | case4 q => exact .inl rfl
  | case5 q d t r ih => exact ih
  | case6 q c t h r ih =>
    rw [← Quotes.step_inside h] at ih
    exact ih

/-- No comment starts before the place where a line is cut. -/
theorem length_splitComment_le (quote : Option Char) (line : Text) :
    ∀ a b, line = a ++ b → (Quotes.ofOpen quote).StartsComment a b →
      (splitComment quote line).1.length ≤ a.length := by
  fun_induction splitComment quote line with
  | case1 quote => exact fun a b _ _ => Nat.zero_le _
  | case2 c t h => exact fun a b _ _ => Nat.zero_le _
  | case3 c t h r ih =>
    rintro a b hline ⟨hout, hslashes⟩
    cases a with
    | nil =>
      -- a comment would start at the first character
      obtain ⟨u, rfl⟩ := hslashes
      obtain ⟨rfl, rfl⟩ := List.cons.inj hline
      exact absurd ⟨rfl, rfl⟩ h
    | cons x a =>
      obtain ⟨rfl, rfl⟩ := List.cons.inj hline
      rw [Quotes.behind_cons, Quotes.ofOpen, Quotes.step_outside] at hout
      exact Nat.succ_le_succ (ih a b rfl ⟨hout, hslashes⟩)
  | case4 q =>
    rintro a b - ⟨hout, -⟩
    cases a with
    | nil => cases hout
    | cons x a => exact Nat.succ_le_succ (Nat.zero_le _)
  | case5 q d t r ih =>
    rintro a b hline ⟨hout, hslashes⟩
    cases a with
    | nil => cases hout
    | cons x a =>
      obtain ⟨rfl, hrest⟩ := List.cons.inj hline
      clear hline
      cases a with
      | nil => cases hout
      | cons y a =>
        obtain ⟨rfl, rfl⟩ := List.cons.inj hrest
        exact Nat.succ_le_succ (Nat.succ_le_succ (ih a b rfl ⟨hout, hslashes⟩))
  | case6 q c t h r ih =>
    rintro a b hline ⟨hout, hslashes⟩
    cases a with
    | nil => cases hout
    | cons x a =>
      obtain ⟨rfl, rfl⟩ := List.cons.inj hline
      rw [Quotes.behind_cons, Quotes.ofOpen, Quotes.step_inside h] at hout
      exact Nat.succ_le_succ (ih a b rfl ⟨hout, hslashes⟩)

/-- The code of a line has no comment. -/
theorem noComment_splitComment (line : Text) : NoComment (splitComment none line).1 := by
  rintro a b hline hs
  have hle := length_splitComment_le none _ a b hline hs
  rw [splitComment_splitComment, hline, List.length_append] at hle
  obtain rfl := List.length_eq_zero_iff.1 (by omega : b.length = 0)
  exact absurd hs.2 (by simp)

/-- What is cut off a line is its first comment. -/
theorem firstComment_of_splitComment {line : Text} (h : (splitComment none line).2 ≠ []) :
    FirstComment (splitComment none line).1 (splitComment none line).2 where
  starts := (startsComment_of_splitComment none line).resolve_left h
  first := by
    intro a b he hs
    rw [splitComment_append] at he
    exact length_splitComment_le none line a b he hs

/-- A line is cut in front of its first comment. -/
theorem splitComment_of_firstComment {code comment : Text} (h : FirstComment code comment) :
    splitComment none (code ++ comment) = (code, comment) := by
  have happend := splitComment_append none (code ++ comment)
  have hle := length_splitComment_le none (code ++ comment) code comment rfl h.starts
  have hlength := congrArg List.length happend
  have hpos := h.starts.2.length_le
  rw [List.length_append, List.length_append] at hlength
  rw [List.length_cons] at hpos
  have hne : (splitComment none (code ++ comment)).2 ≠ [] := by
    intro hnil
    rw [hnil, List.length_nil] at hlength
    omega
  have hge := h.first _ _ happend.symm ((startsComment_of_splitComment none _).resolve_left hne)
  obtain ⟨hcode, hcomment⟩ := List.append_inj happend (Nat.le_antisymm hle hge)
  exact Prod.ext hcode hcomment

/-- A line without a comment is not cut. -/
theorem splitComment_of_noComment {line : Text} (h : NoComment line) :
    splitComment none line = (line, []) := by
  have happend := splitComment_append none line
  have hnil := (startsComment_of_splitComment none line).resolve_right (h _ _ happend.symm)
  rw [hnil, List.append_nil] at happend
  exact Prod.ext happend hnil

end Tail

end TimeLimit
