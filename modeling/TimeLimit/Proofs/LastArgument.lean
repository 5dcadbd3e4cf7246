import TimeLimit.Tail

/-!
# Where the last argument ends

`Tail.split` goes through the lines of a tail from the first one down; the end of the last argument
can also be found from the last line up. What is kept of a tail depends on its last line: a line
without code is cut off, and any other line is cut behind its code (`Tail.LastLine.split_eq`). So
blanks at the end of a tail do not matter (`Tail.split_append_blanks`), a comment on the last line
can be cut off (`Tail.LastLine.split_code`), and a tail that ends in neither is kept whole
(`Tail.LastLine.split_of_code`).
-/

namespace TimeLimit

namespace Text

/-- The lines of a text, each with a line end, are the text with one more line end. -/
theorem flatMap_pieces (sep : Char) (t : Text) :
    (pieces sep t).flatMap (· ++ [sep]) = t ++ [sep] := by
  induction t with
  | nil => rfl
  | cons c t ih =>
    obtain ⟨p, ps, hp⟩ := List.exists_cons_of_ne_nil (pieces_ne_nil sep t)
    rw [hp, List.flatMap_cons] at ih
    rw [pieces, hp]
    split
    · next h =>
      rw [List.flatMap_cons, List.flatMap_cons, ih, h]
      rfl
    · rw [List.flatMap_cons, List.cons_append, List.cons_append, ih, List.cons_append]

/-- A text that does not end in a blank has no trailing blanks. -/
theorem splitTrailing_of_last {t : Text} (h : ∀ c, t.getLast? = some c → isBlank c = false) :
    splitTrailing t = (t, []) := by
  rcases List.eq_nil_or_concat t with rfl | ⟨s, c, rfl⟩
  · rfl
  · rw [List.concat_eq_append] at h ⊢
    have hc : isBlank c = false := h c List.getLast?_concat
    simp [splitTrailing, hc]

/-- A blank at the end is a trailing blank. -/
theorem splitTrailing_append_blank (t : Text) {c : Char} (h : isBlank c = true) :
    (splitTrailing (t ++ [c])).1 = (splitTrailing t).1 := by
  simp [splitTrailing, h]

end Text

namespace Tail

open Text

/-! ## Lines -/

theorem splitComment_quoted {q c : Char} (h : c ≠ '\\') (t : Text) :
    splitComment (some q) (c :: t) =
      (c :: (splitComment (if c = q then none else some q) t).1,
        (splitComment (if c = q then none else some q) t).2) := by
  rw [splitComment.eq_def]
  simp [h]

/-- A blank behind a line belongs to its comment, or to its code if there is no comment. -/
theorem splitComment_append_blank (quote : Option Char) (line : Text) {x : Char}
    (hx : x ≠ '/') : (splitComment quote (line ++ [x])).1 = (splitComment quote line).1 ∨
      (splitComment quote (line ++ [x])).1 = (splitComment quote line).1 ++ [x] := by
  have hhead (t : Text) : (t ++ [x]).head? = some '/' ↔ t.head? = some '/' := by
    cases t <;> simp [hx]
  fun_induction splitComment quote line with
  | case1 quote =>
    right
    cases quote <;> simp [splitComment, hx]
  | case2 c t h =>
    left
    rw [List.cons_append, splitComment, if_pos ⟨h.1, (hhead t).2 h.2⟩]
  | case3 c t h r ih =>
    rw [List.cons_append, splitComment, if_neg (mt (And.imp_right (hhead t).1) h)]
    rcases ih with ih | ih
    · exact .inl (congrArg (c :: ·) ih)
    · exact .inr (congrArg (c :: ·) ih)
  | case4 q =>
    right
    simp [splitComment]
  | case5 q d t r ih =>
    simp only [List.cons_append, splitComment, ↓reduceIte]
    rcases ih with ih | ih
    · exact .inl (congrArg (fun s => '\\' :: d :: s) ih)
    · exact .inr (congrArg (fun s => '\\' :: d :: s) ih)
  | case6 q c t h r ih =>
    rw [List.cons_append, splitComment_quoted h]
    rcases ih with ih | ih
    · exact .inl (congrArg (c :: ·) ih)
    · exact .inr (congrArg (c :: ·) ih)

/-- The code of a line has no comment. -/
theorem splitComment_splitComment (quote : Option Char) (line : Text) :
    splitComment quote (splitComment quote line).1 = ((splitComment quote line).1, []) := by
  fun_induction splitComment quote line with
  | case1 quote => simp [splitComment]
  | case2 c t h => simp [splitComment]
  | case3 c t h r ih =>
    have hhead : ¬ (c = '/' ∧ r.1.head? = some '/') := by
      rintro ⟨hc, hr⟩
      refine h ⟨hc, ?_⟩
      rw [← splitComment_append (if c = '\x27' ∨ c = '\x22' then some c else none) t,
        List.head?_append, hr, Option.some_or]
    simp only [splitComment, if_neg hhead]
    rw [ih]
  | case4 q =>
    simp [splitComment]
  | case5 q d t r ih =>
    simp only [splitComment, ↓reduceIte]
    rw [ih]
  | case6 q c t h r ih =>
    rw [splitComment_quoted h, ih]

/-- A blank behind a line is not kept. -/
theorem splitLine_append_blank (line : Text) {c : Char} (h : isBlank c = true) :
    (splitLine (line ++ [c])).1 = (splitLine line).1 := by
  have hslash : c ≠ '/' := by
    rintro rfl
    revert h
    decide
  show (splitTrailing (splitComment none (line ++ [c])).1).1 =
    (splitTrailing (splitComment none line).1).1
  rcases splitComment_append_blank none line hslash with h' | h'
  · rw [h']
  · rw [h', splitTrailing_append_blank _ h]

/-! ## The last line -/

/-- What is kept of lines is decided by the last one, if there is code on it. -/
theorem splitLines?_concat (lines : List Text) (line : Text) :
    splitLines? (lines ++ [line]) =
      if (splitLine line).1 = [] then (splitLines? lines).map fun x => (x.1, x.2 ++ '\n' :: line)
      else some (lines.flatMap (· ++ ['\n']) ++ (splitLine line).1, (splitLine line).2) := by
  induction lines with
  | nil => simp [splitLines?]
  | cons l lines ih =>
    rw [List.cons_append, splitLines?, ih]
    by_cases h : (splitLine line).1 = []
    · rw [if_pos h, if_pos h, splitLines?]
      cases splitLines? lines with
      | none =>
        simp only [Option.map_none]
        split <;> simp
      | some r => simp
    · rw [if_neg h, if_neg h]
      simp

/-- What is kept of a tail that ends in a line. -/
theorem split_append_line (front : Text) {line : Text} (hline : '\n' ∉ line) :
    (split (front ++ '\n' :: line)).1 =
      if (splitLine line).1 = [] then (split front).1 else front ++ '\n' :: (splitLine line).1 := by
  rw [split, split, pieces_append_sep, pieces_of_not_mem hline, splitLines?_concat, flatMap_pieces]
  split
  · cases splitLines? (pieces '\n' front) <;> rfl
  · simp

/-- The last line of a text, and what stands before it: nothing, or what ends in a line end. -/
structure LastLine (front line : Text) : Prop where
  front_ends : front = [] ∨ ∃ f, front = f ++ ['\n']
  not_mem : '\n' ∉ line

/-- The last line of a tail is cut off when there is no code on it, and behind its code when there
is. -/
theorem LastLine.split_eq {front line : Text} (h : LastLine front line) :
    (split (front ++ line)).1 =
      if (splitLine line).1 = [] then (split front).1 else front ++ (splitLine line).1 := by
  rcases h.front_ends with rfl | ⟨f, rfl⟩
  · rw [List.nil_append, split, pieces_of_not_mem h.not_mem, ← List.nil_append [line],
      splitLines?_concat]
    split <;> rfl
  · have hempty : (split (f ++ ['\n'])).1 = (split f).1 := split_append_line f List.not_mem_nil
    rw [List.append_assoc, List.singleton_append, split_append_line f h.not_mem, hempty,
      List.append_assoc, List.singleton_append]

/-- Every text ends in a line. -/
theorem exists_lastLine (t : Text) : ∃ front line, t = front ++ line ∧ LastLine front line := by
  induction t with
  | nil => exact ⟨[], [], rfl, .inl rfl, List.not_mem_nil⟩
  | cons c t ih =>
    obtain ⟨front, line, rfl, hfront, hline⟩ := ih
    rcases hfront with rfl | ⟨f, rfl⟩
    · by_cases hc : c = '\n'
      · exact ⟨[c], line, rfl, .inr ⟨[], by rw [hc]; rfl⟩, hline⟩
      · refine ⟨[], c :: line, rfl, .inl rfl, ?_⟩
        rw [List.mem_cons, not_or]
        exact ⟨Ne.symm hc, hline⟩
    · exact ⟨c :: (f ++ ['\n']), line, rfl, .inr ⟨c :: f, rfl⟩, hline⟩

/-! ## From the last line up -/

/-- A blank at the end of a tail does not matter. -/
theorem split_append_blank (tail : Text) {c : Char} (h : isBlank c = true) :
    (split (tail ++ [c])).1 = (split tail).1 := by
  by_cases hc : c = '\n'
  · rw [hc]
    exact split_append_line tail List.not_mem_nil
  · obtain ⟨front, line, rfl, hlast⟩ := exists_lastLine tail
    have hlast' : LastLine front (line ++ [c]) :=
      ⟨hlast.front_ends, by simp [hlast.not_mem, Ne.symm hc]⟩
    rw [List.append_assoc, hlast'.split_eq, hlast.split_eq, splitLine_append_blank line h]

theorem split_append_blanks (tail : Text) {blanks : Text} (h : ∀ c ∈ blanks, isBlank c = true) :
    (split (tail ++ blanks)).1 = (split tail).1 := by
  induction blanks generalizing tail with
  | nil => rw [List.append_nil]
  | cons c blanks ih =>
    rw [List.append_cons, ih _ fun x hx => h x (List.mem_cons_of_mem c hx),
      split_append_blank tail (h c List.mem_cons_self)]

/-- A tail may be trimmed first. -/
theorem split_splitTrailing (tail : Text) :
    (split (splitTrailing tail).1).1 = (split tail).1 := by
  have h := split_append_blanks (splitTrailing tail).1
    fun c => isBlank_of_mem_splitTrailing (t := tail)
  rw [splitTrailing_append] at h
  exact h.symm

/-- A comment on the last line can be cut off. -/
theorem LastLine.split_code {front line : Text} (h : LastLine front line) :
    (split (front ++ (splitComment none line).1)).1 = (split (front ++ line)).1 := by
  have hcode : LastLine front (splitComment none line).1 := by
    refine ⟨h.front_ends, fun hc => h.not_mem ?_⟩
    rw [← splitComment_append none line]
    exact List.mem_append_left _ hc
  have hkept : (splitLine (splitComment none line).1).1 = (splitLine line).1 := by
    simp only [splitLine, splitComment_splitComment]
  rw [hcode.split_eq, h.split_eq, hkept]

/-- A tail that ends neither in a blank nor in a line with a comment is kept whole. -/
theorem LastLine.split_of_code {front line : Text} (h : LastLine front line)
    (hcomment : (splitComment none line).2 = [])
    (hlast : ∀ c, (front ++ line).getLast? = some c → isBlank c = false) :
    (split (front ++ line)).1 = front ++ line := by
  rw [h.split_eq]
  by_cases hnil : line = []
  · subst hnil
    rcases h.front_ends with rfl | ⟨f, rfl⟩
    · rfl
    · exact absurd (hlast '\n' (by simp)) (by decide)
  · have hcode : (splitComment none line).1 = line := by
      have := splitComment_append none line
      rwa [hcomment, List.append_nil] at this
    have hkept : (splitLine line).1 = line := by
      simp only [splitLine, hcode]
      rw [splitTrailing_of_last fun c hc => hlast c (by
        rw [List.getLast?_append, hc, Option.some_or])]
    rw [hkept, if_neg hnil]

end Tail

end TimeLimit
