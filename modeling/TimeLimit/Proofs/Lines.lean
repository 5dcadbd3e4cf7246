import TimeLimit.Listing

/-!
# Words put into lines

A text is a row of lines, each with what ends it: a line feed, a carriage return and a line feed, or
nothing at the end of the text (`Text.toLines`, `flatMap_text_toLines`). `Text.lines` are the
contents of these lines (`lines_eq_map_content`).

`Inserted k ks s t` says that `t` is `s` with words put into it, which stand on the lines `ks`. No
word stands at the start of a line or behind a carriage return, and none ends a line. So the lines
stay the lines they are (`Inserted.grown`): one that is named in `ks` gets longer, is not empty
before and keeps its end, and any other is left as it is.
-/

namespace TimeLimit

/-- A line of a text. -/
structure Line where
  content : Text
  /-- What ends the line. It is empty for a last line that the text ends with. -/
  ending : Text
  deriving DecidableEq

namespace Line

/-- The line as it stands in the text. -/
def text (l : Line) : Text :=
  l.content ++ l.ending

/-- The line with a character in front of it that is no line feed. A carriage return before a line
feed belongs to the line's end. -/
def cons (c : Char) (l : Line) : Line :=
  if c = '\r' ∧ l.content = [] ∧ l.ending = ['\n'] then ⟨[], ['\r', '\n']⟩
  else ⟨c :: l.content, l.ending⟩

theorem text_cons (c : Char) (l : Line) : (l.cons c).text = c :: l.text := by
  unfold cons text
  split
  · next h => simp [h]
  · rfl

theorem cons_of_ne {c : Char} (h : c ≠ '\r') (l : Line) : l.cons c = ⟨c :: l.content, l.ending⟩ :=
  if_neg fun hc => h hc.1

theorem cons_of_content_ne_nil {l : Line} (h : l.content ≠ []) (c : Char) :
    l.cons c = ⟨c :: l.content, l.ending⟩ :=
  if_neg fun hc => h hc.2.1

/-- A text in front of a line is more of what stands on it, unless a carriage return of the text
comes before the line feed. -/
theorem foldr_cons {x : Text} {l : Line}
    (h : '\r' ∈ x → l.content ≠ [] ∨ l.ending ≠ ['\n']) :
    x.foldr cons l = ⟨x ++ l.content, l.ending⟩ := by
  induction x with
  | nil => rfl
  | cons c x ih =>
    rw [List.foldr_cons, ih fun hx => h (List.mem_cons_of_mem c hx)]
    refine if_neg ?_
    rintro ⟨rfl, hcontent, hending⟩
    rcases h List.mem_cons_self with hne | hne
    · exact hne (List.append_eq_nil_iff.1 hcontent).2
    · exact hne hending

end Line

namespace Text

/-- The lines of a text with their ends. -/
def toLines : Text → List Line
  | [] => []
  | c :: t =>
    if c = '\n' then ⟨[], ['\n']⟩ :: toLines t
    else match toLines t with
      | [] => [⟨[c], []⟩]
      | l :: ls => l.cons c :: ls

/-- The lines with their ends are the text. -/
theorem flatMap_text_toLines (t : Text) : (toLines t).flatMap Line.text = t := by
  induction t with
  | nil => rfl
  | cons c t ih =>
    rw [toLines]
    split
    · next h => simp [Line.text, ih, h]
    · split
      · next h =>
        rw [h] at ih
        simp [Line.text, ← ih]
      · next l ls h =>
        rw [h, List.flatMap_cons] at ih
        rw [List.flatMap_cons, Line.text_cons, List.cons_append, ih]

theorem toLines_cons_of_nil {c : Char} (hc : c ≠ '\n') {t : Text} (h : toLines t = []) :
    toLines (c :: t) = [⟨[c], []⟩] := by
  rw [toLines, if_neg hc, h]

/-- A character that ends no line goes in front of the first line. -/
theorem toLines_cons_of_ne {c : Char} (hc : c ≠ '\n') {t : Text} {l : Line} {ls : List Line}
    (h : toLines t = l :: ls) : toLines (c :: t) = l.cons c :: ls := by
  rw [toLines, if_neg hc, h]

/-- A text without a line feed is one line, if it is anything. -/
theorem toLines_of_not_mem {t : Text} (h : '\n' ∉ t) (hne : t ≠ []) : toLines t = [⟨t, []⟩] := by
  induction t with
  | nil => exact absurd rfl hne
  | cons c t ih =>
    rw [List.mem_cons, not_or] at h
    cases t with
    | nil => rw [toLines, if_neg (Ne.symm h.1), toLines]
    | cons d t =>
      rw [toLines_cons_of_ne (Ne.symm h.1) (ih h.2 (List.cons_ne_nil d t)),
        Line.cons_of_content_ne_nil (List.cons_ne_nil d t)]

/-- A text without a line feed goes in front of the first line. -/
theorem toLines_append {x : Text} (hx : '\n' ∉ x) {t : Text} {l : Line} {ls : List Line}
    (h : toLines t = l :: ls) : toLines (x ++ t) = x.foldr Line.cons l :: ls := by
  induction x with
  | nil => exact h
  | cons c x ih =>
    rw [List.mem_cons, not_or] at hx
    rw [List.cons_append, toLines_cons_of_ne (Ne.symm hx.1) (ih hx.2), List.foldr_cons]

/-- In front of a line feed, a text is what stands on the line, but for a carriage return at its
end. -/
theorem content_foldr_cons_feed (x : Text) :
    (x.foldr Line.cons ⟨[], ['\n']⟩).content = (dropReturn x.reverse).reverse := by
  obtain rfl | ⟨y, c, rfl⟩ := x.eq_nil_or_concat
  · rfl
  rw [List.concat_eq_append, List.foldr_append, List.reverse_append]
  by_cases hc : c = '\r'
  · subst hc
    have hline : Line.cons '\r' ⟨[], ['\n']⟩ = ⟨[], ['\r', '\n']⟩ := rfl
    have hy := Line.foldr_cons (x := y) (l := ⟨[], ['\r', '\n']⟩) fun _ => .inr (by decide)
    rw [List.foldr_cons, List.foldr_nil, hline, hy]
    simp [dropReturn]
  · have hline : Line.cons c ⟨[], ['\n']⟩ = ⟨[c], ['\n']⟩ := Line.cons_of_ne hc _
    have hy := Line.foldr_cons (x := y) (l := ⟨[c], ['\n']⟩) fun _ => .inl (List.cons_ne_nil c [])
    have hkept : dropReturn (c :: y.reverse) = c :: y.reverse := by
      rw [dropReturn]
      simpa using hc
    rw [List.foldr_cons, List.foldr_nil, hline, hy]
    simp [hkept]

theorem linesFrom_eq {line : Text} (h : '\n' ∉ line) (t : Text) :
    linesFrom line t = (toLines (line.reverse ++ t)).map Line.content := by
  induction t generalizing line with
  | nil =>
    cases line with
    | nil => rfl
    | cons c line =>
      rw [List.append_nil, toLines_of_not_mem (by rwa [List.mem_reverse]) (by simp)]
      rfl
  | cons c t ih =>
    rw [linesFrom]
    split
    · next hc =>
      have hfeed : toLines (c :: t) = ⟨[], ['\n']⟩ :: toLines t := by rw [toLines, if_pos hc]
      rw [toLines_append (by rwa [List.mem_reverse]) hfeed, List.map_cons,
        content_foldr_cons_feed, List.reverse_reverse, ih List.not_mem_nil]
      rfl
    · next hc =>
      rw [ih (by simpa [Ne.symm hc] using h), List.reverse_cons, List.append_assoc,
        List.singleton_append]

/-- The lines of a text are what stands in its lines. -/
theorem lines_eq_map_content (t : Text) : lines t = (toLines t).map Line.content :=
  linesFrom_eq List.not_mem_nil t

example : toLines "a\r\r\n\nb".toList =
    [⟨"a\r".toList, ['\r', '\n']⟩, ⟨[], ['\n']⟩, ⟨['b'], []⟩] := by
  decide

end Text

/-! ## Words between characters -/

/-- A text that no line ends in. -/
def Text.EndsNoLine (t : Text) : Prop :=
  '\n' ∉ t ∧ '\r' ∉ t

theorem Text.EndsNoLine.lineEnds_head {c : Char} {w : Text} (h : EndsNoLine (c :: w)) :
    lineEnds [c] = 0 :=
  List.count_eq_zero.2 fun hc => h.1 (List.mem_singleton.1 hc ▸ List.mem_cons_self)

/-- The second text is the first, which starts on line `k`, with words put into it; `ks` are the
lines that the words stand on, one for each word. A word follows a character on its line. -/
inductive Inserted : Nat → List Nat → Text → Text → Prop where
  | nil {k : Nat} : Inserted k [] [] []
  | char {k : Nat} {ks : List Nat} {s t : Text} (c : Char)
      (h : Inserted (k + Text.lineEnds [c]) ks s t) : Inserted k ks (c :: s) (c :: t)
  | word {k : Nat} {ks : List Nat} {s t : Text} {c : Char} {w : Text}
      (hw : Text.EndsNoLine (c :: w)) (hne : w ≠ []) (h : Inserted k ks s t) :
      Inserted k (k :: ks) (c :: s) (c :: (w ++ t))

namespace Inserted

theorem refl (k : Nat) (t : Text) : Inserted k [] t t := by
  induction t generalizing k with
  | nil => exact .nil
  | cons c t ih => exact .char c (ih _)

theorem append {k : Nat} {ks ks' : List Nat} {s s' t t' : Text} (h : Inserted k ks s t)
    (h' : Inserted (k + Text.lineEnds s) ks' s' t') :
    Inserted k (ks ++ ks') (s ++ s') (t ++ t') := by
  induction h with
  | nil => exact h'
  | @char k ks s t c h ih =>
    refine .char c (ih ?_)
    rwa [Nat.add_assoc, ← Text.lineEnds_append]
  | @word k ks s t c w hw hne h ih =>
    rw [List.cons_append, List.cons_append, List.cons_append, List.append_assoc]
    refine .word hw hne (ih ?_)
    have hs : Text.lineEnds (c :: s) = Text.lineEnds s := by
      rw [← List.singleton_append, Text.lineEnds_append, hw.lineEnds_head, Nat.zero_add]
    rwa [hs] at h'

/-- One word behind a part of a text, on the line where that part ends. -/
theorem behind {front : Text} {c : Char} {w : Text} (hc : front.getLast? = some c)
    (hw : Text.EndsNoLine (c :: w)) (hne : w ≠ []) (k : Nat) (back : Text) :
    Inserted k [k + Text.lineEnds front] (front ++ back) (front ++ w ++ back) := by
  obtain ⟨y, rfl⟩ := List.getLast?_eq_some_iff.1 hc
  have hword := (refl k y).append (.word hw hne (refl _ back))
  rw [Text.lineEnds_append, hw.lineEnds_head]
  simpa using hword

end Inserted

/-! ## Lines that grow -/

/-- The second lines are the first ones, numbered from `k`, where the lines in `ks` have grown, each
by as many words as `ks` names it times. -/
inductive Grown : Nat → List Nat → List Line → List Line → Prop where
  | nil {k : Nat} : Grown k [] [] []
  | same {k : Nat} {ks : List Nat} {ls ls' : List Line} (l : Line)
      (h : Grown (k + 1) ks ls ls') : Grown k ks (l :: ls) (l :: ls')
  | longer {k n : Nat} {ks : List Nat} {x x' e : Text} {ls ls' : List Line} (hne : x ≠ [])
      (hlt : x.length < x'.length) (h : Grown (k + 1) ks ls ls') :
      Grown k (List.replicate (n + 1) k ++ ks) (⟨x, e⟩ :: ls) (⟨x', e⟩ :: ls')

/-- A character in front of the first lines that ends none of them leaves the growth what it is. -/
theorem Grown.char {k : Nat} {ks : List Nat} {s t : Text} {c : Char} (hc : c ≠ '\n')
    (h : Grown k ks (Text.toLines s) (Text.toLines t)) :
    Grown k ks (Text.toLines (c :: s)) (Text.toLines (c :: t)) := by
  generalize hs : Text.toLines s = ls at h
  generalize ht : Text.toLines t = ls' at h
  cases h with
  | nil =>
    rw [Text.toLines_cons_of_nil hc hs, Text.toLines_cons_of_nil hc ht]
    exact .same _ .nil
  | same l h =>
    rw [Text.toLines_cons_of_ne hc hs, Text.toLines_cons_of_ne hc ht]
    exact .same _ h
  | longer hne hlt h =>
    have hne' := List.ne_nil_of_length_pos (Nat.zero_lt_of_lt hlt)
    rw [Text.toLines_cons_of_ne hc hs, Text.toLines_cons_of_ne hc ht,
      Line.cons_of_content_ne_nil hne, Line.cons_of_content_ne_nil hne']
    exact .longer (List.cons_ne_nil _ _) (Nat.succ_lt_succ hlt) h

/-- A word behind such a character makes the first line grow by one more word. -/
theorem Grown.word {k : Nat} {ks : List Nat} {s t : Text} {c : Char} {w : Text}
    (hw : Text.EndsNoLine (c :: w)) (hne : w ≠ [])
    (h : Grown k ks (Text.toLines s) (Text.toLines t)) :
    Grown k (k :: ks) (Text.toLines (c :: s)) (Text.toLines (c :: (w ++ t))) := by
  have hc : c ≠ '\n' := fun hc => hw.1 (hc ▸ List.mem_cons_self)
  have hc' : c ≠ '\r' := fun hc => hw.2 (hc ▸ List.mem_cons_self)
  have hlen : 0 < w.length := List.length_pos_iff.2 hne
  have hfront {l : Line} {ls : List Line} (ht : Text.toLines t = l :: ls) :
      Text.toLines (c :: (w ++ t)) = ⟨c :: w ++ l.content, l.ending⟩ :: ls := by
    rw [← List.cons_append, Text.toLines_append hw.1 ht, Line.foldr_cons fun hr => absurd hr hw.2]
  generalize hs : Text.toLines s = ls at h
  generalize ht : Text.toLines t = ls' at h
  cases h with
  | nil =>
    obtain rfl : t = [] := by rw [← Text.flatMap_text_toLines t, ht, List.flatMap_nil]
    rw [Text.toLines_cons_of_nil hc hs, List.append_nil,
      Text.toLines_of_not_mem hw.1 (List.cons_ne_nil c w)]
    exact .longer (n := 0) (List.cons_ne_nil c []) (by simpa using hlen) .nil
  | same l h =>
    rw [Text.toLines_cons_of_ne hc hs, Line.cons_of_ne hc', hfront ht]
    exact .longer (n := 0) (List.cons_ne_nil c _) (by simp; omega) h
  | longer hne' hlt h =>
    rw [Text.toLines_cons_of_ne hc hs, Line.cons_of_ne hc', hfront ht, ← List.cons_append,
      ← List.replicate_succ]
    exact .longer (List.cons_ne_nil c _) (by simp; omega) h

/-- Words that are put into a text make the lines longer that they stand on. -/
theorem Inserted.grown {k : Nat} {ks : List Nat} {s t : Text} (h : Inserted k ks s t) :
    Grown k ks (Text.toLines s) (Text.toLines t) := by
  induction h with
  | nil => exact .nil
  | @char k ks s t c h ih =>
    by_cases hc : c = '\n'
    · subst hc
      exact .same ⟨[], ['\n']⟩ ih
    · rw [Text.lineEnds, List.count_singleton, if_neg (by simpa using hc)] at ih
      exact ih.char hc
  | word hw hne h ih => exact ih.word hw hne

/-- Lines that grow keep their ends. -/
theorem Grown.map_ending {k : Nat} {ks : List Nat} {ls ls' : List Line} (h : Grown k ks ls ls') :
    ls'.map Line.ending = ls.map Line.ending := by
  induction h with
  | nil => rfl
  | same l h ih => rw [List.map_cons, List.map_cons, ih]
  | longer hne hlt h ih => rw [List.map_cons, List.map_cons, ih]

end TimeLimit
