import TimeLimit.Text.Chunk

/-!
# Wrapped text

A text is set in lines of a width: a chunk stands on the current line while it fits, and begins the
next one otherwise (`fit`). So each line ends within the width or holds a single chunk
(`fits_of_mem_fit`), and all chunks stand in their order (`flatten_fit`). Spaces at the end of a
line are dropped, and the lines of the text itself are kept apart.
-/

namespace TimeLimit

namespace Chunk

open Text

/-- The number of columns of chunks on one line, with the spaces behind the last. -/
def lineColumns (line : List Chunk) : Nat :=
  line.foldl (fun n c => n + columns c.body + c.gap) 0

/-- The lines of a width that chunks fill, behind those that stand on the first line already. -/
def fit (width : Nat) (line : List Chunk) : List Chunk → List (List Chunk)
  | [] => [line]
  | c :: cs =>
    if line ≠ [] ∧ width < lineColumns line + columns c.body then line :: fit width [c] cs
    else fit width (line ++ [c]) cs

/-- A line fits when it holds no more than one chunk, or its last chunk ends within the width. -/
def Fits (width : Nat) (line : List Chunk) : Prop :=
  ∀ front c, line = front ++ [c] → front = [] ∨ lineColumns front + columns c.body ≤ width

/-- Each line holds a single chunk or ends within the width. -/
theorem fits_of_mem_fit {width : Nat} {line cs l : List Chunk} (h : Fits width line)
    (hl : l ∈ fit width line cs) : Fits width l := by
  fun_induction fit width line cs with
  | case1 => simpa [List.mem_singleton.1 hl] using h
  | case2 line c cs hc ih =>
    rcases List.mem_cons.1 hl with rfl | hl
    · exact h
    · refine ih (fun front d hd => .inl ?_) hl
      cases front with
      | nil => rfl
      | cons a front => simp at hd
  | case3 line c cs hc ih =>
    refine ih (fun front d hd => ?_) hl
    obtain ⟨rfl, hcd⟩ := List.append_inj' hd rfl
    obtain rfl : c = d := List.singleton_inj.1 hcd
    by_cases hline : line = []
    · exact .inl hline
    · exact .inr (Nat.le_of_not_lt fun hlt => hc ⟨hline, hlt⟩)

/-- The lines hold the chunks in their order. -/
theorem flatten_fit (width : Nat) (line cs : List Chunk) :
    (fit width line cs).flatten = line ++ cs := by
  fun_induction fit width line cs with
  | case1 => simp
  | case2 line c cs h ih => simp [ih]
  | case3 line c cs h ih => simp [ih]

end Chunk

namespace Text

/-- A line of a text, set in lines of a width. -/
def wrapLine (width : Nat) (line : Text) : List Text :=
  (Chunk.fit width [] (Chunk.ofLine width line)).map Chunk.lineText

/-- A text set in lines of a width. -/
def wrap (width : Nat) (t : Text) : List Text :=
  (pieces '\n' t).flatMap (wrapLine width)

end Text

end TimeLimit
