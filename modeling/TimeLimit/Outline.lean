import TimeLimit.Tail

/-!
# The outline of a source

A source is a row of pieces: whole tests, headers whose test never closes, and the text between
them. Tests inside the body of another test are part of that body and no pieces of their own;
behind a header that never closes the search goes on directly. `outline` cuts a source into its
pieces and nothing is lost (`flatMap_text_outline`). `Piece.isStray`, `Piece.isLimited` and
`Piece.wantsLimit` put each piece that starts with a header into exactly one class.
-/

namespace TimeLimit

/-- A piece of a source. -/
inductive Piece where
  /-- Text that belongs to no test. -/
  | plain (t : Text)
  /-- A header with its brace, and the bracket of its test that never closes. -/
  | stray (header : Header) (unclosed : Unclosed)
  /-- A whole test. -/
  | test (c : TestCase)
  deriving DecidableEq

namespace Piece

/-- The piece as it stands in the source. -/
def text : Piece → Text
  | plain t => t
  | stray h _ => h.text ++ ['{']
  | test c => c.text

/-- The piece starts with a header whose test never closes. -/
def isStray : Piece → Bool
  | stray _ _ => true
  | _ => false

/-- The piece is a test that has a time limit. -/
def isLimited : Piece → Bool
  | test c => c.isLimited
  | _ => false

/-- The piece is a test that lacks a time limit. -/
def wantsLimit : Piece → Bool
  | test c => !c.isLimited
  | _ => false

end Piece

/-- Cuts a source into its pieces. The search goes on behind a brace or a parenthesis, neither of
which belongs to a word, so each step may take the rest of the source for a source of its own. -/
def outline (t : Text) : List Piece :=
  match _h : Opening.first? none t with
  | none => [.plain t]
  | some o =>
    match _hc : Closing.of o.rest with
    | .error u => .plain o.before :: .stray o.header u :: outline o.rest
    | .ok c => .plain o.before :: .test (.ofClosing o.header c) :: outline c.rest
termination_by t.length
decreasing_by
  · exact Opening.length_rest_lt ‹_›
  · exact Nat.lt_trans (Closing.length_rest_lt ‹_›) (Opening.length_rest_lt ‹_›)

/-- The pieces put together are the source. -/
theorem flatMap_text_outline (t : Text) : (outline t).flatMap Piece.text = t := by
  fun_induction outline t with
  | case1 t h => simp [Piece.text]
  | case2 t o h u hc ih =>
    have ho := Opening.text_of_first? h
    simp only [Opening.text] at ho
    simp [Piece.text, ih, ← ho]
  | case3 t o h c hc ih =>
    have ho := Opening.text_of_first? h
    rw [Opening.text, (Closing.of_eq_ok_iff.1 hc).1] at ho
    simp only [List.flatMap_cons, Piece.text, ih]
    rw [← ho, TestCase.text_ofClosing, List.append_assoc]

/-! ## Places -/

/-- A place in a source: how many bytes stand before it, and the line it is on, from one. -/
structure Place where
  offset : Nat
  line : Nat
  deriving DecidableEq, Repr

namespace Place

/-- The place where a source starts. -/
def origin : Place := ⟨0, 1⟩

/-- The place behind a text that starts here. -/
def past (p : Place) (t : Text) : Place :=
  ⟨p.offset + Text.size t, p.line + Text.lineEnds t⟩

end Place

/-- Pieces with their places, for pieces that stand behind each other from a place on. -/
def placed : Place → List Piece → List (Place × Piece)
  | _, [] => []
  | p, x :: xs => (p, x) :: placed (p.past x.text) xs

theorem map_snd_placed (p : Place) (pieces : List Piece) :
    (placed p pieces).map Prod.snd = pieces := by
  induction pieces generalizing p with
  | nil => rfl
  | cons x xs ih => simp [placed, ih]

end TimeLimit
