import TimeLimit.Proofs.Slot

/-!
# One test of a source

A source is the parts of any of its tests with the other pieces around them (`text_around`).
`Text.overwrite` writes another text over a part; written over the body or over the tail of a test
it gives the source in which that piece has the new part (`overwrite_body`, `overwrite_tail`).
`Visit.verdict` is what a scan decides about a header, and it can be read off the pieces alone
(`map_verdict_visits`).
-/

namespace TimeLimit

namespace Text

/-- A text with another one written over what stands between two offsets. -/
def overwrite (start stop : Nat) (new t : Text) : Text :=
  takeBytes start t ++ new ++ dropBytes stop t

theorem overwrite_append (s old t new : Text) :
    overwrite (size s) (size (s ++ old)) new (s ++ old ++ t) = s ++ new ++ t := by
  rw [overwrite, dropBytes_size_append, List.append_assoc s old, takeBytes_size_append]

end Text

/-! ## A test among the pieces -/

/-- Pieces around a test are the parts of the test with the other pieces around them. -/
theorem text_around (ys zs : List Piece) (c : TestCase) :
    (ys ++ .test c :: zs).flatMap Piece.text =
      ys.flatMap Piece.text ++ c.header.text ++ c.body ++
        (c.tail ++ ')' :: zs.flatMap Piece.text) := by
  simp [Piece.text, TestCase.text]

section
variable {source : Text} {ys zs : List Piece} {c : TestCase}

/-- Another body written over that of a test. -/
theorem overwrite_body (h : outline source = ys ++ .test c :: zs) (body : Text) :
    Text.overwrite (c.extentAt (Text.size (ys.flatMap Piece.text))).brace
        (c.extentAt (Text.size (ys.flatMap Piece.text))).bodyEnd body source =
      (ys ++ .test { c with body } :: zs).flatMap Piece.text := by
  have hsource := flatMap_text_outline source
  rw [h, text_around] at hsource
  have hover := Text.overwrite_append (ys.flatMap Piece.text ++ c.header.text) c.body
    (c.tail ++ ')' :: zs.flatMap Piece.text) body
  rw [hsource] at hover
  rw [text_around, ← hover]
  simp [TestCase.extentAt]

/-- Another tail written over that of a test. -/
theorem overwrite_tail (h : outline source = ys ++ .test c :: zs) (tail : Text) :
    Text.overwrite (c.extentAt (Text.size (ys.flatMap Piece.text))).bodyEnd
        (c.extentAt (Text.size (ys.flatMap Piece.text))).closeParen tail source =
      (ys ++ .test { c with tail } :: zs).flatMap Piece.text := by
  have hsource := flatMap_text_outline source
  rw [h, text_around, ← List.append_assoc _ c.tail] at hsource
  have hover := Text.overwrite_append (ys.flatMap Piece.text ++ c.header.text ++ c.body) c.tail
    (')' :: zs.flatMap Piece.text) tail
  rw [hsource] at hover
  rw [text_around, ← List.append_assoc _ tail, ← hover, TestCase.closeParen_extentAt]
  simp [TestCase.extentAt, Nat.add_assoc]

end

/-! ## Verdicts -/

/-- What a scan decides about a header that it visits: which bracket of its test never closes, or
whether the test has a limit. -/
def Visit.verdict (source : Text) (v : Visit) : Except Unclosed Bool :=
  match v.found with
  | .error u => .error u.unclosed
  | .ok e => .ok (e.isLimited source)

/-- The verdict on a piece, if it starts with a header. -/
def Piece.verdict? : Piece → Option (Except Unclosed Bool)
  | plain _ => none
  | stray _ u => some (.error u)
  | test c => some (.ok c.isLimited)

/-- What is read off pieces without regard to their places. -/
theorem collect_eq_filterMap {α : Type} (f : Piece → Option α) (p : Place) (xs : List Piece) :
    collect (fun _ x => f x) p xs = xs.filterMap f := by
  have hmap := List.filterMap_map (f := Prod.snd) (g := f) (l := placed p xs)
  rw [map_snd_placed] at hmap
  exact hmap.symm

/-- The verdicts of a scan are those on the pieces. -/
theorem map_verdict_visits (source : Text) :
    (visits source).map (Visit.verdict source) = (outline source).filterMap Piece.verdict? := by
  rw [← List.filterMap_eq_map, ← collect_eq_filterMap Piece.verdict? .origin]
  refine filterMap_visits (g := fun _ x => x.verdict?) fun pre x post hs => ?_
  cases x with
  | plain t => rfl
  | stray h u => rfl
  | test c =>
    have := TestCase.isLimited_extentAt hs
    simp [Piece.visit?, Visit.verdict, Piece.verdict?, this]

/-- As many headers without an end are reported as there are such pieces. -/
theorem Revision.length_unterminated (source : Text) (seconds : UInt64) :
    (of source seconds).unterminated.length = (outline source).countP Piece.isStray := by
  have hreport : (of source seconds).unterminated.length =
      (placed .origin (outline source)).countP fun x => x.2.isStray := by
    rw [of, List.length_filterMap_eq_countP]
    refine List.countP_congr fun x _ => ?_
    obtain ⟨p, x⟩ := x
    cases x <;> simp [Piece.unterminated?, Piece.isStray]
  rw [hreport, ← map_snd_placed .origin (outline source), List.countP_map, map_snd_placed]
  rfl

end TimeLimit
