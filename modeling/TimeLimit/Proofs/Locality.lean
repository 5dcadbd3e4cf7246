import TimeLimit.Proofs.Place

/-!
# Revising a source in parts

Behind a located test a source may be cut, and its parts be revised on their own: put together, the
two revisions are the revision of the whole (`revision_splits_behind_test`). `Revision.Joined` says
what is put together and how. One thing is not told by the parts: a header of the front that never
closes in the whole source may lack another bracket there, when the brace that closes its body
stands behind the cut.
-/

namespace TimeLimit

/-! ## Pieces that differ in the missing bracket -/

section
variable {xs ys : List Piece}

/-- What does not look at the missing bracket is the same for alike pieces. -/
theorem map_eq_of_alike {β : Type} {f : Piece → β} (hxy : List.Forall₂ Piece.Alike xs ys)
    (hf : ∀ h u u', f (.stray h u) = f (.stray h u')) : xs.map f = ys.map f := by
  induction hxy with
  | nil => rfl
  | cons hp _ ih =>
    rw [List.map_cons, List.map_cons, ih]
    cases hp with
    | refl p => rfl
    | stray h u u' => rw [hf h u u']

theorem countP_eq_of_alike {f : Piece → Bool} (hxy : List.Forall₂ Piece.Alike xs ys)
    (hf : ∀ h u u', f (.stray h u) = f (.stray h u')) : xs.countP f = ys.countP f := by
  have hcount (l : List Piece) : l.countP f = (l.map f).countP id := by
    rw [List.countP_map, Function.id_comp]
  rw [hcount, hcount, map_eq_of_alike hxy hf]

theorem flatMap_eq_of_alike {f : Piece → Text} (hxy : List.Forall₂ Piece.Alike xs ys)
    (hf : ∀ h u u', f (.stray h u) = f (.stray h u')) : xs.flatMap f = ys.flatMap f := by
  rw [List.flatMap_def, List.flatMap_def, map_eq_of_alike hxy hf]

end

/-- The place that a header without an end is reported for: its start and its line. -/
def Unterminated.place (u : Unterminated) : Place :=
  ⟨u.start, u.line⟩

/-- Alike pieces report headers at the same places. -/
theorem map_place_of_alike {xs ys : List Piece} (hxy : List.Forall₂ Piece.Alike xs ys) (p : Place) :
    (collect Piece.unterminated? p xs).map Unterminated.place =
      (collect Piece.unterminated? p ys).map Unterminated.place := by
  induction hxy generalizing p with
  | nil => rfl
  | @cons x y xs ys hp _ ih =>
    cases hp with
    | refl =>
      cases hx : x.unterminated? p with
      | none => rw [collect_cons_none hx, collect_cons_none hx, ih]
      | some u => rw [collect_cons_some hx, collect_cons_some hx, List.map_cons, List.map_cons, ih]
    | stray h u u' =>
      rw [collect_cons_some (f := Piece.unterminated?) rfl,
        collect_cons_some (f := Piece.unterminated?) rfl, List.map_cons, List.map_cons]
      exact congrArg _ (ih _)

/-- Pieces that stand farther behind report their headers there. -/
theorem collect_unterminated?_moved (bytes lines : Nat) (p : Place) (xs : List Piece) :
    collect Piece.unterminated? (p.moved bytes lines) xs =
      (collect Piece.unterminated? p xs).map (Unterminated.moved bytes lines) := by
  induction xs generalizing p with
  | nil => rfl
  | cons x xs ih =>
    have hmoved := Piece.unterminated?_moved bytes lines p x
    cases hx : x.unterminated? p with
    | none =>
      rw [hx] at hmoved
      rw [collect_cons_none hmoved, collect_cons_none hx, Place.past_moved, ih]
    | some u =>
      rw [hx] at hmoved
      rw [collect_cons_some hmoved, collect_cons_some hx, Place.past_moved, ih]
      rfl

/-! ## Two revisions put together -/

namespace Revision

/-- The third revision is the first, of a part at the front, and the second, of what follows, put
together. The headers of the front that never close stay in their places, but may lack another
bracket. -/
structure Joined (front : Text) (r₁ r₂ r : Revision) : Prop where
  text : r.text = r₁.text ++ r₂.text
  added : r.added = r₁.added + r₂.added
  limited : r.limited = r₁.limited + r₂.limited
  length : r.unterminated.length = r₁.unterminated.length + r₂.unterminated.length
  unterminated : ∃ us, us.map Unterminated.place = r₁.unterminated.map Unterminated.place ∧
    r.unterminated =
      us ++ r₂.unterminated.map (Unterminated.moved (Text.size front) (Text.lineEnds front))

/-- A source that is cut in pieces as its two parts are, but for the missing brackets of the first
part and for the end of that part, is revised as they are. -/
theorem joined_of_pieces {front back source : Text} {xs ys zs : List Piece}
    (hs : outline source = ys ++ zs) (hfront : outline front = xs ++ [.plain []])
    (hback : outline back = zs) (hxy : List.Forall₂ Piece.Alike ys xs) (seconds : UInt64) :
    Joined front (of front seconds) (of back seconds) (of source seconds) := by
  have htext : ys.flatMap Piece.text = front := by
    rw [flatMap_eq_of_alike hxy fun _ _ _ => rfl, ← flatMap_text_outline front, hfront]
    simp [Piece.text]
  have hplaces : (collect Piece.unterminated? .origin ys).map Unterminated.place =
      (of front seconds).unterminated.map Unterminated.place := by
    show _ = (collect Piece.unterminated? .origin (outline front)).map _
    rw [map_place_of_alike hxy, hfront, collect_append, collect_cons_none rfl, collect_nil,
      List.append_nil]
  have hunterminated : (of source seconds).unterminated =
      collect Piece.unterminated? .origin ys ++ (of back seconds).unterminated.map
        (Unterminated.moved (Text.size front) (Text.lineEnds front)) := by
    show collect Piece.unterminated? .origin (outline source) = _ ++
      (collect Piece.unterminated? .origin (outline back)).map _
    rw [hs, hback, collect_append, htext, Place.origin_past_eq_moved, collect_unterminated?_moved]
  refine ⟨?_, ?_, ?_, ?_, _, hplaces, hunterminated⟩
  · have := flatMap_eq_of_alike (f := fun p => (p.withLimit seconds).text) hxy fun _ _ _ => rfl
    have hend : ((Piece.plain []).withLimit seconds).text = [] := rfl
    simp [of, hs, hfront, hback, this, hend]
  · have := countP_eq_of_alike (f := Piece.wantsLimit) hxy fun _ _ _ => rfl
    simp [of, hs, hfront, hback, this, Piece.wantsLimit]
  · have := countP_eq_of_alike (f := Piece.isLimited) hxy fun _ _ _ => rfl
    simp [of, hs, hfront, hback, this, Piece.isLimited]
  · have := congrArg List.length hplaces
    rw [List.length_map, List.length_map] at this
    rw [hunterminated, List.length_append, List.length_map, this]

end Revision

/-- A test that a visit located is a piece of the source, and ends where the extent says. -/
theorem exists_test_of_visit {source : Text} {v : Visit} {e : Extent} (hv : v ∈ visits source)
    (he : v.found = .ok e) : ∃ ys c zs, outline source = ys ++ Piece.test c :: zs ∧
      e.stop = Text.size ((ys ++ [Piece.test c]).flatMap Piece.text) := by
  obtain ⟨ys, c, zs, houtline, rfl, -⟩ := exists_piece_of_visit hv he
  refine ⟨ys, c, zs, houtline, ?_⟩
  simp [TestCase.extentAt, Piece.text]

/-- A source may be revised in two parts, cut behind any located test of its scan: the texts are put
together, the counts add up, and the headers without an end are those of the first part, in their
places, and those of the second, moved by the bytes and the lines of the first. -/
theorem revision_splits_behind_test {source : Text} {v : Visit} {e : Extent}
    (hv : v ∈ visits source) (he : v.found = .ok e) (seconds : UInt64) :
    Text.size (Text.takeBytes e.stop source) = e.stop ∧
      Revision.Joined (Text.takeBytes e.stop source)
        (.of (Text.takeBytes e.stop source) seconds) (.of (Text.dropBytes e.stop source) seconds)
        (.of source seconds) := by
  obtain ⟨ys, c, zs, houtline, hstop⟩ := exists_test_of_visit hv he
  have houtlined := outlined_outline source
  rw [houtline] at houtlined
  obtain ⟨hback, xs, hxs, hfront⟩ := houtlined.cut
  have hsource : (ys ++ [Piece.test c]).flatMap Piece.text ++ zs.flatMap Piece.text = source := by
    rw [← List.flatMap_append, List.append_assoc, List.singleton_append, houtlined.flatMap_text]
  have htake : Text.takeBytes e.stop source = (ys ++ [Piece.test c]).flatMap Piece.text := by
    rw [hstop, ← hsource, Text.takeBytes_size_append]
  have hdrop : Text.dropBytes e.stop source = zs.flatMap Piece.text := by
    rw [hstop, ← hsource, Text.dropBytes_size_append]
  rw [htake, hdrop]
  refine ⟨hstop.symm, Revision.joined_of_pieces ?_ hfront.outline_eq hback.outline_eq hxs seconds⟩
  rw [houtline, List.append_assoc, List.singleton_append]

/-- The cut may go through the body of a header that never closes: its call lacks the parenthesis in
the whole source, and the brace in the first part. -/
theorem revision_splits_in_open_body :
    ∃ (source : Text) (v : Visit) (e : Extent),
      source = "test('a', () async \x7b\n  test('b', () async \x7b\x7d);\n\x7d".toList ∧
      Extent.locate source ⟨0, 19⟩ = .error ⟨0, 1, .call⟩ ∧
      Extent.locate (Text.takeBytes e.stop source) ⟨0, 19⟩ = .error ⟨0, 1, .body⟩ ∧
      v ∈ visits source ∧ v.found = .ok e ∧
      Text.size (Text.takeBytes e.stop source) = e.stop ∧
      Revision.Joined (Text.takeBytes e.stop source)
        (.of (Text.takeBytes e.stop source) 30) (.of (Text.dropBytes e.stop source) 30)
        (.of source 30) := by
  let source : Text := "test('a', () async \x7b\n  test('b', () async \x7b\x7d);\n\x7d".toList
  let v : Visit := .of source ⟨23, 42⟩
  let e : Extent := ⟨23, 42, 44, 45⟩
  have hfirst : Mark.find? source 0 = some ⟨0, 19⟩ := by decide
  have hnext : (Visit.of source ⟨0, 19⟩).next = 20 := by decide
  have hsecond : Mark.find? source 20 = some ⟨23, 42⟩ := by decide
  have hv : v ∈ visits source := by
    rw [visits, visitsFrom_of_find? hfirst, hnext, visitsFrom_of_find? hsecond]
    exact .tail _ (.head _)
  have he : v.found = .ok e := by decide
  exact ⟨source, v, e, rfl, by decide, by decide, hv, he, revision_splits_behind_test hv he 30⟩

end TimeLimit
