import TimeLimit.Proofs.Slot

/-!
# Revising a revision

The outline of a revised source is the outline of the source with the new limits in it
(`outline_text_of`): no word that is put in makes or hides a header, and none moves a place where a
test closes. In that outline no test lacks a limit, so a second revision changes nothing, whatever
its seconds (`revision_of_revision`). It reports the same headers without an end, each behind the
words that went in before it (`collect_unterminated?_withLimit`).
-/

namespace TimeLimit

/-! ## Pieces that have their limit -/

namespace Piece

/-- A test with its limit is a test that has one. -/
theorem exists_limited (c : TestCase) (seconds : UInt64) :
    ∃ c', (test c).withLimit seconds = test c' ∧ c'.isLimited = true := by
  by_cases hl : c.isLimited = true
  · exact ⟨c, if_pos hl, hl⟩
  · refine ⟨_, if_neg hl, ?_⟩
    rw [TestCase.isLimited, Tail.isSetIn_withLimit, Bool.or_true]

theorem wantsLimit_withLimit (x : Piece) (seconds : UInt64) :
    (x.withLimit seconds).wantsLimit = false := by
  cases x with
  | plain t => rfl
  | stray h u => rfl
  | test c =>
    obtain ⟨c', hc', hl⟩ := exists_limited c seconds
    rw [hc', wantsLimit, hl, Bool.not_true]

/-- A piece with its limit counts as limited if it was, or if it lacked one. -/
theorem isLimited_withLimit (x : Piece) (seconds : UInt64) :
    (x.withLimit seconds).isLimited = (x.wantsLimit || x.isLimited) := by
  cases x with
  | plain t => rfl
  | stray h u => rfl
  | test c =>
    obtain ⟨c', hc', hl⟩ := exists_limited c seconds
    rw [hc', isLimited, hl, wantsLimit, isLimited, Bool.not_or_self]

/-- A limit ends no line. -/
theorem lineEnds_withLimit (x : Piece) (seconds : UInt64) :
    Text.lineEnds (x.withLimit seconds).text = Text.lineEnds x.text := by
  cases x with
  | plain t => rfl
  | stray h u => rfl
  | test c =>
    by_cases hl : c.isLimited = true
    · rw [withLimit, if_pos hl]
    · rw [withLimit, if_neg hl]
      simp only [text, TestCase.text, Text.lineEnds_append, Tail.lineEnds_withLimit]

theorem countP_wantsLimit_withLimit (pieces : List Piece) (seconds : UInt64) :
    (pieces.map (withLimit seconds)).countP wantsLimit = 0 := by
  refine List.countP_eq_zero.2 fun y hy => ?_
  obtain ⟨x, -, rfl⟩ := List.mem_map.1 hy
  rw [wantsLimit_withLimit]
  exact Bool.false_ne_true

/-- Every test that lacked a limit counts as limited with it. -/
theorem countP_isLimited_withLimit (pieces : List Piece) (seconds : UInt64) :
    (pieces.map (withLimit seconds)).countP isLimited =
      pieces.countP wantsLimit + pieces.countP isLimited := by
  induction pieces with
  | nil => rfl
  | cons x pieces ih =>
    rw [List.map_cons, List.countP_cons, List.countP_cons, List.countP_cons, ih,
      isLimited_withLimit]
    cases x with
    | plain t => simp [wantsLimit, isLimited]
    | stray h u => simp [wantsLimit, isLimited]
    | test c => cases hl : c.isLimited <;> simp [wantsLimit, isLimited, hl] <;> omega

end Piece

/-- The pieces of a revised source are the pieces of the source with their limits. -/
theorem outline_text_of (source : Text) (seconds : UInt64) :
    outline (Revision.of source seconds).text = (outline source).map (Piece.withLimit seconds) := by
  have hgains : List.Forall₂ Piece.Gains (outline source)
      ((outline source).map (Piece.withLimit seconds)) := by
    rw [List.forall₂_map_right_iff, List.forall₂_same]
    exact fun x _ => Piece.gains_withLimit x seconds
  have htext : (Revision.of source seconds).text =
      ((outline source).map (Piece.withLimit seconds)).flatMap Piece.text := by
    rw [List.flatMap_map]
    rfl
  rw [htext]
  exact ((outlined_outline source).gain hgains).outline_eq

/-! ## Headers behind the words -/

namespace Slot

/-- How many bytes the words of some slots take. -/
def width (seconds : UInt64) : List Slot → Nat
  | [] => 0
  | s :: ss => Text.size (s.word seconds) + width seconds ss

/-- How many bytes the words of the slots before an offset take. -/
def widthBefore (seconds : UInt64) (slots : List Slot) (offset : Nat) : Nat :=
  width seconds (slots.filter fun s => s.offset < offset)

theorem width_append_singleton (seconds : UInt64) (ss : List Slot) (s : Slot) :
    width seconds (ss ++ [s]) = width seconds ss + Text.size (s.word seconds) := by
  induction ss with
  | nil => simp [width]
  | cons s' ss ih => rw [List.cons_append, width, width, ih, Nat.add_assoc]

end Slot

/-- Before the place where pieces start, only the words of earlier slots went in. -/
theorem widthBefore_append_collect (seconds : UInt64) {earlier : List Slot} {p : Place}
    (h : ∀ s ∈ earlier, s.offset < p.offset) (xs : List Piece) :
    Slot.widthBefore seconds (earlier ++ collect Piece.slot? p xs) p.offset =
      Slot.width seconds earlier := by
  have hearlier : earlier.filter (fun s => s.offset < p.offset) = earlier :=
    List.filter_eq_self.2 fun s hs => decide_eq_true (h s hs)
  have hlater : (collect Piece.slot? p xs).filter (fun s => s.offset < p.offset) = [] := by
    refine List.filter_eq_nil_iff.2 fun s hs => ?_
    have := le_offset_of_mem_collect_slot? hs
    simpa using this
  rw [Slot.widthBefore, List.filter_append, hearlier, hlater, List.append_nil]

namespace Piece

/-- A piece with a slot is no header without an end. -/
theorem unterminated?_of_slot? {p : Place} {x : Piece} {s : Slot} (h : x.slot? p = some s)
    (q : Place) : x.unterminated? q = none := by
  cases x with
  | stray hd u => cases h
  | plain t => rfl
  | test c => rfl

theorem unterminated?_withLimit (x : Piece) (seconds : UInt64) (p : Place) :
    (x.withLimit seconds).unterminated? p = x.unterminated? p := by
  cases x with
  | plain t => rfl
  | stray h u => rfl
  | test c =>
    rw [withLimit]
    split <;> rfl

/-- A header without an end is reported where its piece stands. -/
theorem start_of_unterminated? {p : Place} {x : Piece} {u : Unterminated}
    (h : x.unterminated? p = some u) : u.start = p.offset := by
  cases x with
  | stray hd u' =>
    cases h
    rfl
  | plain t => cases h
  | test c => cases h

/-- A piece with a slot grows by the word that goes there. -/
theorem past_withLimit_of_slot? {p : Place} {x : Piece} {s : Slot} (h : x.slot? p = some s)
    (seconds : UInt64) (q : Place) : q.past (x.withLimit seconds).text =
      (q.past x.text).moved (Text.size (s.word seconds)) 0 := by
  obtain ⟨front, back, htext, -, -, hword⟩ := exists_of_slot? h
  rw [Place.past, lineEnds_withLimit, hword, htext]
  simp only [Place.past, Place.moved, Text.size_append, Place.mk.injEq]
  omega

end Piece

/-- With their limits, pieces report the same headers without an end, each moved by the words that
went in before it. -/
theorem collect_unterminated?_withLimit (seconds : UInt64) {earlier : List Slot} {p : Place}
    (h : ∀ s ∈ earlier, s.offset < p.offset) (xs : List Piece) :
    collect Piece.unterminated? (p.moved (Slot.width seconds earlier) 0)
        (xs.map (Piece.withLimit seconds)) =
      (collect Piece.unterminated? p xs).map fun u => u.moved
        (Slot.widthBefore seconds (earlier ++ collect Piece.slot? p xs) u.start) 0 := by
  induction xs generalizing p earlier with
  | nil => rfl
  | cons x xs ih =>
    have hpast : p.offset ≤ (p.past x.text).offset := Nat.le_add_right _ _
    have hwidth := widthBefore_append_collect seconds h (x :: xs)
    cases hx : x.slot? p with
    | none =>
      have ih := ih fun s hs => Nat.lt_of_lt_of_le (h s hs) hpast
      rw [← Place.past_moved] at ih
      rw [collect_cons_none hx] at hwidth ⊢
      rw [List.map_cons, Piece.withLimit_eq_self (Piece.slot?_eq_none_iff.1 hx)]
      have hmoved := Piece.unterminated?_moved (Slot.width seconds earlier) 0 p x
      cases hu : x.unterminated? p with
      | none =>
        rw [hu] at hmoved
        rw [collect_cons_none hmoved, collect_cons_none hu, ih]
      | some u =>
        rw [hu] at hmoved
        have hstart : u.start = p.offset := Piece.start_of_unterminated? hu
        rw [collect_cons_some hmoved, collect_cons_some hu, ih, List.map_cons, hstart, hwidth]
    | some s =>
      have hs := (Piece.bounds_of_slot? hx).2
      have hearlier : ∀ s' ∈ earlier ++ [s], s'.offset < (p.past x.text).offset := by
        intro s' hs'
        rcases List.mem_append.1 hs' with hs' | hs'
        · exact Nat.lt_of_lt_of_le (h s' hs') hpast
        · rwa [List.mem_singleton.1 hs']
      have ih := ih hearlier
      have hplace : (p.moved (Slot.width seconds earlier) 0).past (x.withLimit seconds).text =
          (p.past x.text).moved (Slot.width seconds (earlier ++ [s])) 0 := by
        rw [Piece.past_withLimit_of_slot? hx, Place.past_moved, Place.moved_moved,
          Slot.width_append_singleton]
      rw [← hplace] at ih
      have hnone := Piece.unterminated?_withLimit x seconds (p.moved (Slot.width seconds earlier) 0)
      rw [Piece.unterminated?_of_slot? hx] at hnone
      rw [List.map_cons, collect_cons_none hnone,
        collect_cons_none (Piece.unterminated?_of_slot? hx p), collect_cons_some hx, ih,
        List.append_assoc, List.singleton_append]

/-- A second revision changes nothing, whatever its seconds. Every test that the first one gave a
limit now counts as one that has a limit, and the headers without an end are the same, on the same
lines and for the same brackets, each moved by the words that went in before it. -/
theorem revision_of_revision (source : Text) (n m : UInt64) :
    let r := Revision.of source n
    r.text = splice source n 0 (slots source) ∧
    Revision.of r.text m =
      { text := r.text
        added := 0
        limited := r.added + r.limited
        unterminated := r.unterminated.map fun u =>
          { u with start := u.start + Slot.widthBefore n (slots source) u.start } } := by
  have houtline := outline_text_of source n
  refine ⟨text_eq_splice source n, ?_⟩
  rw [Revision.of, houtline]
  simp only [Revision.mk.injEq]
  refine ⟨?_, Piece.countP_wantsLimit_withLimit _ n, Piece.countP_isLimited_withLimit _ n, ?_⟩
  · rw [List.flatMap_map]
    refine List.flatMap_congr fun x _ => ?_
    rw [Piece.withLimit_eq_self (Piece.wantsLimit_withLimit x n)]
  · have hearlier : ∀ s ∈ ([] : List Slot), s.offset < Place.origin.offset := nofun
    rw [slots_eq_collect]
    exact collect_unterminated?_withLimit n hearlier (outline source)

end TimeLimit
