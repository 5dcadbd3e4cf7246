import TimeLimit.Proofs.Place

/-!
# What a revision inserts

A revision changes a source at its slots only. There is one for each located test without a limit,
behind the last argument of the test's tail, and what goes there depends on the slot and on the
seconds (`Slot.word`); where the slots are and what form their words take does not depend on the
seconds. `splice` copies a source from slot to slot and puts the words between, and it is what a
revision writes (`revision_inserts_at_slots`).
-/

namespace TimeLimit

/-- A place where a revision puts an argument. -/
structure Slot where
  /-- Byte offset of the character that the argument goes before. -/
  offset : Nat
  /-- The text before it ends in a comma. -/
  afterComma : Bool
  deriving DecidableEq, Repr

namespace Slot

/-- What goes into a slot: the argument behind a comma that stands there, or behind a comma of its
own. -/
def word (seconds : UInt64) (s : Slot) : Text :=
  if s.afterComma then ' ' :: (Limit.argument seconds ++ [','])
  else ',' :: ' ' :: Limit.argument seconds

/-- The slot behind the kept part of a tail that starts at an offset. -/
def behind (offset : Nat) (kept : Text) : Slot :=
  ⟨offset + Text.size kept, decide (kept.getLast? = some ',')⟩

theorem word_behind (seconds : UInt64) (offset : Nat) (kept : Text) :
    (behind offset kept).word seconds = Tail.insertion kept seconds := by
  unfold word behind Tail.insertion
  by_cases h : kept.getLast? = some ',' <;> simp [h]

end Slot

/-- The slot of a located test, in its tail. -/
def Extent.slot (source : Text) (e : Extent) : Slot :=
  .behind e.bodyEnd (Tail.split (e.tailText source)).1

/-- The test of a visit, if it lacks a limit. -/
def Visit.unlimited? (source : Text) (v : Visit) : Option Extent :=
  match v.found with
  | .error _ => none
  | .ok e => if e.isLimited source then none else some e

/-- The located tests of a source that lack a limit, in order. -/
def unlimited (source : Text) : List Extent :=
  (visits source).filterMap (Visit.unlimited? source)

/-- The slots of a source, one for each located test without a limit. -/
def slots (source : Text) : List Slot :=
  (unlimited source).map (Extent.slot source)

/-- Copies a source from an offset on and puts the words of some slots into it. -/
def splice (source : Text) (seconds : UInt64) (copied : Nat) : List Slot → Text
  | [] => Text.dropBytes copied source
  | s :: slots =>
    Text.slice copied s.offset source ++ s.word seconds ++ splice source seconds s.offset slots

/-! ## Slots of pieces -/

/-- The parts of a test before and behind its slot. -/
theorem TestCase.before_slot_append (c : TestCase) :
    c.header.text ++ c.body ++ (Tail.split c.tail).1 ++ ((Tail.split c.tail).2 ++ [')']) =
      c.text := by
  conv_rhs => rw [text, ← Tail.split_append c.tail]
  simp only [List.append_assoc]

namespace Piece

/-- The test of a piece at a place, if it lacks a limit. -/
def unlimited? (p : Place) : Piece → Option Extent
  | .test c => if c.isLimited then none else some (c.extentAt p.offset)
  | _ => none

/-- The slot of a piece at a place, if it is a test without a limit. -/
def slot? (p : Place) : Piece → Option Slot
  | .test c =>
    if c.isLimited then none
    else some (.behind (p.offset + Text.size (c.header.text ++ c.body)) (Tail.split c.tail).1)
  | _ => none

/-- A piece has a slot when it lacks a limit. -/
theorem slot?_eq_none_iff {p : Place} {x : Piece} : x.slot? p = none ↔ x.wantsLimit = false := by
  cases x <;> simp [slot?, wantsLimit]

/-- A piece that lacks no limit is left as it is. -/
theorem withLimit_eq_self {x : Piece} (h : x.wantsLimit = false) (seconds : UInt64) :
    x.withLimit seconds = x := by
  cases x with
  | plain t => rfl
  | stray hd u => rfl
  | test c => exact if_pos (by simpa [wantsLimit] using h)

/-- A slot divides its piece, and its word goes between the two parts. -/
theorem exists_of_slot? {p : Place} {x : Piece} {s : Slot} (h : x.slot? p = some s) :
    ∃ front back, x.text = front ++ back ∧ s.offset = p.offset + Text.size front ∧
      0 < Text.size back ∧
        ∀ seconds, (x.withLimit seconds).text = front ++ s.word seconds ++ back := by
  cases x with
  | plain t => cases h
  | stray hd u => cases h
  | test c =>
    by_cases hl : c.isLimited = true
    · rw [slot?, if_pos hl] at h
      cases h
    rw [slot?, if_neg hl] at h
    cases h
    refine ⟨c.header.text ++ c.body ++ (Tail.split c.tail).1, (Tail.split c.tail).2 ++ [')'],
      c.before_slot_append.symm, ?_, ?_, fun seconds => ?_⟩
    · simp [Slot.behind, Nat.add_assoc]
    · have := (')').utf8Size_pos
      simp only [Text.size_append, Text.size_cons]
      omega
    · rw [Slot.word_behind, withLimit, if_neg hl]
      simp [text, TestCase.text, Tail.withLimit]

/-- A slot stands inside its piece. -/
theorem bounds_of_slot? {p : Place} {x : Piece} {s : Slot} (h : x.slot? p = some s) :
    p.offset ≤ s.offset ∧ s.offset < (p.past x.text).offset := by
  obtain ⟨front, back, htext, hoffset, hback, -⟩ := exists_of_slot? h
  have hpast : (p.past x.text).offset = p.offset + Text.size x.text := rfl
  have hsize : Text.size x.text = Text.size front + Text.size back := by
    rw [htext, Text.size_append]
  omega

end Piece

/-- Slots of pieces do not stand before the place where the pieces start. -/
theorem le_offset_of_mem_collect_slot? {p : Place} {xs : List Piece} {s : Slot}
    (h : s ∈ collect Piece.slot? p xs) : p.offset ≤ s.offset := by
  induction xs generalizing p with
  | nil => cases h
  | cons x xs ih =>
    have hpast : p.offset ≤ (p.past x.text).offset := Nat.le_add_right _ _
    cases hx : x.slot? p with
    | none =>
      rw [collect_cons_none hx] at h
      exact Nat.le_trans hpast (ih h)
    | some s' =>
      rw [collect_cons_some hx] at h
      cases h with
      | head => exact (Piece.bounds_of_slot? hx).1
      | tail _ h => exact Nat.le_trans hpast (ih h)

/-- Slots stand in the order of the pieces, each at a place of its own. -/
theorem pairwise_collect_slot? (p : Place) (xs : List Piece) :
    (collect Piece.slot? p xs).Pairwise fun s s' => s.offset < s'.offset := by
  induction xs generalizing p with
  | nil => exact .nil
  | cons x xs ih =>
    cases hx : x.slot? p with
    | none =>
      rw [collect_cons_none hx]
      exact ih _
    | some s =>
      rw [collect_cons_some hx]
      have hs := (Piece.bounds_of_slot? hx).2
      exact .cons (fun s' hs' => Nat.lt_of_lt_of_le hs (le_offset_of_mem_collect_slot? hs')) (ih _)

/-- The located tests without a limit are those of the pieces. -/
theorem unlimited_eq_collect (source : Text) :
    unlimited source = collect Piece.unlimited? .origin (outline source) := by
  refine filterMap_visits (g := Piece.unlimited?) fun pre x post hs => ?_
  cases x with
  | plain t => rfl
  | stray hd u => rfl
  | test c =>
    have := TestCase.isLimited_extentAt hs
    simp [Piece.visit?, Visit.unlimited?, Piece.unlimited?, this]

/-- The slots of a source are those of its pieces. -/
theorem slots_eq_collect (source : Text) :
    slots source = collect Piece.slot? .origin (outline source) := by
  rw [slots, unlimited, List.map_filterMap]
  refine filterMap_visits (g := Piece.slot?) fun pre x post hs => ?_
  cases x with
  | plain t => rfl
  | stray hd u => rfl
  | test c =>
    have hlimited := TestCase.isLimited_extentAt hs
    have htail := TestCase.tailText_extentAt hs
    by_cases hl : c.isLimited = true
    · simp [Piece.visit?, Visit.unlimited?, Piece.slot?, hlimited, hl]
    · simp only [Piece.visit?, Visit.unlimited?, Piece.slot?, Place.offset_origin_past, hlimited,
        hl, Extent.slot, htail, Option.bind_some, Option.map_some, if_false, Bool.false_eq_true]
      rfl

/-- A test that lacks a limit is a piece of its source. -/
theorem exists_piece_of_unlimited {source : Text} {e : Extent} (h : e ∈ unlimited source) :
    ∃ ys c zs, outline source = ys ++ Piece.test c :: zs ∧ c.isLimited = false ∧
      e = c.extentAt (Text.size (ys.flatMap Piece.text)) ∧ e.tailText source = c.tail := by
  rw [unlimited_eq_collect, collect, List.mem_filterMap] at h
  obtain ⟨⟨q, x⟩, hmem, hx⟩ := h
  obtain ⟨ys, zs, houtline, rfl⟩ := exists_of_mem_placed hmem
  cases x with
  | plain t => cases hx
  | stray hd u => cases hx
  | test c =>
    simp only [Piece.unlimited?, Option.ite_none_left_eq_some, Bool.not_eq_true,
      Place.offset_origin_past, Option.some.injEq] at hx
    obtain ⟨hl, rfl⟩ := hx
    have hsource := flatMap_text_outline source
    rw [houtline, List.flatMap_append, List.flatMap_cons, ← List.append_assoc] at hsource
    exact ⟨ys, c, zs, houtline, hl, rfl, TestCase.tailText_extentAt hsource.symm⟩

/-- A slot stands in the tail of its test, on a boundary between characters. -/
theorem bounds_of_mem_unlimited {source : Text} {e : Extent} (h : e ∈ unlimited source) :
    e.bodyEnd ≤ (e.slot source).offset ∧ (e.slot source).offset ≤ e.closeParen ∧
      ∃ front, front <+: source ∧ Text.size front = (e.slot source).offset := by
  obtain ⟨ys, c, zs, houtline, -, he, htail⟩ := exists_piece_of_unlimited h
  have hsource := flatMap_text_outline source
  rw [houtline, List.flatMap_append, List.flatMap_cons, Piece.text,
    ← c.before_slot_append] at hsource
  have hoffset : (e.slot source).offset = e.bodyEnd + Text.size (Tail.split c.tail).1 := by
    rw [Extent.slot, htail, Slot.behind]
  have hclose : e.closeParen = e.bodyEnd + Text.size c.tail := by
    rw [he, TestCase.closeParen_extentAt]
  have hsize : Text.size c.tail = Text.size (Tail.split c.tail).1 +
      Text.size (Tail.split c.tail).2 := by
    rw [← Text.size_append, Tail.split_append]
  refine ⟨by omega, by omega,
    ys.flatMap Piece.text ++ (c.header.text ++ c.body ++ (Tail.split c.tail).1),
    ⟨(Tail.split c.tail).2 ++ [')'] ++ zs.flatMap Piece.text, ?_⟩, ?_⟩
  · simpa using hsource
  · rw [hoffset, he, TestCase.extentAt]
    simp [Nat.add_assoc]

/-! ## The spliced text -/

/-- What stands before the first slot is copied. -/
theorem splice_append {source pre gap t : Text} (hs : source = pre ++ gap ++ t) (seconds : UInt64)
    {ss : List Slot} (h : ∀ s ∈ ss, Text.size (pre ++ gap) ≤ s.offset) :
    splice source seconds (Text.size pre) ss =
      gap ++ splice source seconds (Text.size (pre ++ gap)) ss := by
  cases ss with
  | nil =>
    rw [splice, splice, hs, Text.dropBytes_size_append, List.append_assoc,
      Text.dropBytes_size_append]
  | cons s ss =>
    have hle := h s (.head _)
    have hslice : Text.slice (Text.size pre) s.offset source =
        gap ++ Text.slice (Text.size (pre ++ gap)) s.offset source := by
      rw [Text.slice, Text.slice, hs, Text.takeBytes_append_of_size_le hle,
        Text.dropBytes_size_append, List.append_assoc, Text.dropBytes_size_append]
    rw [splice, splice, hslice, List.append_assoc, List.append_assoc, List.append_assoc]

/-- The words of the slots of some pieces, put into the source, give the new pieces. -/
theorem splice_collect_slot? {source pre : Text} {xs : List Piece}
    (hs : source = pre ++ xs.flatMap Piece.text) (seconds : UInt64) :
    splice source seconds (Text.size pre) (collect Piece.slot? (Place.origin.past pre) xs) =
      xs.flatMap fun x => (x.withLimit seconds).text := by
  induction xs generalizing pre with
  | nil =>
    rw [collect_nil, splice, hs, Text.dropBytes_size_append]
    rfl
  | cons x xs ih =>
    rw [List.flatMap_cons, ← List.append_assoc] at hs
    have ih := ih hs
    have hle : ∀ s ∈ collect Piece.slot? (Place.origin.past (pre ++ x.text)) xs,
        Text.size (pre ++ x.text) ≤ s.offset := by
      intro s h
      have := le_offset_of_mem_collect_slot? h
      rwa [Place.offset_origin_past] at this
    cases hx : x.slot? (Place.origin.past pre) with
    | none =>
      rw [collect_cons_none hx, Place.past_past, splice_append hs seconds hle, ih,
        List.flatMap_cons, Piece.withLimit_eq_self (Piece.slot?_eq_none_iff.1 hx)]
    | some s =>
      obtain ⟨front, back, htext, hoffset, -, hword⟩ := Piece.exists_of_slot? hx
      rw [Place.offset_origin_past, ← Text.size_append] at hoffset
      rw [htext, ← List.append_assoc] at hs hle ih
      have hslice := Text.slice_append pre front (back ++ xs.flatMap Piece.text)
      rw [← List.append_assoc, ← hs] at hslice
      rw [collect_cons_some hx, Place.past_past, splice, hoffset, hslice, htext,
        ← List.append_assoc, splice_append hs seconds hle, ih, List.flatMap_cons, hword]
      simp only [List.append_assoc]

/-- A revision writes the source with the words of its slots. -/
theorem text_eq_splice (source : Text) (seconds : UInt64) :
    (Revision.of source seconds).text = splice source seconds 0 (slots source) := by
  have hs : source = [] ++ (outline source).flatMap Piece.text := (flatMap_text_outline source).symm
  rw [slots_eq_collect]
  exact (splice_collect_slot? hs seconds).symm

/-- As many limits are added as there are slots. -/
theorem added_eq_length_slots (source : Text) (seconds : UInt64) :
    (Revision.of source seconds).added = (slots source).length := by
  rw [Revision.added_eq, slots, List.length_map, unlimited, List.length_filterMap_eq_countP]
  refine List.countP_congr fun v _ => ?_
  obtain ⟨m, u | e⟩ := v
  · simp [Visit.wantsLimit, Visit.unlimited?]
  · cases hl : e.isLimited source <;> simp [Visit.wantsLimit, Visit.unlimited?, hl]

/-- Where no limit is added, the text is the source. -/
theorem Revision.text_eq_self {source : Text} {seconds : UInt64}
    (h : (of source seconds).added = 0) : (of source seconds).text = source := by
  rw [added_eq_length_slots, List.length_eq_zero_iff] at h
  rw [text_eq_splice, h]
  exact Text.dropBytes_size_append [] source

/-- A revision inserts arguments and does nothing else. The slots of a source stand in order, each
in the tail of its test and on a boundary between characters. The new text is the source with the
word of each slot put there, and the counted tests are those with a slot. Neither the slots nor what
is reported depends on the seconds, and without a slot the text stays as it is. -/
theorem revision_inserts_at_slots (source : Text) :
    (slots source).Pairwise (fun s s' => s.offset < s'.offset) ∧
    List.Forall₂ (fun e s => e.bodyEnd ≤ s.offset ∧ s.offset ≤ e.closeParen ∧
      ∃ front, front <+: source ∧ Text.size front = s.offset) (unlimited source) (slots source) ∧
    (∀ seconds, (Revision.of source seconds).text = splice source seconds 0 (slots source) ∧
      (Revision.of source seconds).added = (slots source).length ∧
      ((Revision.of source seconds).added = 0 → (Revision.of source seconds).text = source)) ∧
    ∀ seconds seconds', (Revision.of source seconds).added = (Revision.of source seconds').added ∧
      (Revision.of source seconds).limited = (Revision.of source seconds').limited ∧
      (Revision.of source seconds).unterminated = (Revision.of source seconds').unterminated := by
  refine ⟨?_, ?_, fun seconds => ⟨text_eq_splice source seconds,
    added_eq_length_slots source seconds, fun h => ?_⟩, fun _ _ => ⟨rfl, rfl, rfl⟩⟩
  · rw [slots_eq_collect]
    exact pairwise_collect_slot? _ _
  · rw [slots, List.forall₂_map_right_iff, List.forall₂_same]
    exact fun e he => bounds_of_mem_unlimited he
  · rw [added_eq_length_slots, List.length_eq_zero_iff] at h
    rw [text_eq_splice, h]
    exact Text.dropBytes_size_append [] source

end TimeLimit
