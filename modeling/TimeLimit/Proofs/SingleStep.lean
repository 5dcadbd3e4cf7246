import TimeLimit.Proofs.OneTest
import TimeLimit.Proofs.Stable

/-!
# One test at a time

A single step gives a limit to the first test of a source that lacks one, and nothing else
(`limitFirst?`). It looks at the source afresh each time, and so at texts in which some tests have
got their limit already. Steps lead where the revision leads in one pass
(`revision_eq_single_steps`): a step takes one from the tests that lack a limit and leaves the
revision what it was (`revision_of_limitFirst?`), and there is a step as long as such a test is left
(`limitFirst?_eq_none_iff`).
-/

namespace TimeLimit

/-- A source in which the first located test that lacks a limit has got one; there is no such source
when no test lacks one. -/
def limitFirst? (seconds : UInt64) (source : Text) : Option Text :=
  (unlimited source).head?.map fun e =>
    Text.overwrite e.bodyEnd e.closeParen (Tail.withLimit seconds (e.tailText source)) source

/-- The source that so many steps lead to, if there are that many. -/
def limitTimes? (seconds : UInt64) : Nat → Text → Option Text
  | 0, source => some source
  | k + 1, source => (limitTimes? seconds k source).bind (limitFirst? seconds)

/-! ## One step -/

/-- The pieces behind a step are the pieces before it with a limit for one test that lacked it. -/
theorem outline_of_limitFirst? {seconds : UInt64} {source t : Text}
    (h : limitFirst? seconds source = some t) :
    ∃ ys x zs, x.wantsLimit = true ∧ outline source = ys ++ x :: zs ∧
      outline t = ys ++ x.withLimit seconds :: zs := by
  obtain ⟨e, he, rfl⟩ := Option.map_eq_some_iff.1 h
  obtain ⟨ys, c, zs, houtline, hl, rfl, htail⟩ :=
    exists_piece_of_unlimited (List.mem_of_head? he)
  have hlimit : (Piece.test c).withLimit seconds =
      .test { c with tail := Tail.withLimit seconds c.tail } := if_neg (by simp [hl])
  have hgains : List.Forall₂ Piece.Gains (outline source)
      (ys ++ (Piece.test c).withLimit seconds :: zs) := by
    rw [houtline]
    exact List.rel_append (R := Piece.Gains)
      (List.forall₂_same.2 fun _ _ => .inl rfl)
      (.cons (Piece.gains_withLimit _ seconds) (List.forall₂_same.2 fun _ _ => .inl rfl))
  refine ⟨ys, .test c, zs, by simp [Piece.wantsLimit, hl], houtline, ?_⟩
  rw [htail, overwrite_tail houtline, ← hlimit]
  exact ((outlined_outline source).gain hgains).outline_eq

/-- There is no step exactly when no test lacks a limit. -/
theorem limitFirst?_eq_none_iff {seconds : UInt64} {source : Text} :
    limitFirst? seconds source = none ↔ (Revision.of source seconds).added = 0 := by
  rw [added_eq_length_slots, slots, List.length_map, List.length_eq_zero_iff, limitFirst?,
    Option.map_eq_none_iff, List.head?_eq_none_iff]

/-- A step leaves the text of the revision and the number of its headers, and takes one from the
tests that lack a limit. -/
theorem revision_of_limitFirst? {seconds : UInt64} {source t : Text}
    (h : limitFirst? seconds source = some t) :
    (Revision.of t seconds).text = (Revision.of source seconds).text ∧
      (Revision.of t seconds).headers = (Revision.of source seconds).headers ∧
      (Revision.of t seconds).added + 1 = (Revision.of source seconds).added := by
  obtain ⟨ys, x, zs, hwants, hsource, ht⟩ := outline_of_limitFirst? h
  have hlimited : (x.withLimit seconds).isLimited = true := by
    rw [Piece.isLimited_withLimit, hwants, Bool.true_or]
  have hclasses : x.isLimited = false ∧ x.isStray = false ∧
      (x.withLimit seconds).isStray = false := by
    cases x with
    | plain t => cases hwants
    | stray hd u => cases hwants
    | test c =>
      refine ⟨by simpa [Piece.wantsLimit, Piece.isLimited] using hwants, rfl, ?_⟩
      rw [Piece.withLimit]
      split <;> rfl
  obtain ⟨hunlimited, hstray, hstray'⟩ := hclasses
  have hwants' := Piece.wantsLimit_withLimit x seconds
  refine ⟨?_, ?_, ?_⟩
  · simp only [Revision.of, hsource, ht, List.flatMap_append, List.flatMap_cons,
      Piece.withLimit_eq_self hwants']
  · rw [Revision.headers, Revision.headers, Revision.length_unterminated,
      Revision.length_unterminated]
    simp [Revision.of, hsource, ht, hwants, hwants', hlimited, hunlimited, hstray, hstray']
    omega
  · simp [Revision.of, hsource, ht, hwants, hwants']
    omega

/-! ## All steps -/

/-- What steps lead to has the same revision, with one limit less to add for each step. -/
theorem revision_of_limitTimes? {seconds : UInt64} {source t : Text} {k : Nat}
    (h : limitTimes? seconds k source = some t) :
    (Revision.of t seconds).text = (Revision.of source seconds).text ∧
      (Revision.of t seconds).headers = (Revision.of source seconds).headers ∧
      (Revision.of t seconds).added + k = (Revision.of source seconds).added := by
  induction k generalizing t with
  | zero =>
    cases h
    exact ⟨rfl, rfl, rfl⟩
  | succ k ih =>
    obtain ⟨u, hu, ht⟩ := Option.bind_eq_some_iff.1 h
    obtain ⟨htext, hheaders, hadded⟩ := ih hu
    obtain ⟨htext', hheaders', hadded'⟩ := revision_of_limitFirst? ht
    exact ⟨htext'.trans htext, hheaders'.trans hheaders, by omega⟩

/-- There are as many steps as limits to add. -/
theorem isSome_limitTimes?_iff (seconds : UInt64) (source : Text) (k : Nat) :
    (limitTimes? seconds k source).isSome = true ↔ k ≤ (Revision.of source seconds).added := by
  induction k with
  | zero => simp [limitTimes?]
  | succ k ih =>
    rw [limitTimes?]
    cases hu : limitTimes? seconds k source with
    | none =>
      rw [hu] at ih
      simp only [Option.isSome_none, Bool.false_eq_true, false_iff] at ih
      simp only [Option.bind_none, Option.isSome_none, Bool.false_eq_true, false_iff]
      omega
    | some u =>
      obtain ⟨-, -, hadded⟩ := revision_of_limitTimes? hu
      rw [Option.bind_some, Option.isSome_iff_ne_none, ne_eq, limitFirst?_eq_none_iff]
      omega

/-- **One pass does what single steps do.** Steps from a source go on exactly as often as the
revision adds a limit, and the text at which they stop is that of the revision. Behind any number of
steps, the revision of the text that was reached is still that text, and it sees as many headers. -/
theorem revision_eq_single_steps (source : Text) (seconds : UInt64) :
    let r := Revision.of source seconds
    (∀ k, (limitTimes? seconds k source).isSome = true ↔ k ≤ r.added) ∧
      limitTimes? seconds r.added source = some r.text ∧ limitFirst? seconds r.text = none ∧
      ∀ k t, limitTimes? seconds k source = some t →
        (Revision.of t seconds).text = r.text ∧ (Revision.of t seconds).headers = r.headers := by
  intro r
  have hsteps := isSome_limitTimes?_iff seconds source
  obtain ⟨t, ht⟩ := Option.isSome_iff_exists.1 ((hsteps r.added).2 (Nat.le_refl _))
  obtain ⟨htext, -, hadded⟩ := revision_of_limitTimes? ht
  have hzero : (Revision.of t seconds).added = 0 := Nat.add_eq_right.1 hadded
  have hstop : t = r.text := (Revision.text_eq_self hzero).symm.trans htext
  refine ⟨hsteps, by rw [ht, hstop], ?_, fun k u hu => ?_⟩
  · rw [← hstop, limitFirst?_eq_none_iff, hzero]
  · obtain ⟨htext', hheaders', -⟩ := revision_of_limitTimes? hu
    exact ⟨htext', hheaders'⟩

end TimeLimit
