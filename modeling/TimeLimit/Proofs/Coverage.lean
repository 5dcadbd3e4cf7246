import Mathlib.Logic.ExistsUnique
import TimeLimit.Proofs.Place

/-!
# Every header is counted once

Each visit of a scan is in one class: its test never closes, or the test has a limit, or it is given
one (`Visit.isLimited_iff`, `Visit.wantsLimit_iff`), and a revision counts each class
(`Visit.length_eq`). With the coverage of scans this says that a revision misses no header: one that
is not visited starts inside a test that is, or shares the brace of a visited one
(`no_header_missed_or_counted_twice`).
-/

namespace TimeLimit

/-- A piece of a call sets a limit when one of the marks stands in it. -/
theorem Limit.isSetIn_iff {t : Text} : isSetIn t = true ↔ ∃ w ∈ marks, w <:+: t := by
  rw [isSetIn, List.any_eq_true]
  refine exists_congr fun w => and_congr_right fun _ => Text.mentions_iff.trans ?_
  exact exists_congr fun a => exists_congr fun b => eq_comm

/-- A located test has a limit when a mark stands in its header or in its tail. -/
theorem Extent.isLimited_iff {source : Text} {e : Extent} :
    e.isLimited source = true ↔
      ∃ w ∈ Limit.marks, w <:+: e.headerText source ∨ w <:+: e.tailText source := by
  rw [isLimited, Bool.or_eq_true, Limit.isSetIn_iff, Limit.isSetIn_iff]
  constructor
  · rintro (⟨w, hw, h⟩ | ⟨w, hw, h⟩)
    · exact ⟨w, hw, .inl h⟩
    · exact ⟨w, hw, .inr h⟩
  · rintro ⟨w, hw, h | h⟩
    · exact .inl ⟨w, hw, h⟩
    · exact .inr ⟨w, hw, h⟩

namespace Visit

variable {source : Text} {m : Mark}

/-- A visit is reported when its test cannot be located. -/
theorem unterminated?_eq_some_iff {u : Unterminated} :
    (of source m).unterminated? = some u ↔ Extent.locate source m = .error u := by
  unfold unterminated? of
  cases Extent.locate source m <;> simp

theorem isLimited_iff :
    (of source m).isLimited source = true ↔ ∃ e, Extent.locate source m = .ok e ∧
      ∃ w ∈ Limit.marks, w <:+: e.headerText source ∨ w <:+: e.tailText source := by
  unfold isLimited of
  cases Extent.locate source m <;> simp [Extent.isLimited_iff]

theorem wantsLimit_iff :
    (of source m).wantsLimit source = true ↔ ∃ e, Extent.locate source m = .ok e ∧
      ∀ w ∈ Limit.marks, ¬ w <:+: e.headerText source ∧ ¬ w <:+: e.tailText source := by
  unfold wantsLimit of
  cases Extent.locate source m with
  | error u => simp
  | ok e => simp [← Bool.not_eq_true, Extent.isLimited_iff]

/-- Every visit is counted in one of the three classes. -/
theorem length_eq (source : Text) (vs : List Visit) :
    vs.length = vs.countP (wantsLimit source) + vs.countP (isLimited source) +
      (vs.filterMap unterminated?).length := by
  induction vs with
  | nil => rfl
  | cons v vs ih =>
    obtain ⟨m, u | e⟩ := v
    · rw [List.filterMap_cons_some (f := unterminated?) rfl]
      simp [wantsLimit, isLimited, ih, Nat.add_assoc]
    · rw [List.filterMap_cons_none (f := unterminated?) rfl]
      cases hl : e.isLimited source <;> simp [wantsLimit, isLimited, hl, ih] <;> omega

end Visit

/-- A revision misses no header and counts none twice. A header that starts outside every located
test of the scan has the brace of exactly one visited header; visited headers stand in order; and
each is in exactly one class: it is reported as unterminated, with its place, when its test cannot
be located; it counts as limited when the test is located and a mark stands in its header or its
tail; and it counts as added otherwise. -/
theorem no_header_missed_or_counted_twice (source : Text) (seconds : UInt64) :
    (∀ m : Mark, m.Fits source →
      (∀ v ∈ visits source, ∀ e, v.found = .ok e → ¬ (e.start ≤ m.start ∧ m.start < e.stop)) →
      ∃! v, v ∈ visits source ∧ v.mark.brace = m.brace) ∧
    (visits source).Pairwise (fun v w =>
      v.mark.start < w.mark.start ∧ v.mark.brace < w.mark.brace) ∧
    (Revision.of source seconds).headers = (visits source).length ∧
    (Revision.of source seconds).unterminated = (visits source).filterMap Visit.unterminated? ∧
    (Revision.of source seconds).limited = (visits source).countP (Visit.isLimited source) ∧
    (Revision.of source seconds).added = (visits source).countP (Visit.wantsLimit source) ∧
    ∀ v ∈ visits source,
      v.mark.Fits source ∧
      (∀ u, v.unterminated? = some u ↔ Extent.locate source v.mark = .error u) ∧
      (∀ u, v.unterminated? = some u → u.start = v.mark.start ∧
        u.line = 1 + Text.lineEnds (Text.takeBytes v.mark.start source)) ∧
      (v.isLimited source = true ↔ ∃ e, Extent.locate source v.mark = .ok e ∧
        ∃ w ∈ Limit.marks, w <:+: e.headerText source ∨ w <:+: e.tailText source) ∧
      (v.wantsLimit source = true ↔ ∃ e, Extent.locate source v.mark = .ok e ∧
        ∀ w ∈ Limit.marks, ¬ w <:+: e.headerText source ∧ ¬ w <:+: e.tailText source) := by
  have hadded := Revision.added_eq source seconds
  have hlimited := Revision.limited_eq source seconds
  have hunterminated := Revision.unterminated_eq source seconds
  refine ⟨fun m hm hout => ?_, pairwise_mark_visitsFrom source 0, ?_, hunterminated, hlimited,
    hadded, fun v hv => ?_⟩
  · rcases covered_of_fits hm (Nat.zero_le _) with ⟨v, hv, e, he, hin⟩ | ⟨v, hv, hbrace⟩
    · exact absurd hin (hout v hv e he)
    · exact ⟨v, ⟨hv, hbrace⟩, fun w hw => eq_of_brace_eq hw.1 hv (hw.2.trans hbrace.symm)⟩
  · rw [Visit.length_eq source, Revision.headers, hadded, hlimited, hunterminated]
  · obtain ⟨hof, hfits, -⟩ := visit_of_mem hv
    refine ⟨hfits, fun u => ?_, fun u hu => ?_, ?_, ?_⟩
    · rw [hof]
      exact Visit.unterminated?_eq_some_iff
    · rw [hof] at hu
      exact Extent.place_of_locate (Visit.unterminated?_eq_some_iff.1 hu)
    · rw [hof]
      exact Visit.isLimited_iff
    · rw [hof]
      exact Visit.wantsLimit_iff

end TimeLimit
