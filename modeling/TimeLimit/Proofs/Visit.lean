import TimeLimit.Limit
import TimeLimit.Proofs.Opening

/-!
# The headers that a scan visits

A scan of a source looks for a header from an offset on, locates the test that the header opens, and
goes on where that test ends, or directly behind the header's brace when the test never closes.
`visits` lists what it comes to, in bytes. Each visited header is found at or behind the end of the
visit before it (`pairwise_visitsFrom`), so the scan ends and visits stand in the order of the
source. Nothing is missed: a header that the scan does not visit starts inside a located test, or
inside a visited header whose brace it shares (`covered_of_fits`).
-/

namespace TimeLimit

/-- A header that a scan comes to: where it stands, and where its test stands or why that never
closes. -/
structure Visit where
  mark : Mark
  found : Except Unterminated Extent

namespace Visit

/-- The visit of the header at a mark. -/
def of (source : Text) (m : Mark) : Visit :=
  ⟨m, Extent.locate source m⟩

/-- Where the scan goes on: at the end of the test, or behind the brace of a header whose test never
closes. -/
def next (v : Visit) : Nat :=
  match v.found with
  | .error _ => v.mark.brace + 1
  | .ok e => e.stop

/-- The report on a header whose test never closes. -/
def unterminated? (v : Visit) : Option Unterminated :=
  match v.found with
  | .error u => some u
  | .ok _ => none

/-- The visit comes to a test that has a time limit. -/
def isLimited (source : Text) (v : Visit) : Bool :=
  match v.found with
  | .error _ => false
  | .ok e => e.isLimited source

/-- The visit comes to a test that lacks a time limit. -/
def wantsLimit (source : Text) (v : Visit) : Bool :=
  match v.found with
  | .error _ => false
  | .ok e => !e.isLimited source

end Visit

/-! ## Located tests -/

namespace Extent

/-- A located test starts at its mark, and its parts stand behind each other. -/
theorem bounds_of_locate {source : Text} {m : Mark} {e : Extent}
    (h : locate source m = .ok e) :
    e.start = m.start ∧ e.brace = m.brace ∧ e.brace < e.bodyEnd ∧ e.bodyEnd < e.stop := by
  unfold locate locateFrom at h
  split at h
  · cases h
  · next c hc =>
    cases h
    have hne : Text.dropBytes (m.brace + 1) source ≠ [] := by
      intro hnil
      rw [hnil] at hc
      cases hc
    have := Text.le_size_takeBytes hne
    refine ⟨rfl, rfl, ?_, Nat.lt_succ_of_le (Nat.le_add_right _ _)⟩
    show m.brace < Text.size (Text.takeBytes (m.brace + 1) source) + Text.size c.inside + 1
    omega

/-- A located test ends in the source. -/
theorem stop_le_size_of_locate {source : Text} {m : Mark} {e : Extent}
    (h : locate source m = .ok e) : e.stop ≤ Text.size source := by
  unfold locate locateFrom at h
  split at h
  · cases h
  · next c hc =>
    cases h
    have hcut := congrArg Text.size (Text.takeBytes_append_dropBytes (m.brace + 1) source)
    rw [(Closing.of_eq_ok_iff.1 hc).1, Closing.text] at hcut
    have : ('}').utf8Size = 1 ∧ (')').utf8Size = 1 := ⟨rfl, rfl⟩
    simp only [Text.size_append, Text.size_cons] at hcut ⊢
    omega

/-- A header whose test never closes is reported with its own place. -/
theorem place_of_locate {source : Text} {m : Mark} {u : Unterminated}
    (h : locate source m = .error u) :
    u.start = m.start ∧ u.line = 1 + Text.lineEnds (Text.takeBytes m.start source) := by
  unfold locate locateFrom at h
  split at h
  · cases h
    exact ⟨rfl, rfl⟩
  · cases h

end Extent

namespace Visit

/-- A scan goes on behind the brace of the header it has come to. -/
theorem brace_lt_next (source : Text) (m : Mark) : m.brace < (of source m).next := by
  unfold next of
  cases h : Extent.locate source m with
  | error u => exact Nat.lt_succ_self _
  | ok e =>
    obtain ⟨-, hbrace, hbody, hstop⟩ := Extent.bounds_of_locate h
    show m.brace < e.stop
    omega

/-- Each visit leaves less of the source to scan. -/
theorem size_sub_next_lt {source : Text} {offset : Nat} {m : Mark}
    (h : Mark.find? source offset = some m) :
    Text.size source - (of source m).next < Text.size source - offset := by
  have hle := Mark.le_start_of_find? h
  have hfits := Mark.fits_of_find? h
  have := hfits.start_lt_brace
  have := hfits.brace_lt_size
  have := brace_lt_next source m
  omega

end Visit

/-- The visits of a scan that starts at an offset. -/
def visitsFrom (source : Text) (offset : Nat) : List Visit :=
  match _h : Mark.find? source offset with
  | none => []
  | some m => .of source m :: visitsFrom source (Visit.of source m).next
termination_by Text.size source - offset
decreasing_by exact Visit.size_sub_next_lt ‹_›

/-- The visits of a scan of a whole source. -/
def visits (source : Text) : List Visit :=
  visitsFrom source 0

/-! ## The order of visits -/

theorem visitsFrom_of_find?_none {source : Text} {offset : Nat}
    (h : Mark.find? source offset = none) : visitsFrom source offset = [] := by
  rw [visitsFrom]
  split
  · rfl
  · next m hm =>
    rw [h] at hm
    cases hm

theorem visitsFrom_of_find? {source : Text} {offset : Nat} {m : Mark}
    (h : Mark.find? source offset = some m) :
    visitsFrom source offset = .of source m :: visitsFrom source (Visit.of source m).next := by
  rw [visitsFrom]
  split
  · next hn =>
    rw [h] at hn
    cases hn
  · next k hk =>
    rw [h] at hk
    cases hk
    rfl

/-- Every visit is that of a header at or behind the offset where the scan starts. -/
theorem visit_of_mem {source : Text} {offset : Nat} {v : Visit}
    (hv : v ∈ visitsFrom source offset) :
    v = .of source v.mark ∧ v.mark.Fits source ∧ offset ≤ v.mark.start := by
  fun_induction visitsFrom source offset with
  | case1 offset h => cases hv
  | case2 offset m h ih =>
    have hle := Mark.le_start_of_find? h
    have hfits := Mark.fits_of_find? h
    cases hv with
    | head => exact ⟨rfl, hfits, hle⟩
    | tail _ hv =>
      obtain ⟨hof, hfits', hle'⟩ := ih hv
      have := hfits.start_lt_brace
      have := Visit.brace_lt_next source m
      exact ⟨hof, hfits', by omega⟩

/-- A visit ends before the next one starts. -/
theorem pairwise_visitsFrom (source : Text) (offset : Nat) :
    (visitsFrom source offset).Pairwise fun v w => v.next ≤ w.mark.start := by
  fun_induction visitsFrom source offset with
  | case1 offset h => exact .nil
  | case2 offset m h ih => exact .cons (fun w hw => (visit_of_mem hw).2.2) ih

/-- Starts and braces of visited headers increase. -/
theorem pairwise_mark_visitsFrom (source : Text) (offset : Nat) :
    (visitsFrom source offset).Pairwise fun v w =>
      v.mark.start < w.mark.start ∧ v.mark.brace < w.mark.brace := by
  refine (pairwise_visitsFrom source offset).imp_of_mem fun {v w} hv hw hle => ?_
  obtain ⟨hof, hfits, -⟩ := visit_of_mem hv
  have := hfits.start_lt_brace
  have := (visit_of_mem hw).2.1.start_lt_brace
  have := Visit.brace_lt_next source v.mark
  rw [← hof] at this
  omega

/-- Two visits of one scan with the same brace are one visit. -/
theorem eq_of_brace_eq {source : Text} {offset : Nat} {v w : Visit}
    (hv : v ∈ visitsFrom source offset) (hw : w ∈ visitsFrom source offset)
    (h : v.mark.brace = w.mark.brace) : v = w := by
  have hpair := pairwise_mark_visitsFrom source offset
  generalize visitsFrom source offset = vs at hv hw hpair
  induction hpair with
  | nil => cases hv
  | cons hlt _ ih =>
    cases hv with
    | head =>
      cases hw with
      | head => rfl
      | tail _ hw => exact absurd h (Nat.ne_of_lt (hlt w hw).2)
    | tail _ hv =>
      cases hw with
      | head => exact absurd h.symm (Nat.ne_of_lt (hlt v hv).2)
      | tail _ hw => exact ih hv hw

/-! ## Coverage -/

/-- A header at or behind the offset where a scan starts is not missed: it starts inside a located
test, or it has the brace of a visited header. -/
theorem covered_of_fits {source : Text} {offset : Nat} {m : Mark} (hm : m.Fits source)
    (hle : offset ≤ m.start) :
    (∃ v ∈ visitsFrom source offset, ∃ e, v.found = .ok e ∧ e.start ≤ m.start ∧ m.start < e.stop) ∨
      ∃ v ∈ visitsFrom source offset, v.mark.brace = m.brace := by
  fun_induction visitsFrom source offset with
  | case1 offset h =>
    obtain ⟨k, hk, -⟩ := Mark.exists_find?_of_fits hm hle
    rw [h] at hk
    cases hk
  | case2 offset k h ih =>
    obtain ⟨k', hk', hstart⟩ := Mark.exists_find?_of_fits hm hle
    rw [h] at hk'
    cases hk'
    by_cases hbrace : m.start ≤ k.brace
    · exact .inr ⟨_, .head _, (Mark.fits_of_find? h).brace_eq hm hstart hbrace |>.symm⟩
    by_cases hnext : (Visit.of source k).next ≤ m.start
    · -- the header stands behind the visit, where the scan goes on
      rcases ih hnext with ⟨v, hv, hin⟩ | ⟨v, hv, heq⟩
      · exact .inl ⟨v, .tail _ hv, hin⟩
      · exact .inr ⟨v, .tail _ hv, heq⟩
    · -- it stands behind the brace and before the end of the visit, which is a located test
      cases hf : Extent.locate source k with
      | error u =>
        refine absurd ?_ hnext
        simp only [Visit.next, Visit.of, hf]
        omega
      | ok e =>
        simp only [Visit.next, Visit.of, hf] at hnext
        have := (Extent.bounds_of_locate hf).1
        exact .inl ⟨_, .head _, e, hf, by omega, by omega⟩

end TimeLimit
