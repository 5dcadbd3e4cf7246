import TimeLimit.Proofs.Coverage
import TimeLimit.Proofs.Turn

/-!
# The reason for which a file is left as it is

A file to which nothing is added is said to hold no tests, or to hold none that lacks a limit. The
second is said exactly when some header is visited and each visited test that closes has a limit
(`covered_reason_iff`). A header whose test never closes is not asked for a limit, so the reason
alone does not say that every test has one: for that the outcome must count no unterminated header
besides. Without it the reason is given of a file that holds a single test, which never closes and
has no limit (`covered_reason_of_open_test`).
-/

namespace TimeLimit

namespace Revision

variable (source : Text) (seconds : UInt64)

/-- Nothing is added exactly when each visited test that closes has a limit. -/
theorem isChanged_eq_false_iff : (of source seconds).isChanged = false ↔
    ∀ v ∈ visits source, ∀ e, v.found = .ok e → e.isLimited source = true := by
  rw [isChanged, decide_eq_false_iff_not, Nat.not_lt, Nat.le_zero, added_eq, List.countP_eq_zero]
  refine forall₂_congr fun v _ => ?_
  obtain ⟨m, u | e⟩ := v
  · exact iff_of_true nofun nofun
  · simp [Visit.wantsLimit]

/-- Each visited header is counted once. -/
theorem headers_eq_length_visits : (of source seconds).headers = (visits source).length := by
  rw [Visit.length_eq source, headers, added_eq, limited_eq, unterminated_eq]

/-- No header is unterminated exactly when each visited test closes. -/
theorem unterminated_eq_nil_iff : (of source seconds).unterminated = [] ↔
    ∀ v ∈ visits source, ∃ e, v.found = .ok e := by
  rw [unterminated_eq, List.filterMap_eq_nil_iff]
  refine forall₂_congr fun v _ => ?_
  obtain ⟨m, u | e⟩ := v
  · exact iff_of_false nofun nofun
  · exact iff_of_true rfl ⟨e, rfl⟩

end Revision

namespace Outcome

/-- A file is left as it is for the reason that all its tests have a limit. -/
def SaysCovered (o : Outcome) : Prop :=
  o.status = .unchanged ∧ o.detail = some "all async tests already have timeouts".toList

instance (o : Outcome) : Decidable o.SaysCovered :=
  inferInstanceAs (Decidable (_ ∧ _))

/-- A file that could not be read or written is not left for this reason. -/
theorem not_saysCovered_ofFault (f : FileFault) : ¬ (ofFault f).SaysCovered :=
  fun h => nomatch h.1

/-- A revision gives this reason when it added nothing, although it looked at some header. -/
theorem saysCovered_ofRevision_iff {mode : Mode} {source : Text} {r : Revision} :
    (ofRevision mode source r).SaysCovered ↔ r.isChanged = false ∧ r.headers ≠ 0 := by
  rw [SaysCovered, ofRevision]
  cases r.isChanged with
  | true => simp
  | false =>
    by_cases hheaders : r.headers = 0
    · simp [unchangedReason, hheaders]
    · simp [unchangedReason, hheaders]

end Outcome

/-- A treatment gives this reason when its revision does. -/
theorem Treated.saysCovered_iff {sys : System} {mode : Mode} {path : Path} {seconds : UInt64}
    {t t' : Tree} {o : Outcome} (h : Treated sys mode path seconds t o t') :
    o.SaysCovered ↔ ∃ source, t.read path = .ok source ∧
      (Revision.of source seconds).isChanged = false ∧ (Revision.of source seconds).headers ≠ 0 ∧
      o = .ofRevision mode source (.of source seconds) := by
  constructor
  · intro hsays
    cases h with
    | unreadable | unwritable => exact absurd hsays (Outcome.not_saysCovered_ofFault _)
    | kept hread | shown hread | replaced hread =>
      obtain ⟨hchanged, hheaders⟩ := Outcome.saysCovered_ofRevision_iff.1 hsays
      exact ⟨_, hread, hchanged, hheaders, rfl⟩
  · rintro ⟨source, -, hchanged, hheaders, rfl⟩
    exact Outcome.saysCovered_ofRevision_iff.2 ⟨hchanged, hheaders⟩

/-- **What the reason says of the tests of a file.** A file is left as it is for the reason that all
its tests have a limit exactly when it can be read, some header in it is visited, and each visited
test that closes has a limit. Then every visited header is counted as limited or as unterminated, so
that all visited tests close and have a limit exactly when none is counted as unterminated. -/
theorem covered_reason_iff (sys : System) (mode : Mode) (path : Path) (seconds : UInt64)
    (t : Tree) :
    let o := (sys.treat mode path seconds t).1
    o.SaysCovered ↔ ∃ source, t.read path = .ok source ∧ visits source ≠ [] ∧
      (∀ v ∈ visits source, ∀ e, v.found = .ok e → e.isLimited source = true) ∧
      o.limited + o.unterminated = (visits source).length ∧
      (o.unterminated = 0 ↔
        ∀ v ∈ visits source, ∃ e, v.found = .ok e ∧ e.isLimited source = true) := by
  intro o
  have htreated : Treated sys mode path seconds t o _ := treated_treat sys mode path seconds t
  rw [htreated.saysCovered_iff]
  refine exists_congr fun source => and_congr_right fun hread => ?_
  have hheaders := Revision.headers_eq_length_visits source seconds
  rw [Revision.isChanged_eq_false_iff, hheaders, ne_eq, List.length_eq_zero_iff]
  constructor
  · rintro ⟨hlimited, hvisits, ho⟩
    have hadded : (Revision.of source seconds).added = 0 := by
      have hchanged := (Revision.isChanged_eq_false_iff source seconds).2 hlimited
      simpa [Revision.isChanged] using hchanged
    refine ⟨hvisits, hlimited, ?_, ?_⟩
    · rw [ho, ← hheaders, Revision.headers, hadded, Nat.zero_add]
      rfl
    · rw [ho]
      show (Revision.of source seconds).unterminated.length = 0 ↔ _
      rw [List.length_eq_zero_iff, Revision.unterminated_eq_nil_iff]
      refine forall₂_congr fun v hv => exists_congr fun e => ?_
      exact ⟨fun he => ⟨he, hlimited v hv e he⟩, And.left⟩
  · rintro ⟨hvisits, hlimited, -, -⟩
    refine ⟨hlimited, hvisits, ?_⟩
    have hchanged := (Revision.isChanged_eq_false_iff source seconds).2 hlimited
    exact congrArg Prod.fst (treat_of_kept hread hchanged)

/-- A file with a test that never closes. -/
def openFile : Tree where
  entries := [([.letter 0], .file (.text "test('x', () async \x7b\n".toList))]
  nodup := by decide

/-- The reason does not say that every visited test has a limit: it is given of a file whose only
test never closes and has none. -/
theorem covered_reason_of_open_test :
    ¬ ∀ (sys : System) (mode : Mode) (path : Path) (seconds : UInt64) (t : Tree) (source : Text),
      t.read path = .ok source → (sys.treat mode path seconds t).1.SaysCovered →
      visits source ≠ [] ∧
      (∀ v ∈ visits source, ∃ e, v.found = .ok e ∧ e.isLimited source = true) ∧
      (sys.treat mode path seconds t).1.limited = (visits source).length ∧
      (sys.treat mode path seconds t).1.unterminated = 0 := by
  intro h
  have hsays : (System.plain.treat .write [0x61] 5 openFile).1.SaysCovered := by decide +kernel
  have hopen : (System.plain.treat .write [0x61] 5 openFile).1.unterminated = 1 := by
    decide +kernel
  obtain ⟨-, -, -, hclosed⟩ := h .plain .write [0x61] 5 openFile _ rfl hsays
  rw [hopen] at hclosed
  cases hclosed

end TimeLimit
