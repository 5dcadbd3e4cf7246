import TimeLimit.Proofs.Turn
import TimeLimit.Session

/-!
# The modes agree

Runs that only report say what a run in write mode would do (`modes_agree`). For a single file that
is so word by word (`treat_diff`, `treat_write`). For a whole run it is not: a run in write mode
reads a tree that it is changing, so a file may be reported as unchanged that the other modes report
as modified. But up to the first file with something to write all modes see the same tree, so
whether there is such a file is seen by all of them (`Request.exists_modified_iff`).
-/

namespace TimeLimit

/-! ## Single files -/

theorem Outcome.ofRevision_write (source : Text) (r : Revision) :
    ofRevision .write source r = ofRevision .check source r := by
  simp [ofRevision]

section
variable (sys : System) (path : Path) (seconds : UInt64) (t : Tree)

/-- A listing apart, checking a file and showing what would change give the same outcome. -/
theorem treat_diff : { (sys.treat .diff path seconds t).1 with
    listing := (sys.treat .check path seconds t).1.listing } =
      (sys.treat .check path seconds t).1 := by
  cases hread : t.read path with
  | error cause => rw [treat_of_unreadable hread, treat_of_unreadable hread]
  | ok source =>
    rw [treat_of_not_writes hread rfl, treat_of_not_writes hread rfl]
    rfl

/-- Writing a file gives the outcome of checking it, or it fails. -/
theorem treat_write : (sys.treat .write path seconds t).1 = (sys.treat .check path seconds t).1 ∨
    ∃ source cause, t.read path = .ok source ∧ (Revision.of source seconds).isChanged = true ∧
      sys.write path (Revision.of source seconds).text t = (.error (.unwritable path cause), t) ∧
      sys.treat .write path seconds t = (.ofFault (.unwritable path cause), t) := by
  obtain ⟨o, t', htreat, h⟩ := exists_treated sys .write path seconds t
  rw [htreat]
  cases h with
  | unreadable hread => exact .inl (by rw [treat_of_unreadable hread])
  | kept hread | replaced hread =>
    rw [treat_of_not_writes hread (rfl : Mode.check.writes = false)]
    exact .inl (Outcome.ofRevision_write ..)
  | shown _ _ hmode => cases hmode
  | unwritable hread hchanged _ hwrite => exact .inr ⟨_, _, hread, hchanged, hwrite, rfl⟩

/-- A mode that writes nothing gives the status that checking gives. -/
theorem treat_status {mode : Mode} (hmode : mode.writes = false) :
    (sys.treat mode path seconds t).1.status = (sys.treat .check path seconds t).1.status := by
  cases mode with
  | write => cases hmode
  | check => rfl
  | diff =>
    have hstatus := congrArg Outcome.status (treat_diff sys path seconds t)
    exact hstatus

/-- Checking a file never fails to write it. -/
theorem treat_check_ne_unwritable (path' : Path) (cause : Cause) :
    (sys.treat .check path seconds t).1 ≠ .ofFault (.unwritable path' cause) := by
  intro ho
  cases hread : t.read path with
  | error cause' =>
    rw [treat_of_unreadable hread] at ho
    exact FileFault.message_unreadable_ne _ _ _ _ (Option.some.inj (congrArg Outcome.detail ho))
  | ok source =>
    rw [treat_of_not_writes hread rfl] at ho
    have hstatus := congrArg Outcome.status ho
    simp only [Outcome.ofRevision, Outcome.ofFault] at hstatus
    split at hstatus <;> cases hstatus

end

/-! ## Turns -/

namespace Request

variable (r : Request) (sys : System) {mode : Mode}

/-- What is reported as modified by a mode that writes nothing is what a run in write mode replaces
or fails to replace. -/
theorem modified_eventAt_iff (hmode : mode.writes = false) (x : Candidate × Tree) :
    ({ r with mode }.eventAt sys x).status? = some .modified ↔
      ({ r with mode := .write }.eventAt sys x).status? = some .modified ∨
        ({ r with mode := .write }.eventAt sys x).ReportsFailedWrite := by
  obtain ⟨c, t⟩ := x
  cases ha : r.allot? c with
  | none =>
    have h (m : Mode) : { r with mode := m }.eventAt sys (c, t) =
        .file (c.path r.dir) none 0 .ofSkipped := by
      rw [eventAt, handle_of_allot?_none { r with mode := m } sys ha]
    rw [h, h]
    refine ⟨.inl, ?_⟩
    rintro (hm | hm)
    · exact hm
    · cases hm.status?
  | some allotted =>
    obtain ⟨fileClass, seconds⟩ := allotted
    have h (m : Mode) : { r with mode := m }.eventAt sys (c, t) =
        .file (c.path r.dir) (some fileClass) seconds
          (sys.treat m (c.path r.dir) seconds t).1 := by
      rw [eventAt, handle_of_allot?_some { r with mode := m } sys ha]
    rw [h, h, Event.status?, Event.status?, treat_status _ _ _ _ hmode]
    rcases treat_write sys (c.path r.dir) seconds t with
      hw | ⟨source, cause, hread, hchanged, -, hw⟩
    · rw [hw]
      refine ⟨.inl, ?_⟩
      rintro (hm | hm)
      · exact hm
      · obtain ⟨path, _, _, cause, he⟩ := hm
        exact absurd (Event.file.inj he).2.2.2 (treat_check_ne_unwritable _ _ _ _ path cause)
    · rw [hw, treat_of_not_writes hread rfl]
      exact ⟨fun _ => .inr ⟨_, _, _, cause, rfl⟩, fun _ => congrArg some (if_pos hchanged)⟩

/-- Some file is reported as modified by a mode that writes nothing exactly when a run in write mode
has one to replace. -/
theorem exists_modified_iff (hmode : mode.writes = false) (cs : List Candidate) (t : Tree) :
    (∃ x ∈ { r with mode }.turns sys cs t,
        ({ r with mode }.eventAt sys x).status? = some .modified) ↔
      ∃ x ∈ { r with mode := .write }.turns sys cs t,
        ({ r with mode := .write }.eventAt sys x).status? = some .modified ∨
          ({ r with mode := .write }.eventAt sys x).ReportsFailedWrite := by
  induction cs generalizing t with
  | nil => simp [turns]
  | cons c cs ih =>
    have hhead := r.modified_eventAt_iff sys hmode (c, t)
    rw [turns, turns]
    by_cases h : ({ r with mode }.eventAt sys (c, t)).status? = some .modified
    · exact ⟨fun _ => ⟨_, List.mem_cons_self, hhead.1 h⟩, fun _ => ⟨_, List.mem_cons_self, h⟩⟩
    · -- nothing is written at this turn, so the rest is treated on the same tree
      have h' := mt hhead.2 h
      rw [not_or] at h'
      rw [handle_tree _ _ fun _ => h, handle_tree _ _ fun _ => h'.1]
      simp only [List.mem_cons, exists_eq_or_imp, h, h'.1, h'.2, or_self, false_or, ih t]

/-- If no write fails, a mode that writes nothing counts a modified file exactly when a run in write
mode reports one. -/
theorem modified_tallyOf_iff (hmode : mode.writes = false) {cs : List Candidate} {t : Tree}
    (hwrites : ∀ e ∈ ({ r with mode := .write }.recordOf sys cs t).events,
      ¬ e.ReportsFailedWrite) :
    0 < ({ r with mode }.tallyOf sys cs t).modified ↔
      ∃ e ∈ ({ r with mode := .write }.recordOf sys cs t).events,
        e.status? = some .modified := by
  have hcount := count_tallyOf { r with mode } sys cs t .modified
  have hturns : (∃ e ∈ ({ r with mode := .write }.recordOf sys cs t).events,
      e.status? = some .modified ∨ e.ReportsFailedWrite) ↔ _ :=
    exists_event_iff { r with mode := .write } sys fun e he => by
      rcases he with he | he
      · simp [he]
      · simp [he.status?]
  have hmodified : (∃ e ∈ ({ r with mode }.recordOf sys cs t).events,
      e.status? = some .modified) ↔ _ :=
    exists_event_iff { r with mode } sys fun e he => by simp [he]
  rw [Tally.count] at hcount
  rw [hcount, List.count_pos_iff, List.mem_filterMap, hmodified, r.exists_modified_iff sys hmode,
    ← hturns]
  refine exists_congr fun e => and_congr_right fun he => ?_
  simp [hwrites e he]

end Request

/-! ## Exit codes -/

namespace Session

/-- A mode that writes nothing tells by its exit code whether it counts a modified file. -/
theorem exitCode_eq_iff {mode : Mode} (hmode : mode.writes = false) (n : Tally) :
    (exitCode mode n = 1 ↔ 0 < n.modified) ∧ (exitCode mode n = 0 ↔ ¬ 0 < n.modified) := by
  simp only [exitCode, hmode]
  split <;> simp_all

/-- The exit code of a request whose directory is listed is that of its tally. -/
theorem code_of_candidates {r : Request} {sys : System} {t : Tree} {cs : List Candidate}
    (h : r.candidates sys t = .ok cs) :
    (ofRequest r sys t).code = exitCode r.mode (r.tallyOf sys cs t) := by
  rw [ofRequest, Request.run_of_candidates h]
  rfl

/-- A request whose directory is not listed is refused with exit code 1, whatever the mode. -/
theorem code_of_no_candidates {r : Request} {sys : System} {t : Tree} {cause : Cause}
    (h : r.candidates sys t = .error cause) :
    ∃ refusal, (r.run sys t).result = .error refusal ∧ (ofRequest r sys t).code = 1 := by
  obtain ⟨refusal, hrun⟩ := Request.run_of_no_candidates h
  exact ⟨refusal, by rw [hrun], by rw [ofRequest, hrun]; rfl⟩

end Session

/-- **Checking, showing and writing agree.** For a single file, checking it and showing what would
change leave the tree as it is, and their outcomes differ in the listing at most; writing gives the
same outcome unless the file lacks limits and cannot be written. For a request whose directory is
there, if the system does not refuse to list it, a run in write mode succeeds with exit code 0,
whatever became of single files; and if no write fails in it, the other modes give exit code 1 when
it reports a file as modified and 0 when it reports none. Where the directory is missing or is none
or is not listed, every mode is refused with exit code 1. -/
theorem modes_agree (sys : System) :
    (∀ (path : Path) (seconds : UInt64) (t : Tree),
      (sys.treat .check path seconds t).2 = t ∧ (sys.treat .diff path seconds t).2 = t ∧
      { (sys.treat .diff path seconds t).1 with
        listing := (sys.treat .check path seconds t).1.listing } =
          (sys.treat .check path seconds t).1 ∧
      ((sys.treat .write path seconds t).1 = (sys.treat .check path seconds t).1 ∨
        ∃ source cause, t.read path = .ok source ∧
          (Revision.of source seconds).isChanged = true ∧
          sys.write path (Revision.of source seconds).text t =
            (.error (.unwritable path cause), t) ∧
          sys.treat .write path seconds t = (.ofFault (.unwritable path cause), t))) ∧
    (∀ (r : Request) (t : Tree),
      (t.entry r.dir = .ok .dir ∧ sys.closed r.dir = none →
        ∃ n, ({ r with mode := .write }.run sys t).result = .ok n ∧
        (Session.ofRequest { r with mode := .write } sys t).code = 0 ∧
        ((∀ e ∈ ({ r with mode := .write }.run sys t).events, ¬ e.ReportsFailedWrite) →
          ∀ mode ≠ Mode.write,
          ((Session.ofRequest { r with mode } sys t).code = 1 ↔
            ∃ e ∈ ({ r with mode := .write }.run sys t).events, e.status? = some .modified) ∧
          ((Session.ofRequest { r with mode } sys t).code = 0 ↔
            ∀ e ∈ ({ r with mode := .write }.run sys t).events, e.status? ≠ some .modified))) ∧
      (¬ (t.entry r.dir = .ok .dir ∧ sys.closed r.dir = none) → ∀ mode,
        ∃ refusal, ({ r with mode }.run sys t).result = .error refusal ∧
          (Session.ofRequest { r with mode } sys t).code = 1)) := by
  refine ⟨fun path seconds t => ⟨treat_tree rfl, treat_tree rfl, treat_diff sys path seconds t,
    treat_write sys path seconds t⟩, fun r t => ⟨fun hdir => ?_, fun hdir mode => ?_⟩⟩
  · obtain ⟨cs, hcs⟩ := Candidate.exists_listing_iff.2 hdir
    have hcandidates (m : Mode) : { r with mode := m }.candidates sys t = .ok cs := hcs
    rw [Request.run_of_candidates (hcandidates .write)]
    refine ⟨_, rfl, Session.code_of_candidates (hcandidates .write), fun hwrites mode hmode => ?_⟩
    have hmode := Mode.writes_of_ne hmode
    obtain ⟨hone, hzero⟩ := Session.exitCode_eq_iff hmode ({ r with mode }.tallyOf sys cs t)
    rw [Session.code_of_candidates (hcandidates mode), hone, hzero,
      r.modified_tallyOf_iff sys hmode hwrites]
    simp only [not_exists, not_and, ne_eq, and_self]
  · cases hcs : { r with mode := mode }.candidates sys t with
    | ok cs => exact absurd (Candidate.exists_listing_iff.1 ⟨cs, hcs⟩) hdir
    | error cause => exact Session.code_of_no_candidates hcs

end TimeLimit
