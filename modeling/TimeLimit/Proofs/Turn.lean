import TimeLimit.Proofs.Search
import TimeLimit.Proofs.Write

/-!
# The turns of a run

A run gives each candidate its turn, in order, on the tree that the turns before left behind
(`Request.turns`). What happens at a turn is said by `Treated`, one case for each way a file can be
treated, and `treated_treat` opens every treatment into these cases. One of them is that the file
cannot be replaced, whichever step of the replacement fails, and that may happen at any turn. The
events of a run are those of its turns, and its tally counts them by their status
(`Request.count_tallyOf`).
-/

namespace TimeLimit

/-! ## Single files -/

theorem Mode.writes_of_ne {mode : Mode} (h : mode ≠ .write) : mode.writes = false := by
  cases mode with
  | write => exact absurd rfl h
  | check | diff => rfl

/-- The ways a file can be treated: its outcome, and the tree behind it. -/
inductive Treated (sys : System) (mode : Mode) (path : Path) (seconds : UInt64) (t : Tree) :
    Outcome → Tree → Prop
  /-- The file cannot be read. -/
  | unreadable {cause : Cause} (hread : t.read path = .error cause) :
      Treated sys mode path seconds t (.ofFault (.unreadable path cause)) t
  /-- No test lacks a limit. -/
  | kept {source : Text} (hread : t.read path = .ok source)
      (hchanged : (Revision.of source seconds).isChanged = false) :
      Treated sys mode path seconds t (.ofRevision mode source (.of source seconds)) t
  /-- A test lacks a limit, and that is only reported. -/
  | shown {source : Text} (hread : t.read path = .ok source)
      (hchanged : (Revision.of source seconds).isChanged = true) (hmode : mode.writes = false) :
      Treated sys mode path seconds t (.ofRevision mode source (.of source seconds)) t
  /-- A step of the replacement fails, and the tree is as it was. -/
  | unwritable {source : Text} {cause : Cause} (hread : t.read path = .ok source)
      (hchanged : (Revision.of source seconds).isChanged = true) (hmode : mode.writes = true)
      (hwrite : sys.write path (Revision.of source seconds).text t =
        (.error (.unwritable path cause), t)) :
      Treated sys mode path seconds t (.ofFault (.unwritable path cause)) t
  /-- The revised text takes the place of the file. -/
  | replaced {source : Text} {loc : Location} (hread : t.read path = .ok source)
      (hchanged : (Revision.of source seconds).isChanged = true) (hmode : mode.writes = true)
      (hplace : t.place path = .ok loc) :
      Treated sys mode path seconds t (.ofRevision mode source (.of source seconds))
        (t.put loc (.file (.text (Revision.of source seconds).text)))

section
variable {sys : System} {mode : Mode} {path : Path} {seconds : UInt64} {t : Tree} {source : Text}
  {cause : Cause}

theorem treat_of_unreadable (hread : t.read path = .error cause) :
    sys.treat mode path seconds t = (.ofFault (.unreadable path cause), t) := by
  simp [System.treat_eq, judge, hread]

theorem treat_of_kept (hread : t.read path = .ok source)
    (hchanged : (Revision.of source seconds).isChanged = false) :
    sys.treat mode path seconds t = (.ofRevision mode source (.of source seconds), t) := by
  simp [System.treat_eq, judge, hread, hchanged]

theorem treat_of_not_writes (hread : t.read path = .ok source) (hmode : mode.writes = false) :
    sys.treat mode path seconds t = (.ofRevision mode source (.of source seconds), t) := by
  simp [System.treat_eq, judge, hread, hmode]

theorem treat_of_writes (hread : t.read path = .ok source)
    (hchanged : (Revision.of source seconds).isChanged = true) (hmode : mode.writes = true) :
    sys.treat mode path seconds t =
      match sys.write path (Revision.of source seconds).text t with
      | (.error fault, t) => (.ofFault fault, t)
      | (.ok (), t) => (.ofRevision mode source (.of source seconds), t) := by
  have hjudge : judge mode path seconds (.ok source) =
      (.ofRevision mode source (.of source seconds), some (Revision.of source seconds).text) := by
    simp [judge, hchanged, hmode]
  rcases hwrite : sys.write path (Revision.of source seconds).text t with ⟨_ | _, t'⟩
  · simp [System.treat_eq, hread, hjudge, hwrite]
  · simp [System.treat_eq, hread, hjudge, hwrite]

variable (sys mode path seconds t)

/-- A treatment goes one of these ways. -/
theorem treated_treat : Treated sys mode path seconds t (sys.treat mode path seconds t).1
    (sys.treat mode path seconds t).2 := by
  cases hread : t.read path with
  | error cause =>
    rw [treat_of_unreadable hread]
    exact .unreadable hread
  | ok source =>
    cases hchanged : (Revision.of source seconds).isChanged with
    | false =>
      rw [treat_of_kept hread hchanged]
      exact .kept hread hchanged
    | true =>
      cases hmode : mode.writes with
      | false =>
        rw [treat_of_not_writes hread hmode]
        exact .shown hread hchanged hmode
      | true =>
        rw [treat_of_writes hread hchanged hmode]
        rcases sys.write_cases path (Revision.of source seconds).text t with
          ⟨cause, hwrite⟩ | ⟨loc, hplace, hwrite⟩
        · rw [hwrite]
          exact .unwritable hread hchanged hmode hwrite
        · rw [hwrite]
          exact .replaced hread hchanged hmode hplace

theorem exists_treated : ∃ o t', sys.treat mode path seconds t = (o, t') ∧
    Treated sys mode path seconds t o t' :=
  ⟨_, _, rfl, treated_treat sys mode path seconds t⟩

variable {sys mode path seconds t}

/-- Only a mode that writes changes the tree. -/
theorem treat_tree (hmode : mode.writes = false) : (sys.treat mode path seconds t).2 = t := by
  obtain ⟨o, t', htreat, h⟩ := exists_treated sys mode path seconds t
  rw [htreat]
  cases h with
  | unreadable | kept | shown | unwritable => rfl
  | replaced _ _ hmode' _ => rw [hmode] at hmode'; cases hmode'

end

/-! ## Events and tallies -/

/-- The status of the file that an event reports. -/
def Event.status? : Event → Option Status
  | .file _ _ _ o => some o.status
  | _ => none

/-- The path of the file that an event reports. -/
def Event.path? : Event → Option Path
  | .file path _ _ _ => some path
  | _ => none

/-- The event reports a file that could not be written. -/
def Event.ReportsFailedWrite (e : Event) : Prop :=
  ∃ path fileClass seconds cause,
    e = .file path fileClass seconds (.ofFault (.unwritable path cause))

theorem Event.ReportsFailedWrite.status? {e : Event} (h : e.ReportsFailedWrite) :
    e.status? = some .failed := by
  obtain ⟨path, fileClass, seconds, cause, rfl⟩ := h
  rfl

/-- How many files of a status were counted. -/
def Tally.count (n : Tally) : Status → Nat
  | .modified => n.modified
  | .unchanged => n.unchanged
  | .skipped => n.skipped
  | .failed => n.failed

theorem Tally.count_record (n : Tally) (o : Outcome) (s : Status) :
    (n.record o).count s = n.count s + if o.status = s then 1 else 0 := by
  cases ho : o.status <;> cases s <;> simp [record, ho, count]

namespace Request

variable (r : Request) (sys : System)

/-! ## Turns -/

/-- Every candidate has its turn. -/
theorem map_fst_turns (cs : List Candidate) (t : Tree) :
    (r.turns sys cs t).map Prod.fst = cs := by
  induction cs generalizing t with
  | nil => rfl
  | cons c cs ih => rw [turns, List.map_cons, ih]

theorem mem_of_mem_turns {cs : List Candidate} {t : Tree} {x : Candidate × Tree}
    (hx : x ∈ r.turns sys cs t) : x.1 ∈ cs := by
  rw [← r.map_fst_turns sys cs t]
  exact List.mem_map_of_mem hx

/-- The event of a candidate tells its outcome. -/
theorem status?_eventAt (x : Candidate × Tree) :
    (r.eventAt sys x).status? = some (r.outcomeAt sys x).status := by
  rw [eventAt, outcomeAt, handle]
  cases r.allot? x.1 <;> rfl

/-- A turn leaves the tree as it is for a candidate that is skipped, and else as its treatment
leaves it. -/
theorem handle_of_allot?_none {c : Candidate} (h : r.allot? c = none) (t : Tree) :
    r.handle sys c t = (.file (c.path r.dir) none 0 .ofSkipped, .ofSkipped, t) := by
  rw [handle, h]

theorem handle_of_allot?_some {c : Candidate} {fileClass : FileClass} {seconds : UInt64}
    (h : r.allot? c = some (fileClass, seconds)) (t : Tree) :
    r.handle sys c t = (.file (c.path r.dir) (some fileClass) seconds
      (sys.treat r.mode (c.path r.dir) seconds t).1,
      sys.treat r.mode (c.path r.dir) seconds t) := by
  rw [handle, h]

/-- The seconds of a candidate that is not skipped are those of its name. -/
theorem allot?_eq_some {c : Candidate} {fileClass : FileClass} {seconds : UInt64}
    (h : r.allot? c = some (fileClass, seconds)) :
    c.name.text ∉ r.skip ∧ seconds = if c.name.text ∈ r.budget.networkFiles then
      r.budget.networkSeconds else r.budget.ordinarySeconds := by
  rw [allot?, Option.ite_none_left_eq_some] at h
  obtain ⟨hskip, h⟩ := h
  cases h
  refine ⟨hskip, ?_⟩
  rw [Budget.classOf]
  split <;> rfl

/-- What a turn does: a candidate is skipped, or its file is treated within the seconds of its
name. -/
theorem handle_cases (c : Candidate) (t : Tree) :
    c.name.text ∈ r.skip ∧
      r.handle sys c t = (.file (c.path r.dir) none 0 .ofSkipped, .ofSkipped, t) ∨
      ∃ fileClass seconds o t', c.name.text ∉ r.skip ∧
        (seconds = if c.name.text ∈ r.budget.networkFiles then r.budget.networkSeconds
          else r.budget.ordinarySeconds) ∧
        Treated sys r.mode (c.path r.dir) seconds t o t' ∧
        r.handle sys c t = (.file (c.path r.dir) (some fileClass) seconds o, o, t') := by
  cases ha : r.allot? c with
  | none =>
    have hskip : c.name.text ∈ r.skip := by
      rw [allot?, ite_eq_left_iff] at ha
      exact Decidable.of_not_not fun h => absurd (ha h) (Option.some_ne_none _)
    exact .inl ⟨hskip, r.handle_of_allot?_none sys ha t⟩
  | some allotted =>
    obtain ⟨fileClass, seconds⟩ := allotted
    obtain ⟨hskip, hseconds⟩ := r.allot?_eq_some ha
    exact .inr ⟨fileClass, seconds, _, _, hskip, hseconds, treated_treat ..,
      r.handle_of_allot?_some sys ha t⟩

/-- A turn that reports no replaced file leaves the tree as it is. -/
theorem handle_tree {c : Candidate} {t : Tree}
    (h : r.mode.writes = true → (r.eventAt sys (c, t)).status? ≠ some .modified) :
    (r.handle sys c t).2.2 = t := by
  rcases r.handle_cases sys c t with ⟨-, he⟩ | ⟨fileClass, seconds, o, t', -, -, ht, he⟩
  · rw [he]
  · rw [eventAt, he] at h
    rw [he]
    cases ht with
    | unreadable | kept | shown | unwritable => rfl
    | replaced _ hchanged hmode =>
      exact absurd (congrArg some (if_pos hchanged)) (h hmode)

/-- A turn that reports a replaced file has put its revision in its place. -/
theorem handle_replaced {c : Candidate} {t : Tree} (hmode : r.mode.writes = true)
    (h : (r.eventAt sys (c, t)).status? = some .modified) :
    c.name.text ∉ r.skip ∧ ∃ source loc, t.read (c.path r.dir) = .ok source ∧
      t.place (c.path r.dir) = .ok loc ∧
      (r.handle sys c t).2.2 = t.put loc (.file (.text (Revision.of source
        (if c.name.text ∈ r.budget.networkFiles then r.budget.networkSeconds
          else r.budget.ordinarySeconds)).text)) := by
  rcases r.handle_cases sys c t with ⟨-, he⟩ | ⟨fileClass, seconds, o, t', hskip, rfl, ht, he⟩
  · rw [eventAt, he] at h
    cases h
  · rw [eventAt, he] at h
    rw [he]
    refine ⟨hskip, ?_⟩
    cases ht with
    | unreadable | unwritable => cases h
    | kept _ hchanged =>
      rw [Event.status?, Outcome.ofRevision, hchanged] at h
      cases h
    | shown _ _ hmode' =>
      rw [hmode] at hmode'
      cases hmode'
    | replaced hread _ _ hplace => exact ⟨_, _, hread, hplace, rfl⟩

/-! ## Runs over some candidates -/

theorem count_foldl_record (os : List Outcome) (n : Tally) (s : Status) :
    (os.foldl Tally.record n).count s = n.count s + (os.map Outcome.status).count s := by
  induction os generalizing n with
  | nil => rfl
  | cons o os ih =>
    rw [List.foldl_cons, ih, Tally.count_record, List.map_cons, List.count_cons]
    simp only [beq_iff_eq]
    omega

variable (cs : List Candidate) (t : Tree)

/-- What every event about a file tells, a run tells turn by turn. -/
theorem filterMap_events {α : Type} {f : Event → Option α} {g : Candidate × Tree → α}
    (hstart : ∀ dir n, f (.start dir n) = none) (hcomplete : ∀ n, f (.complete n) = none)
    (hf : ∀ x, f (r.eventAt sys x) = some (g x)) :
    (r.recordOf sys cs t).events.filterMap f = (r.turns sys cs t).map g := by
  have hturns : (r.turns sys cs t).filterMap (f ∘ r.eventAt sys) = (r.turns sys cs t).map g := by
    rw [← List.filterMap_eq_map]
    exact congrArg (List.filterMap · _) (funext hf)
  rw [recordOf, List.filterMap_cons_none (hstart _ _), List.filterMap_append, List.filterMap_map,
    List.filterMap_cons_none (hcomplete _), List.filterMap_nil, List.append_nil, hturns]

/-- The paths that a run reports are those of its candidates. -/
theorem path?_events :
    (r.recordOf sys cs t).events.filterMap Event.path? = cs.map (Candidate.path r.dir) := by
  have hpath (x : Candidate × Tree) : (r.eventAt sys x).path? = some (x.1.path r.dir) := by
    rw [eventAt, handle]
    cases r.allot? x.1 <;> rfl
  calc (r.recordOf sys cs t).events.filterMap Event.path?
    _ = (r.turns sys cs t).map (Candidate.path r.dir ∘ Prod.fst) :=
      filterMap_events r sys cs t (fun _ _ => rfl) (fun _ => rfl) hpath
    _ = cs.map (Candidate.path r.dir) := by rw [← List.map_map, map_fst_turns]

/-- The statuses that a run reports are those of its turns. -/
theorem status?_events : (r.recordOf sys cs t).events.filterMap Event.status? =
    (r.turns sys cs t).map fun x => (r.outcomeAt sys x).status :=
  filterMap_events r sys cs t (fun _ _ => rfl) (fun _ => rfl) (r.status?_eventAt sys)

/-- The tally of a run counts the statuses it reports. -/
theorem count_tallyOf (s : Status) : (r.tallyOf sys cs t).count s =
    ((r.recordOf sys cs t).events.filterMap Event.status?).count s := by
  have hzero : Tally.count {} s = 0 := by cases s <;> rfl
  rw [status?_events, tallyOf, count_foldl_record, hzero, Nat.zero_add, List.map_map]
  rfl

variable {cs t}

/-- What is true of an event about a file is true of one at the turn of a candidate. -/
theorem exists_event_iff {p : Event → Prop} (hp : ∀ e, p e → e.status? ≠ none) :
    (∃ e ∈ (r.recordOf sys cs t).events, p e) ↔ ∃ x ∈ r.turns sys cs t, p (r.eventAt sys x) := by
  constructor
  · rintro ⟨e, he, h⟩
    rcases List.mem_cons.1 he with rfl | he
    · exact absurd rfl (hp _ h)
    · rcases List.mem_append.1 he with he | he
      · obtain ⟨x, hx, rfl⟩ := List.mem_map.1 he
        exact ⟨x, hx, h⟩
      · cases List.mem_singleton.1 he
        exact absurd rfl (hp _ h)
  · rintro ⟨x, hx, h⟩
    exact ⟨_, List.mem_cons_of_mem _ (List.mem_append_left _ (List.mem_map_of_mem hx)), h⟩

end Request

/-! ## Runs -/

namespace Request

variable {r : Request} {sys : System} {t : Tree}

/-- A run treats the candidates of its directory. -/
theorem run_of_candidates {cs : List Candidate} (h : r.candidates sys t = .ok cs) :
    r.run sys t = r.recordOf sys cs t := by
  obtain ⟨base, hbase, -⟩ := Candidate.exists_of_listing h
  have hdir := Tree.entry_eq_dir_iff.2 ⟨base, hbase⟩
  simp only [run_eq, hdir, h, ne_eq, not_true_eq_false, ↓reduceIte]

/-- A run without candidates is refused: it tells nothing, and the tree is as it was. -/
theorem run_of_no_candidates {cause : Cause} (h : r.candidates sys t = .error cause) :
    ∃ refusal, r.run sys t = ⟨.error refusal, [], t⟩ := by
  rw [run_eq]
  cases t.entry r.dir with
  | error cause => exact ⟨_, rfl⟩
  | ok e =>
    dsimp only
    split
    · exact ⟨_, rfl⟩
    · rw [h]
      exact ⟨_, rfl⟩

/-- A run that is refused tells nothing and leaves the tree as it is. -/
theorem of_result_error {refusal : Refusal} (h : (r.run sys t).result = .error refusal) :
    (r.run sys t).events = [] ∧ (r.run sys t).tree = t := by
  cases hcs : r.candidates sys t with
  | error cause =>
    obtain ⟨_, hrun⟩ := run_of_no_candidates hcs
    rw [hrun]
    exact ⟨rfl, rfl⟩
  | ok cs =>
    rw [run_of_candidates hcs] at h
    cases h

theorem result_eq_ok_iff {n : Tally} : (r.run sys t).result = .ok n ↔
    ∃ cs, r.candidates sys t = .ok cs ∧ r.run sys t = r.recordOf sys cs t ∧
      n = r.tallyOf sys cs t := by
  cases h : r.candidates sys t with
  | error cause =>
    obtain ⟨refusal, hrun⟩ := run_of_no_candidates h
    simp [hrun]
  | ok cs =>
    rw [run_of_candidates h]
    simp [recordOf, eq_comm]

end Request

/-- A directory with two files that lack a limit. -/
def twoFiles : Tree where
  entries := [([.letter 19], .dir),
    ([.letter 19, .letter 0], .file (.text "test(() async \x7b\x7d)".toList)),
    ([.letter 19, .letter 1], .file (.text "test(() async \x7b\x7d)".toList))]
  nodup := by decide

/-- All files of the directory that these files stand in are asked for. -/
def allFiles : Request :=
  { dir := [0x74], suffix := [] }

end TimeLimit
