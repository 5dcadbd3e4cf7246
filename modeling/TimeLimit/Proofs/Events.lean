import Mathlib
import TimeLimit.Proofs.Turn

/-!
# The events of a run

A run that starts tells how many candidates it found, then what became of each of them, in order,
and at last its tally (`run_tells_of_each_file`). The counts of an outcome fit its status
(`Outcome.Consistent`): at every turn a file is modified exactly when a limit was added to it, and
nothing is counted in a file that is skipped or has failed. So the tally is what the events add up
to (`Request.tallyOf_eq`), with the limits added in modified files and in no others.
-/

namespace TimeLimit

/-! ## Outcomes -/

/-- The counts of an outcome fit its status. -/
structure Outcome.Consistent (o : Outcome) : Prop where
  /-- A file is modified when a test in it was given a limit, and only then. -/
  modified_iff : o.status = .modified ↔ 0 < o.added
  /-- A file that is skipped or has failed was not looked into. -/
  counts_eq_zero : o.status = .skipped ∨ o.status = .failed →
    o.added = 0 ∧ o.limited = 0 ∧ o.unterminated = 0

namespace Outcome

theorem consistent_ofSkipped : ofSkipped.Consistent where
  modified_iff := ⟨nofun, nofun⟩
  counts_eq_zero _ := ⟨rfl, rfl, rfl⟩

theorem consistent_ofFault (f : FileFault) : (ofFault f).Consistent where
  modified_iff := ⟨nofun, nofun⟩
  counts_eq_zero _ := ⟨rfl, rfl, rfl⟩

theorem status_ofRevision (mode : Mode) (source : Text) (r : Revision) :
    (ofRevision mode source r).status = if 0 < r.added then .modified else .unchanged := by
  simp [ofRevision, Revision.isChanged]

theorem consistent_ofRevision (mode : Mode) (source : Text) (r : Revision) :
    (ofRevision mode source r).Consistent where
  modified_iff := by
    rw [status_ofRevision]
    show _ ↔ 0 < r.added
    split <;> simp_all
  counts_eq_zero h := by
    rw [status_ofRevision] at h
    split at h <;> simp at h

/-- Only a file in which a limit was added counts for the sum of those added. -/
theorem Consistent.added_eq_zero {o : Outcome} (h : o.Consistent) (hs : o.status ≠ .modified) :
    o.added = 0 :=
  Nat.eq_zero_of_not_pos fun hpos => hs (h.modified_iff.2 hpos)

end Outcome

/-- However a file is treated, its counts fit its status, and it is not reported as skipped. -/
theorem Treated.consistent {sys : System} {mode : Mode} {path : Path} {seconds : UInt64}
    {t t' : Tree} {o : Outcome} (h : Treated sys mode path seconds t o t') :
    o.Consistent ∧ o.status ≠ .skipped := by
  have hrevised (source : Text) :
      (Outcome.ofRevision mode source (.of source seconds)).status ≠ .skipped := by
    rw [Outcome.status_ofRevision]
    split <;> nofun
  cases h with
  | unreadable | unwritable => exact ⟨Outcome.consistent_ofFault _, nofun⟩
  | kept | shown | replaced => exact ⟨Outcome.consistent_ofRevision .., hrevised _⟩

/-! ## Events -/

namespace Event

/-- What became of the file that an event reports. -/
def outcome? : Event → Option Outcome
  | .file _ _ _ o => some o
  | _ => none

/-- How many limits were added to the file that an event reports. -/
def added (e : Event) : Nat :=
  (e.outcome?.map Outcome.added).getD 0

/-- The event is the report on a candidate of a request. -/
def Reports (r : Request) (c : Candidate) (e : Event) : Prop :=
  ∃ fileClass seconds o, e = .file (c.path r.dir) fileClass seconds o ∧
    (o.status = .skipped ↔ c.name.text ∈ r.skip) ∧ o.Consistent

theorem Reports.added_eq_zero {r : Request} {c : Candidate} {e : Event} (h : e.Reports r c)
    (hs : e.status? ≠ some .modified) : e.added = 0 := by
  obtain ⟨fileClass, seconds, o, rfl, -, ho⟩ := h
  exact ho.added_eq_zero fun hm => hs (congrArg some hm)

end Event

theorem Tally.added_record (n : Tally) (o : Outcome) :
    (n.record o).added = n.added + o.added := by
  cases ho : o.status <;> simp [record, ho]

/-- The limits of some outcomes are added up. -/
theorem Tally.added_foldl_record (os : List Outcome) (n : Tally) :
    (os.foldl Tally.record n).added = n.added + (os.map Outcome.added).sum := by
  induction os generalizing n with
  | nil => rfl
  | cons o os ih =>
    rw [List.foldl_cons, ih, added_record, List.map_cons, List.sum_cons, Nat.add_assoc]

/-- Every outcome is counted once. -/
theorem Tally.total_foldl_record (os : List Outcome) (n : Tally) :
    (os.foldl Tally.record n).total = n.total + os.length := by
  induction os generalizing n with
  | nil => rfl
  | cons o os ih =>
    rw [List.foldl_cons, ih, total_record, List.length_cons, Nat.add_assoc, Nat.add_comm 1]

namespace Request

variable (r : Request) (sys : System)

/-- At its turn a candidate is reported, as skipped when its name is to be skipped and only then,
whatever its file holds. -/
theorem reports_eventAt (c : Candidate) (t : Tree) : (r.eventAt sys (c, t)).Reports r c := by
  rw [eventAt]
  rcases r.handle_cases sys c t with ⟨hskip, he⟩ | ⟨fileClass, seconds, o, t', hskip, -, ht, he⟩
  · rw [he]
    exact ⟨none, 0, _, rfl, iff_of_true rfl hskip, Outcome.consistent_ofSkipped⟩
  · rw [he]
    obtain ⟨ho, hs⟩ := ht.consistent
    exact ⟨some fileClass, seconds, o, rfl, iff_of_false hs hskip, ho⟩

/-- The turns report the candidates, one event for each, in order. -/
theorem reports_turns (cs : List Candidate) (t : Tree) :
    List.Forall₂ (fun c e => Event.Reports r c e) cs
      ((r.turns sys cs t).map (r.eventAt sys)) := by
  induction cs generalizing t with
  | nil => exact .nil
  | cons c cs ih => exact .cons (r.reports_eventAt sys c t) (ih _)

theorem added_eventAt (x : Candidate × Tree) :
    (r.eventAt sys x).added = (r.outcomeAt sys x).added := by
  rw [eventAt, outcomeAt, handle]
  cases r.allot? x.1 <;> rfl

end Request

/-! ## Tallies -/

namespace Tally

/-- What some events add up to: how many files are reported with each status, and how many limits
were added to the modified files. -/
def ofEvents (es : List Event) : Tally where
  modified := (es.filterMap Event.status?).count .modified
  unchanged := (es.filterMap Event.status?).count .unchanged
  skipped := (es.filterMap Event.status?).count .skipped
  failed := (es.filterMap Event.status?).count .failed
  added := ((es.filter (·.status? = some .modified)).map Event.added).sum

theorem count_ofEvents (es : List Event) (s : Status) :
    (ofEvents es).count s = (es.filterMap Event.status?).count s := by
  cases s <;> rfl

/-- Tallies are equal when they count the same of each status and the same limits. -/
theorem eq_of_count_eq {m n : Tally} (hcount : ∀ s, m.count s = n.count s)
    (hadded : m.added = n.added) : m = n := by
  obtain ⟨_, _, _, _, _⟩ := m
  obtain ⟨_, _, _, _, _⟩ := n
  rw [mk.injEq]
  exact ⟨hcount .modified, hcount .unchanged, hcount .skipped, hcount .failed, hadded⟩

/-- In the reports on candidates, only modified files add to the limits. -/
theorem added_ofEvents {r : Request} {cs : List Candidate} {es : List Event}
    (h : List.Forall₂ (fun c e => Event.Reports r c e) cs es) :
    (ofEvents es).added = (es.map Event.added).sum := by
  unfold ofEvents
  induction h with
  | nil => rfl
  | @cons c e cs es he _ ih =>
    rw [List.map_cons, List.sum_cons, ← ih]
    by_cases hs : e.status? = some .modified
    · rw [List.filter_cons_of_pos (by simpa using hs), List.map_cons, List.sum_cons]
    · rw [List.filter_cons_of_neg (by simpa using hs), he.added_eq_zero hs, Nat.zero_add]

end Tally

namespace Request

variable (r : Request) (sys : System) (cs : List Candidate) (t : Tree)

/-- The tally of a run is what the reports of its turns add up to. -/
theorem tallyOf_eq : r.tallyOf sys cs t = .ofEvents ((r.turns sys cs t).map (r.eventAt sys)) := by
  refine Tally.eq_of_count_eq (fun s => ?_) ?_
  · rw [count_tallyOf, Tally.count_ofEvents, status?_events, List.filterMap_map,
      ← List.filterMap_eq_map]
    exact congrArg (List.count s <| List.filterMap · _)
      (funext fun x => (r.status?_eventAt sys x).symm)
  · rw [tallyOf, Tally.added_foldl_record, Tally.added_ofEvents (r.reports_turns sys cs t),
      Nat.zero_add, List.map_map, List.map_map]
    exact congrArg (List.sum <| List.map · _) (funext fun x => (r.added_eventAt sys x).symm)

/-- Every candidate is counted once. -/
theorem total_tallyOf : (r.tallyOf sys cs t).total = cs.length := by
  have hlength := congrArg List.length (r.map_fst_turns sys cs t)
  rw [List.length_map] at hlength
  rw [tallyOf, Tally.total_foldl_record, List.length_map, hlength]
  exact Nat.zero_add _

end Request

/-- **A run tells of each file once**, whatever the system refuses on the way. The events of a run
that starts are the number of the candidates it found, the report on each of them, in order, and the
tally it gives back. That tally is what the reports add up to, and counts as many files as were
found. A file is reported as skipped exactly when its name is to be skipped, be it text or not; it
is reported as modified exactly when a limit was added to it; and no counts are reported of a file
that is skipped or has failed. -/
theorem run_tells_of_each_file {r : Request} {sys : System} {t : Tree} {n : Tally}
    (hrun : (r.run sys t).result = .ok n) :
    ∃ cs files, Candidate.listing sys t r.dir r.suffix r.recursive = .ok cs ∧
      (r.run sys t).events = .start r.dir cs.length :: (files ++ [.complete n]) ∧
      List.Forall₂ (fun c e => ∃ fileClass seconds o,
        e = Event.file (c.path r.dir) fileClass seconds o ∧
        (o.status = .skipped ↔ c.name.text ∈ r.skip) ∧ (o.status = .modified ↔ 0 < o.added) ∧
        (o.status = .skipped ∨ o.status = .failed →
          o.added = 0 ∧ o.limited = 0 ∧ o.unterminated = 0)) cs files ∧
      n = .ofEvents files ∧ n.total = cs.length := by
  obtain ⟨cs, hcs, hrecord, rfl⟩ := Request.result_eq_ok_iff.1 hrun
  rw [hrecord]
  refine ⟨cs, (r.turns sys cs t).map (r.eventAt sys), hcs, rfl, ?_, r.tallyOf_eq sys cs t,
    r.total_tallyOf sys cs t⟩
  refine (r.reports_turns sys cs t).imp fun c e he => ?_
  obtain ⟨fileClass, seconds, o, he, hskip, ho⟩ := he
  exact ⟨fileClass, seconds, o, he, hskip, ho.modified_iff, ho.counts_eq_zero⟩

/-- A directory with a file of no text for each way to fail or to be skipped, a file that lacks a
limit and one without tests. -/
def mixedFiles : Tree where
  entries := [([.letter 19], .dir),
    ([.letter 19, .letter 0], .file (.ofBytes ⟨#[0xff]⟩)),
    ([.letter 19, .letter 1], .file (.ofBytes ⟨#[0xff]⟩)),
    ([.letter 19, .letter 2], .file (.text "test(() async \x7b\x7d)".toList)),
    ([.letter 19, .letter 3], .file (.text ['x']))]
  nodup := by decide

/-- A file that is no text is skipped when its name asks for it, and fails otherwise. -/
theorem run_tells_of_mixed_files : ∃ r n files,
    r = { allFiles with skip := .ofList [['a']] } ∧
      (r.run System.plain mixedFiles).result = .ok n ∧
      (r.run System.plain mixedFiles).events = .start r.dir 4 :: (files ++ [.complete n]) ∧
      files.filterMap Event.status? = [.skipped, .failed, .modified, .unchanged] ∧
      n = .ofEvents files ∧ n.total = 4 := by
  let r : Request := { allFiles with skip := .ofList [['a']] }
  let cs : List Candidate :=
    [⟨[], .letter 0⟩, ⟨[], .letter 1⟩, ⟨[], .letter 2⟩, ⟨[], .letter 3⟩]
  have hcs : r.candidates System.plain mixedFiles = .ok cs :=
    Candidate.listing_of_search (by decide) (by decide)
  have hstatuses : (r.recordOf System.plain cs mixedFiles).events.filterMap Event.status? =
      [.skipped, .failed, .modified, .unchanged] := by
    decide +kernel
  have hrun := Request.run_of_candidates hcs
  have hresult := Request.result_eq_ok_iff.2 ⟨cs, hcs, hrun, rfl⟩
  obtain ⟨cs', files, hcs', hevents, -, htally, htotal⟩ := run_tells_of_each_file hresult
  obtain rfl : cs' = cs := Except.ok.inj (hcs'.symm.trans hcs)
  rw [← hrun, hevents, List.filterMap_cons_none rfl, List.filterMap_append,
    List.filterMap_cons_none rfl, List.filterMap_nil, List.append_nil] at hstatuses
  exact ⟨r, _, files, rfl, hresult, hevents, hstatuses, htally, htotal⟩

end TimeLimit
