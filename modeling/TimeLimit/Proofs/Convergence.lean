import TimeLimit.Proofs.Evolution
import TimeLimit.Session

/-!
# A second run finds nothing to do

After a run in write mode in which every write succeeds, a run of the same directory, with whatever
mode and budget, changes nothing and has nothing to report as modified (`run_converges`). The
reason is kept turn by turn: after its turn a candidate is quiet (`Request.quiet_handle`), later
turns leave it quiet (`Request.Quiet.evolves`), and a run over quiet candidates leaves the tree as
it is (`Request.turns_of_quiet`). That the second run finds the same candidates is
`Candidate.listing_evolves`.
-/

namespace TimeLimit

/-! ## Statuses -/

/-- The status of a file in a second run, by its status in the first. -/
def Status.settle : Status → Status
  | .modified => .unchanged
  | s => s

theorem Status.count_map_settle (l : List Status) :
    (l.map settle).count .modified = 0 ∧
      (l.map settle).count .unchanged = l.count .modified + l.count .unchanged ∧
      (l.map settle).count .skipped = l.count .skipped ∧
      (l.map settle).count .failed = l.count .failed := by
  induction l with
  | nil => simp
  | cons s l ih =>
    obtain ⟨hm, hu, hs, hf⟩ := ih
    cases s <;> simp [settle, hm, hu, hs, hf] <;> omega

namespace Request

variable (r : Request) (sys : System) {t t' : Tree} {c : Candidate}

/-! ## Quiet candidates -/

/-- Nothing is left to do for a candidate: it is skipped, it cannot be read, or its text needs no
limit. -/
def Quiet (t : Tree) (c : Candidate) : Prop :=
  c.name.text ∉ r.skip → ∀ s, t.read (c.path r.dir) = .ok s → Settled s

/-- The status of a candidate for which nothing is left to do. -/
def quietStatus (t : Tree) (c : Candidate) : Status :=
  if c.name.text ∈ r.skip then .skipped
  else match t.read (c.path r.dir) with
    | .error _ => .failed
    | .ok _ => .unchanged

/-- What is reported of a candidate whose write does not fail is what is reported once nothing is
left to do, or that the file lacks limits. -/
theorem settle_status (hwrite : ¬ (r.eventAt sys (c, t)).ReportsFailedWrite) :
    (r.outcomeAt sys (c, t)).status.settle = r.quietStatus t c := by
  rw [quietStatus, outcomeAt]
  rcases r.handle_cases sys c t with ⟨hskip, he⟩ | ⟨fileClass, seconds, o, t', hskip, -, ht, he⟩
  · rw [he, if_pos hskip]
    rfl
  · rw [eventAt, he] at hwrite
    rw [he, if_neg hskip]
    cases ht with
    | unreadable hread =>
      rw [hread]
      rfl
    | kept hread hchanged | shown hread hchanged | replaced hread hchanged =>
      rw [hread, Outcome.ofRevision, hchanged]
      rfl
    | unwritable => exact absurd ⟨_, _, _, _, rfl⟩ hwrite

/-- A turn of a quiet candidate leaves the tree as it is and reports no file that lacks limits. -/
theorem handle_of_quiet (h : r.Quiet t c) : (r.handle sys c t).2.2 = t ∧
    (r.outcomeAt sys (c, t)).status = r.quietStatus t c := by
  rw [quietStatus, outcomeAt]
  rcases r.handle_cases sys c t with ⟨hskip, he⟩ | ⟨fileClass, seconds, o, t', hskip, -, ht, he⟩
  · rw [he, if_pos hskip]
    exact ⟨rfl, rfl⟩
  · rw [he, if_neg hskip]
    cases ht with
    | unreadable hread =>
      rw [hread]
      exact ⟨rfl, rfl⟩
    | kept hread hchanged =>
      rw [hread, Outcome.ofRevision, hchanged]
      exact ⟨rfl, rfl⟩
    | shown hread hchanged | unwritable hread hchanged | replaced hread hchanged =>
      rw [h hskip _ hread seconds] at hchanged
      cases hchanged

/-- Behind its turn a candidate is quiet, unless it could not be written. -/
theorem quiet_handle (hmode : r.mode.writes = true)
    (hwrite : ¬ (r.eventAt sys (c, t)).ReportsFailedWrite) :
    r.Quiet (r.handle sys c t).2.2 c := by
  intro hskip s hs
  rcases r.handle_cases sys c t with ⟨hskip', -⟩ | ⟨fileClass, seconds, o, t', -, -, ht, he⟩
  · exact absurd hskip' hskip
  · rw [eventAt, he] at hwrite
    rw [he] at hs
    cases ht with
    | unreadable hread =>
      rw [hread] at hs
      cases hs
    | kept hread hchanged =>
      rw [hread] at hs
      cases hs
      exact settled_of_not_changed hchanged
    | shown _ _ hmode' =>
      rw [hmode] at hmode'
      cases hmode'
    | unwritable => exact absurd ⟨_, _, _, _, rfl⟩ hwrite
    | @replaced source loc hread _ _ hplace =>
      -- the path leads to the new entry now
      obtain ⟨dir, name, f, rfl, -, -, -, hresolve⟩ := Tree.exists_shows hread hplace
      rw [Tree.read_eq_ok_iff.2
        ⟨_, hresolve _, Tree.get?_put_self t (Tree.concat_ne_root dir name) _⟩] at hs
      cases hs
      exact settled_revision source seconds

variable {r} in
/-- A quiet candidate stays quiet. -/
theorem Quiet.evolves (h : r.Quiet t c) (ht : t.Evolves t')
    (hfile : t.isFile (c.path r.dir) = true) : r.Quiet t' c := by
  intro hskip s' hs'
  rcases ht.read _ (Tree.resolve_ne_of_isFile hfile) with he | ⟨s, s'', hs, hs'', hsettled⟩
  · exact h hskip s' (he ▸ hs')
  · rw [hs''] at hs'
    cases hs'
    exact hsettled

/-- The status of a candidate for which nothing is left to do stays the same. -/
theorem quietStatus_evolves (ht : t.Evolves t') (hfile : t.isFile (c.path r.dir) = true) :
    r.quietStatus t' c = r.quietStatus t c := by
  unfold quietStatus
  rcases ht.read _ (Tree.resolve_ne_of_isFile hfile) with he | ⟨s, s', hs, hs', -⟩
  · rw [he]
  · rw [hs, hs']

/-! ## Runs -/

/-- Turns of quiet candidates leave the tree as it is. -/
theorem turns_of_quiet {cs : List Candidate} (h : ∀ c ∈ cs, r.Quiet t c) :
    r.treeAfter sys cs t = t ∧ r.turns sys cs t = cs.map fun c => (c, t) := by
  induction cs with
  | nil => exact ⟨rfl, rfl⟩
  | cons c cs ih =>
    have hturn := (r.handle_of_quiet sys (h c List.mem_cons_self)).1
    obtain ⟨htree, hturns⟩ := ih fun c' hc' => h c' (List.mem_cons_of_mem _ hc')
    exact ⟨by rw [treeAfter, hturn, htree], by rw [turns, hturn, hturns, List.map_cons]⟩

/-- A run in write mode leaves every candidate quiet, unless it could not be written, and it reports
for each what is reported once nothing is left to do, or that it was replaced. -/
theorem quiet_treeAfter (hmode : r.mode.writes = true) {cs : List Candidate}
    (hfiles : ∀ c ∈ cs, t.isFile (c.path r.dir) = true)
    (hwrites : ∀ x ∈ r.turns sys cs t, ¬ (r.eventAt sys x).ReportsFailedWrite) :
    (∀ c ∈ cs, r.Quiet (r.treeAfter sys cs t) c) ∧
      (r.turns sys cs t).map (fun x => (r.outcomeAt sys x).status.settle) =
        cs.map (r.quietStatus (r.treeAfter sys cs t)) := by
  induction cs generalizing t with
  | nil => simp [turns]
  | cons c cs ih =>
    have hturn := r.evolves_handle sys c t
    have hrest := r.evolves_treeAfter sys cs (r.handle sys c t).2.2
    have hfile := hfiles c List.mem_cons_self
    have hwrite := hwrites (c, t) List.mem_cons_self
    obtain ⟨hquiet, hstatus⟩ := ih
      (fun c' hc' => hturn.isFile_of_isFile (hfiles c' (List.mem_cons_of_mem _ hc')))
      (fun x hx => hwrites x (List.mem_cons_of_mem _ hx))
    rw [treeAfter]
    constructor
    · intro c' hc'
      rcases List.mem_cons.1 hc' with rfl | hc'
      · exact (r.quiet_handle sys hmode hwrite).evolves hrest (hturn.isFile_of_isFile hfile)
      · exact hquiet c' hc'
    · rw [turns, List.map_cons, List.map_cons, hstatus, r.settle_status sys hwrite,
        r.quietStatus_evolves (hturn.trans hrest) hfile]

end Request

/-- **Runs converge.** Suppose that no lookup below the directory fails for too many symbolic links,
that a run in write mode succeeds, and that none of its writes fails. Then a run on the resulting
tree with the same directory, suffix, depth and names to skip, in any mode and with any budget,
finds the same files, leaves the tree as it is and reports no file as modified. As many files fail
and are skipped as before, and those that were modified are unchanged now. Its exit code is 0. The
system may have changed its mind meanwhile about what can be written, but not about what is
listed. -/
theorem run_converges {r : Request} {sys sys' : System} {t : Tree} {n : Tally}
    (hlinks : t.LinksWithinLimit r.dir) (hmode : r.mode = .write)
    (hrun : (r.run sys t).result = .ok n)
    (hwrites : ∀ e ∈ (r.run sys t).events, ¬ e.ReportsFailedWrite)
    (hclosed : sys'.closed = sys.closed) (mode : Mode) (budget : Budget) :
    ∃ cs n', r.candidates sys t = .ok cs ∧
      { r with mode, budget }.candidates sys' (r.run sys t).tree = .ok cs ∧
      ({ r with mode, budget }.run sys' (r.run sys t).tree).result = .ok n' ∧
      ({ r with mode, budget }.run sys' (r.run sys t).tree).events.filterMap Event.path? =
        (r.run sys t).events.filterMap Event.path? ∧
      (∀ e ∈ ({ r with mode, budget }.run sys' (r.run sys t).tree).events,
        e.status? ≠ some .modified) ∧
      ({ r with mode, budget }.run sys' (r.run sys t).tree).tree = (r.run sys t).tree ∧
      n'.modified = 0 ∧ n'.unchanged = n.modified + n.unchanged ∧
      n'.skipped = n.skipped ∧ n'.failed = n.failed ∧
      (Session.ofRequest { r with mode, budget } sys' (r.run sys t).tree).code = 0 := by
  obtain ⟨cs, hcs, hrecord, rfl⟩ := Request.result_eq_ok_iff.1 hrun
  rw [hrecord] at hwrites ⊢
  obtain ⟨base, hbase, hlisted⟩ := Candidate.listed_of_listing hcs
  have hwrites' : ∀ x ∈ r.turns sys cs t, ¬ (r.eventAt sys x).ReportsFailedWrite := by
    intro x hx hfailed
    have hreported : ∀ e : Event, e.ReportsFailedWrite → e.status? ≠ none :=
      fun e he => by simp [he.status?]
    obtain ⟨e, he, hfailed⟩ := (r.exists_event_iff sys hreported).2 ⟨x, hx, hfailed⟩
    exact hwrites e he hfailed
  obtain ⟨hquiet, hstatus⟩ := r.quiet_treeAfter sys (by rw [hmode]; rfl)
    (fun c hc => (hlisted c hc).isFile) hwrites'
  have hcs' : { r with mode, budget }.candidates sys' (r.recordOf sys cs t).tree = .ok cs :=
    Candidate.listing_evolves hclosed (r.evolves_treeAfter sys cs t) hlinks hcs
  change ∀ c ∈ cs, r.Quiet (r.recordOf sys cs t).tree c at hquiet
  obtain ⟨htree, hturns⟩ := Request.turns_of_quiet { r with mode, budget } sys' hquiet
  -- the statuses of the second run are those of the first, settled
  have hstatuses :
      ({ r with mode, budget }.recordOf sys' cs (r.recordOf sys cs t).tree).events.filterMap
        Event.status? =
      ((r.recordOf sys cs t).events.filterMap Event.status?).map Status.settle := by
    rw [Request.status?_events, Request.status?_events, hturns, List.map_map, List.map_map]
    refine Eq.trans (List.map_congr_left fun c hc => ?_) hstatus.symm
    exact (Request.handle_of_quiet { r with mode, budget } sys' (hquiet c hc)).2
  obtain ⟨hm, hu, hs, hf⟩ :=
    Status.count_map_settle ((r.recordOf sys cs t).events.filterMap Event.status?)
  rw [← hstatuses] at hm hu hs hf
  have hnone := List.count_eq_zero.1 hm
  simp only [← Request.count_tallyOf, Tally.count] at hm hu hs hf
  have hrun' := Request.run_of_candidates hcs'
  refine ⟨cs, { r with mode, budget }.tallyOf sys' cs (r.recordOf sys cs t).tree, hcs, hcs', ?_⟩
  rw [Session.ofRequest, hrun']
  refine ⟨rfl, ?_, fun e he hmodified => ?_, htree, hm, hu, hs, hf, ?_⟩
  · rw [Request.path?_events, Request.path?_events]
  · exact hnone (List.mem_filterMap.2 ⟨e, he, hmodified⟩)
  · show Session.exitCode mode _ = 0
    simp [Session.exitCode, hm]

/-! ### A file behind links -/

/-- A directory with a file that lacks a limit and two links to it, one on each side of it. -/
def linkedFiles : Tree where
  entries := [([.letter 19], .dir),
    ([.letter 19, .letter 0], .link [0x62]),
    ([.letter 19, .letter 1], .file (.text "test(() async \x7b\x7d)".toList)),
    ([.letter 19, .letter 2], .link [0x62])]
  nodup := by decide

theorem linksWithinLimit_linkedFiles : linkedFiles.LinksWithinLimit allFiles.dir := by
  intro base names hbase hget
  have hdir : linkedFiles.directory allFiles.dir = .ok [.letter 19] := by decide
  rw [hdir] at hbase
  cases hbase
  have hmem := Tree.mem_of_get? (by simp) hget
  simp only [linkedFiles, List.map_cons, List.map_nil, List.mem_cons, List.cons_append,
    List.nil_append, List.cons.injEq, true_and, List.not_mem_nil, or_false] at hmem
  rcases hmem with rfl | rfl | rfl | rfl <;> decide

theorem candidates_linkedFiles : allFiles.candidates System.plain linkedFiles =
    .ok [⟨[], .letter 0⟩, ⟨[], .letter 1⟩, ⟨[], .letter 2⟩] :=
  Candidate.listing_of_search (by decide) (by decide)

/-- The link before the file becomes a file of its own, then the file is replaced, and the link
behind it shows the new text. -/
theorem statuses_linkedFiles : (allFiles.recordOf System.plain
    [⟨[], .letter 0⟩, ⟨[], .letter 1⟩, ⟨[], .letter 2⟩]
      linkedFiles).events.filterMap Event.status? = [.modified, .modified, .unchanged] := by
  decide +kernel

/-- The runs converge there: a check with other seconds finds nothing to do. -/
theorem run_converges_behind_links : linkedFiles.LinksWithinLimit allFiles.dir ∧
    ∃ n n', (allFiles.run System.plain linkedFiles).result = .ok n ∧
      n.modified = 2 ∧ n.unchanged = 1 ∧
      (∀ e ∈ (allFiles.run System.plain linkedFiles).events, ¬ e.ReportsFailedWrite) ∧
      ({ allFiles with mode := .check, budget := { ordinarySeconds := 7 } }.run System.plain
        (allFiles.run System.plain linkedFiles).tree).result = .ok n' ∧
      ({ allFiles with mode := .check, budget := { ordinarySeconds := 7 } }.run System.plain
        (allFiles.run System.plain linkedFiles).tree).tree =
          (allFiles.run System.plain linkedFiles).tree ∧
      n'.modified = 0 ∧ n'.unchanged = 3 := by
  have hrun := Request.run_of_candidates candidates_linkedFiles
  have hresult := Request.result_eq_ok_iff.2 ⟨_, candidates_linkedFiles, hrun, rfl⟩
  have hcount := allFiles.count_tallyOf System.plain
    [⟨[], .letter 0⟩, ⟨[], .letter 1⟩, ⟨[], .letter 2⟩] linkedFiles
  rw [statuses_linkedFiles] at hcount
  have hwrites : ∀ e ∈ (allFiles.run System.plain linkedFiles).events,
      ¬ e.ReportsFailedWrite := by
    intro e he hfailed
    rw [hrun] at he
    have hmem := List.mem_filterMap.2 ⟨e, he, hfailed.status?⟩
    rw [statuses_linkedFiles] at hmem
    revert hmem
    decide
  obtain ⟨-, n', -, -, hrun', -, -, htree, hm, hu, -⟩ := run_converges
    linksWithinLimit_linkedFiles rfl hresult hwrites
    (rfl : System.plain.closed = System.plain.closed) .check { ordinarySeconds := 7 }
  have hmodified := hcount .modified
  have hunchanged := hcount .unchanged
  simp only [Tally.count] at hmodified hunchanged
  rw [hmodified, hunchanged] at hu
  exact ⟨linksWithinLimit_linkedFiles, _, n', hresult, hmodified, hunchanged, hwrites, hrun',
    htree, hm, hu⟩

end TimeLimit
