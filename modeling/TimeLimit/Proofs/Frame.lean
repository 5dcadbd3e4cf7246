import TimeLimit.Proofs.Evolution
import TimeLimit.Session

/-!
# What a run touches

A run in write mode changes the entries of the files that it reports as modified, and nothing else
(`run_touches_only_reported`). Each turn changes one entry at most (`Request.handle_tree`,
`Request.handle_replaced`), also one whose replacement fails half-way. What a turn has put in its
place stays there, because no later turn has anything to add to it (`Tree.Evolves.settled`), and the
places of later turns are those they had before the run (`Tree.Evolves.place`).
-/

namespace TimeLimit

namespace Request

variable (r : Request) (sys : System) {cs : List Candidate} {t : Tree}

/-- A run that writes nothing leaves the tree as it is. -/
theorem treeAfter_of_not_writes (hmode : r.mode.writes = false) : r.treeAfter sys cs t = t := by
  induction cs with
  | nil => rfl
  | cons c cs ih =>
    have hturn : (r.handle sys c t).2.2 = t :=
      r.handle_tree sys fun h => absurd h (by simp [hmode])
    rw [treeAfter, hturn, ih]

/-- What a turn reports as replaced holds its revision at the end of the run. -/
theorem get?_of_replaced (hmode : r.mode.writes = true)
    (hfiles : ∀ c ∈ cs, t.isFile (c.path r.dir) = true) {x : Candidate × Tree}
    (hx : x ∈ r.turns sys cs t) (hmodified : (r.eventAt sys x).status? = some .modified) :
    x.1.name.text ∉ r.skip ∧ ∃ source loc, x.2.read (x.1.path r.dir) = .ok source ∧
      t.place (x.1.path r.dir) = .ok loc ∧
      (r.treeAfter sys cs t).get? loc = some (.file (.text (Revision.of source
        (if x.1.name.text ∈ r.budget.networkFiles then r.budget.networkSeconds
          else r.budget.ordinarySeconds)).text)) := by
  induction cs generalizing t with
  | nil => cases hx
  | cons c cs ih =>
    rw [treeAfter]
    rcases List.mem_cons.1 hx with rfl | hx
    · obtain ⟨hskip, source, loc, hread, hplace, htree⟩ := r.handle_replaced sys hmode hmodified
      refine ⟨hskip, source, loc, hread, hplace, ?_⟩
      obtain ⟨dir, name, -, rfl, -⟩ := Tree.exists_shows hread hplace
      refine (r.evolves_treeAfter sys cs _).settled _ _ ?_ (settled_revision _ _)
      rw [htree, Tree.get?_put_self t (Tree.concat_ne_root dir name)]
    · have hturn := r.evolves_handle sys c t
      have hfile := hfiles x.1 (List.mem_cons_of_mem _ (r.mem_of_mem_turns sys hx))
      obtain ⟨hskip, source, loc, hread, hplace, hget⟩ := ih
        (fun c' hc' => hturn.isFile_of_isFile (hfiles c' (List.mem_cons_of_mem _ hc'))) hx
      exact ⟨hskip, source, loc, hread, by rw [← hturn.place _ hfile, hplace], hget⟩

/-- A location that is the place of no replaced file keeps its entry. -/
theorem get?_of_not_replaced (hfiles : ∀ c ∈ cs, t.isFile (c.path r.dir) = true)
    {loc : Location} (hloc : ∀ x ∈ r.turns sys cs t, (r.eventAt sys x).status? = some .modified →
      t.place (x.1.path r.dir) ≠ .ok loc) : (r.treeAfter sys cs t).get? loc = t.get? loc := by
  induction cs generalizing t with
  | nil => rfl
  | cons c cs ih =>
    have hturn := r.evolves_handle sys c t
    rw [treeAfter, ih]
    · by_cases h : r.mode.writes = true ∧ (r.eventAt sys (c, t)).status? = some .modified
      · obtain ⟨hmode, hmodified⟩ := h
        obtain ⟨-, source, loc', -, hplace, htree⟩ := r.handle_replaced sys hmode hmodified
        have hne : loc ≠ loc' := by
          rintro rfl
          exact hloc (c, t) List.mem_cons_self hmodified hplace
        rw [htree, Tree.get?_put_of_ne t hne]
      · rw [r.handle_tree sys fun hmode hmodified => h ⟨hmode, hmodified⟩]
    · exact fun c' hc' => hturn.isFile_of_isFile (hfiles c' (List.mem_cons_of_mem _ hc'))
    · intro x hx hmodified hplace
      have hfile := hfiles x.1 (List.mem_cons_of_mem _ (r.mem_of_mem_turns sys hx))
      exact hloc x (List.mem_cons_of_mem _ hx) hmodified (by rw [← hturn.place _ hfile, hplace])

end Request

/-- **A run touches exactly what it reports**, whatever the system refuses on the way. The events of
a run that is not refused are those of its turns, and the place of a candidate is the entry below
the directory that its names lead to. In write mode, a file that its turn reports as modified is not
skipped, and at the end the entry at its place is a file with the revision of the text that the turn
read, for the seconds of its name. Every other location has the entry it had, those of files whose
write failed included, and no location is new or gone, so no temporary file is left. In the other
modes the tree stays as it is. A run that is refused tells nothing, prints nothing and leaves the
tree as it is. -/
theorem run_touches_only_reported (r : Request) (sys : System) (t : Tree) :
    (∀ n, (r.run sys t).result = .ok n → ∃ base cs,
      t.directory r.dir = .ok base ∧ r.candidates sys t = .ok cs ∧
      (r.run sys t).events = .start r.dir cs.length ::
        ((r.turns sys cs t).map (r.eventAt sys) ++ [.complete n]) ∧
      (∀ c ∈ cs, t.place (c.path r.dir) = .ok (base ++ c.names)) ∧
      (r.mode = .write →
        (∀ x ∈ r.turns sys cs t, (r.eventAt sys x).status? = some .modified →
          x.1.name.text ∉ r.skip ∧ ∃ source, x.2.read (x.1.path r.dir) = .ok source ∧
            (r.run sys t).tree.get? (base ++ x.1.names) = some (.file (.text (Revision.of source
              (if x.1.name.text ∈ r.budget.networkFiles then r.budget.networkSeconds
                else r.budget.ordinarySeconds)).text))) ∧
        (∀ loc, (∀ x ∈ r.turns sys cs t, (r.eventAt sys x).status? = some .modified →
            loc ≠ base ++ x.1.names) → (r.run sys t).tree.get? loc = t.get? loc) ∧
        (r.run sys t).tree.entries.map Prod.fst = t.entries.map Prod.fst) ∧
      (r.mode ≠ .write → (r.run sys t).tree = t)) ∧
    (∀ refusal, (r.run sys t).result = .error refusal →
      (r.run sys t).events = [] ∧ (r.run sys t).tree = t ∧
      (Session.ofRequest r sys t).printed = {} ∧ (Session.ofRequest r sys t).tree = t) := by
  refine ⟨fun n hrun => ?_, fun refusal hrun => ?_⟩
  · obtain ⟨cs, hcs, hrecord, rfl⟩ := Request.result_eq_ok_iff.1 hrun
    obtain ⟨base, hbase, hlisted⟩ := Candidate.listed_of_listing hcs
    have hfiles (c : Candidate) (hc : c ∈ cs) := (hlisted c hc).isFile
    have hplaces (c : Candidate) (hc : c ∈ cs) := (hlisted c hc).place_eq hbase
    rw [hrecord]
    refine ⟨base, cs, hbase, hcs, rfl, hplaces,
      fun hmode => ⟨fun x hx hmodified => ?_, fun loc hloc => ?_, ?_⟩, fun hmode => ?_⟩
    · obtain ⟨hskip, source, loc, hread, hplace, hget⟩ :=
        r.get?_of_replaced sys (by rw [hmode]; rfl) hfiles hx hmodified
      rw [hplaces _ (r.mem_of_mem_turns sys hx)] at hplace
      cases hplace
      exact ⟨hskip, source, hread, hget⟩
    · refine r.get?_of_not_replaced sys hfiles fun x hx hmodified hplace => hloc x hx hmodified ?_
      rw [hplaces _ (r.mem_of_mem_turns sys hx)] at hplace
      exact (Except.ok.inj hplace).symm
    · exact (r.evolves_treeAfter sys cs t).locations
    · exact r.treeAfter_of_not_writes sys (Mode.writes_of_ne hmode)
  · obtain ⟨hevents, htree⟩ := Request.of_result_error hrun
    refine ⟨hevents, htree, ?_, htree⟩
    rw [Session.ofRequest, hevents]
    rfl

/-- A system on which the disk is full when the text for the first of these files is half
written. -/
def fullForFirst : System :=
  { System.plain with
    fault := fun path => if path = [0x74, 0x2F, 0x61] then
      some (.other "No space left on device".toList 28, .text "test(()".toList) else none }

theorem candidates_fullForFirst : allFiles.candidates fullForFirst twoFiles =
    .ok [⟨[], .letter 0⟩, ⟨[], .letter 1⟩] :=
  Candidate.listing_of_search (by decide) (by decide)

/-- The write fails. -/
theorem eventAt_fullForFirst :
    allFiles.eventAt fullForFirst (⟨[], .letter 0⟩, twoFiles) =
      .file [0x74, 0x2F, 0x61] (some .ordinary) 5 (.ofFault (.unwritable [0x74, 0x2F, 0x61]
        (.other "No space left on device".toList 28))) := by
  decide +kernel

/-- The run goes on behind the file that could not be written, which holds what it held, and no
temporary file is left. -/
theorem run_touches_only_reported_when_full :
    ∃ n, (allFiles.run fullForFirst twoFiles).result = .ok n ∧
      (∃ e ∈ (allFiles.run fullForFirst twoFiles).events, e.ReportsFailedWrite) ∧
      (allFiles.run fullForFirst twoFiles).tree.get? [.letter 19, .letter 0] =
        some (.file (.text "test(() async \x7b\x7d)".toList)) ∧
      (allFiles.run fullForFirst twoFiles).tree.entries.map Prod.fst =
        twoFiles.entries.map Prod.fst := by
  have hrun := Request.run_of_candidates candidates_fullForFirst
  have hresult := Request.result_eq_ok_iff.2 ⟨_, candidates_fullForFirst, hrun, rfl⟩
  obtain ⟨base, cs, hbase, hcs, hevents, -, hwrite, -⟩ :=
    (run_touches_only_reported allFiles fullForFirst twoFiles).1 _ hresult
  obtain ⟨-, hothers, hlocations⟩ := hwrite rfl
  rw [candidates_fullForFirst] at hcs
  cases hcs
  have hbase' : twoFiles.directory allFiles.dir = .ok [.letter 19] := by decide
  rw [hbase'] at hbase
  cases hbase
  refine ⟨_, hresult, ⟨_, ?_, _, _, _, _, eventAt_fullForFirst⟩, ?_, hlocations⟩
  · rw [hevents]
    exact List.mem_cons_of_mem _ List.mem_cons_self
  · refine (hothers _ fun x hx hmodified => ?_).trans (by decide)
    rcases List.mem_cons.1 hx with rfl | hx
    · rw [eventAt_fullForFirst] at hmodified
      cases hmodified
    · rw [List.mem_singleton.1 hx]
      decide

end TimeLimit
