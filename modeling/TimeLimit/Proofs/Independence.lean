import TimeLimit.Proofs.Shape
import TimeLimit.Proofs.Turn

/-!
# Files of a run are independent

Where no candidate is a symbolic link, a run treats each file as if it were alone
(`files_are_independent`): what it reports of a file, and what it leaves there, is what treating
that file in the tree at the start gives. For the path of such a candidate leads to its own entry
(`Candidate.Listed.regular`), candidates stand at locations of their own
(`Candidate.nodup_listing`), and a turn changes nothing but the content of one file, so that the
tree keeps its shape (`Request.handle_local`, `Request.turns_local`). Whether a file can be written
is seen from that shape too (`System.write_cases_of_sameShape`): the system decides by the path and
by the names that are taken.
-/

namespace TimeLimit

/-! ## Writing in trees of the same shape -/

namespace Tree.SameShape

variable {t t' : Tree} {path : Path}

theorem put (h : t.SameShape t') {loc : Location} (hne : loc ≠ []) (e : Entry) :
    (t.put loc e).SameShape (t'.put loc e) := by
  intro x
  rw [get?_put t hne, get?_put t' hne]
  split
  · rfl
  · exact h x

theorem taken_eq (h : t.SameShape t') (dir : Location) : t'.taken dir = t.taken dir := by
  funext name
  rw [taken, taken, ← Option.isSome_map (f := Entry.shape), h, Option.isSome_map]

/-- A path leads somewhere in both trees or in none. -/
theorem exists_entry_iff (h : t.SameShape t') :
    (∃ e, t'.entry path = .ok e) ↔ ∃ e, t.entry path = .ok e := by
  rw [entry, entry, h.resolve_eq]
  cases t.resolve path with
  | error cause => rfl
  | ok x =>
    have hx : t'.get? x = none ↔ t.get? x = none := h.get?_eq_none_iff
    simp only [ok_bind]
    cases ht : t.get? x <;> cases ht' : t'.get? x <;> simp_all

end Tree.SameShape

namespace System

variable {sys : System} {t t' : Tree} {path : Path} {temp : Location}

theorem copyPermissions_of_sameShape (h : t.SameShape t') :
    sys.copyPermissions path t' = sys.copyPermissions path t := by
  have hiff : (∃ e, t'.entry path = .ok e) ↔ ∃ e, t.entry path = .ok e := h.exists_entry_iff
  unfold copyPermissions
  cases ht : t.entry path <;> cases ht' : t'.entry path <;> simp_all

/-- A temporary file is moved in both trees or in none, and for the same reason. -/
theorem settle_of_sameShape (sys : System) (path : Path) (h : t.SameShape t') {e e' : Entry}
    (he : t.get? temp = some e) (he' : t'.get? temp = some e') :
    (sys.settle path temp t').map (fun _ => ()) =
      (sys.settle path temp t).map fun _ => () := by
  have htarget : t'.target path = t.target path := by
    simp only [Tree.target, h.directoryAt_eq, h.get?_eq_dir_iff]
  unfold settle
  rw [copyPermissions_of_sameShape h]
  cases sys.flush path with
  | error cause => rfl
  | ok _ =>
    cases sys.copyPermissions path t with
    | error cause => rfl
    | ok _ =>
      cases sys.move path with
      | error cause => rfl
      | ok _ =>
        simp only [ok_bind, persist, htarget, he, he']
        split
        · rfl
        · cases t.target path <;> rfl

/-- What is made of a temporary file does not depend on what other files hold. -/
theorem finish_of_sameShape (sys : System) (path : Path) (contents : Text) (h : t.SameShape t')
    (hne : temp ≠ []) :
    (sys.finish path contents temp t').1 = (sys.finish path contents temp t).1 := by
  have hsettle := sys.settle_of_sameShape path (h.put hne (.file (.text contents)))
    (Tree.get?_put_self t hne _) (Tree.get?_put_self t' hne _)
  unfold finish fill
  cases sys.fault path with
  | some fault => rfl
  | none =>
    dsimp only
    revert hsettle
    generalize sys.settle path temp (t.put temp (.file (.text contents))) = result
    generalize sys.settle path temp (t'.put temp (.file (.text contents))) = result'
    cases result <;> cases result' <;> simp [Except.map]

/-- A file is written in both trees or in none, and for the same reason. -/
theorem write_of_sameShape (sys : System) (path : Path) (contents : Text) (h : t.SameShape t') :
    (sys.write path contents t').1 = (sys.write path contents t).1 := by
  unfold write create
  rw [h.directoryAt_eq]
  cases t.directoryAt (Path.directoryPieces path) with
  | error cause => rfl
  | ok dir =>
    simp only [ok_bind, h.taken_eq]
    cases sys.temp path dir (t.taken dir) with
    | error cause => rfl
    | ok name =>
      have hne := Tree.concat_ne_root dir name
      have hfinish := sys.finish_of_sameShape path contents
        (h.put hne (.file (.text []))) hne
      simp only [ok_bind, pure, Except.pure]
      revert hfinish
      generalize sys.finish path contents (dir ++ [name])
        (t.put (dir ++ [name]) (.file (.text []))) = result
      generalize sys.finish path contents (dir ++ [name])
        (t'.put (dir ++ [name]) (.file (.text []))) = result'
      obtain ⟨_ | _, _⟩ := result <;> obtain ⟨_ | _, _⟩ := result' <;> simp

/-- A file is put at the same place of both trees, or of neither and for the same reason. -/
theorem write_cases_of_sameShape (sys : System) (h : t.SameShape t') (path : Path)
    (contents : Text) :
    (∃ fault, sys.write path contents t = (.error fault, t) ∧
      sys.write path contents t' = (.error fault, t')) ∨
    ∃ loc, t.place path = .ok loc ∧
      sys.write path contents t = (.ok (), t.put loc (.file (.text contents))) ∧
      sys.write path contents t' = (.ok (), t'.put loc (.file (.text contents))) := by
  have hsame := sys.write_of_sameShape path contents h
  rcases sys.write_cases path contents t with ⟨cause, hw⟩ | ⟨loc, hloc, hw⟩
  all_goals rcases sys.write_cases path contents t' with ⟨cause', hw'⟩ | ⟨loc', hloc', hw'⟩
  all_goals rw [hw, hw'] at hsame
  · cases hsame
    exact .inl ⟨_, hw, hw'⟩
  · cases hsame
  · cases hsame
  · rw [h.place_eq, hloc] at hloc'
    cases hloc'
    exact .inr ⟨loc, hloc, hw, hw'⟩

end System

/-! ## Regular files -/

/-- The path leads to a file, and what is replaced there is that file: the path does not end in a
link. -/
structure Tree.Regular (t : Tree) (path : Path) (loc : Location) : Prop where
  resolve : t.resolve path = .ok loc
  place : t.place path = .ok loc
  file : ∃ c, t.get? loc = some (.file c)

namespace Tree.Regular

variable {t t' : Tree} {path : Path} {loc : Location}

theorem ne_root (h : t.Regular path loc) : loc ≠ [] := by
  rintro rfl
  obtain ⟨c, hc⟩ := h.file
  cases hc

theorem of_sameShape (h : t.Regular path loc) (hshape : t.SameShape t') : t'.Regular path loc where
  resolve := (hshape.resolve_eq path).trans h.resolve
  place := (hshape.place_eq path).trans h.place
  file := by
    obtain ⟨c, hc⟩ := h.file
    exact hshape.exists_file hc

/-- What is done to a regular file depends on its content alone, and changes nothing else: in a tree
of the same shape in which the file holds the same, the outcome is the same, the file holds the
same afterwards, and every other location has the entry it had. -/
theorem treat_local (h : t.Regular path loc) (hshape : t.SameShape t')
    (hget : t'.get? loc = t.get? loc) (sys : System) (mode : Mode) (seconds : UInt64) :
    (sys.treat mode path seconds t').1 = (sys.treat mode path seconds t).1 ∧
      t.SameShape (sys.treat mode path seconds t').2 ∧
      (sys.treat mode path seconds t').2.get? loc = (sys.treat mode path seconds t).2.get? loc ∧
      ∀ x, x ≠ loc → (sys.treat mode path seconds t').2.get? x = t'.get? x := by
  rw [System.treat_eq, System.treat_eq, hshape.read_eq h.resolve hget]
  obtain ⟨o, _ | text⟩ := judge mode path seconds (t.read path)
  · exact ⟨rfl, hshape, hget, fun x _ => rfl⟩
  · rcases sys.write_cases_of_sameShape hshape path text with
      ⟨fault, hwrite, hwrite'⟩ | ⟨loc', hloc', hwrite, hwrite'⟩
    · simp only [hwrite, hwrite']
      exact ⟨trivial, hshape, hget, fun x _ => trivial⟩
    · rw [h.place] at hloc'
      cases hloc'
      obtain ⟨c, hc⟩ := (h.of_sameShape hshape).file
      simp only [hwrite, hwrite', get?_put_self _ h.ne_root]
      exact ⟨trivial, hshape.trans (sameShape_put hc h.ne_root _), trivial,
        fun x hx => get?_put_of_ne t' hx _⟩

end Tree.Regular

/-- A listed candidate that is no link is a regular file. -/
theorem Candidate.Listed.regular {sys : System} {t : Tree} {dir : Path} {suffix : Text}
    {recursive : Bool} {base : Location} {c : Candidate}
    (h : Listed sys t dir suffix recursive base c) (hdir : t.directory dir = .ok base)
    (hlink : ∀ target, t.get? (base ++ c.names) ≠ some (.link target)) :
    t.Regular (c.path dir) (base ++ c.names) := by
  obtain ⟨e, he, hne⟩ := h.entry
  obtain ⟨x, hx⟩ := Tree.exists_resolve_of_isFile h.isFile
  obtain ⟨hnul, hpath, hsize, -⟩ := Tree.resolve_eq_ok_iff.1 hx
  have hwalk := walk_path hdir h.dirs he fun target ht => hlink target (ht ▸ he)
  refine ⟨Tree.resolve_eq_ok_iff.2 ⟨hnul, hpath, hsize, hwalk⟩, h.place_eq hdir, ?_⟩
  cases e with
  | file k => exact ⟨k, he⟩
  | dir => exact absurd rfl hne
  | link target => exact absurd he (hlink target)

/-! ## Turns -/

namespace Request

variable (r : Request) (sys : System)

/-- The event of a candidate that is treated in a tree by itself: its name is to be skipped, or its
file is treated within the seconds of its class. -/
def eventAlone (t : Tree) (c : Candidate) : Event :=
  if c.name.text ∈ r.skip then .file (c.path r.dir) none 0 .ofSkipped
  else
    let fileClass := r.budget.classOf c.name.text
    let seconds := r.budget.secondsFor fileClass
    .file (c.path r.dir) (some fileClass) seconds
      (sys.treat r.mode (c.path r.dir) seconds t).1

theorem eventAt_eq_eventAlone (c : Candidate) (t : Tree) :
    r.eventAt sys (c, t) = r.eventAlone sys t c := by
  rw [eventAt, eventAlone]
  by_cases hskip : c.name.text ∈ r.skip
  · rw [r.handle_of_allot?_none sys (if_pos hskip), if_pos hskip]
  · rw [r.handle_of_allot?_some sys (if_neg hskip), if_neg hskip]

variable {t t' : Tree}

/-- What a turn reports of a regular file and does to it depends on its content alone, and a turn
changes nothing else. -/
theorem handle_local {c : Candidate} {loc : Location} (h : t.Regular (c.path r.dir) loc)
    (hshape : t.SameShape t') (hget : t'.get? loc = t.get? loc) :
    r.eventAt sys (c, t') = r.eventAt sys (c, t) ∧ t.SameShape (r.handle sys c t').2.2 ∧
      (r.handle sys c t').2.2.get? loc = (r.handle sys c t).2.2.get? loc ∧
      ∀ x, x ≠ loc → (r.handle sys c t').2.2.get? x = t'.get? x := by
  cases ha : r.allot? c with
  | none =>
    rw [eventAt, eventAt, r.handle_of_allot?_none sys ha, r.handle_of_allot?_none sys ha]
    exact ⟨rfl, hshape, hget, fun x _ => rfl⟩
  | some allotted =>
    obtain ⟨fileClass, seconds⟩ := allotted
    obtain ⟨ho, htreat⟩ := h.treat_local hshape hget sys r.mode seconds
    rw [eventAt, eventAt, r.handle_of_allot?_some sys ha, r.handle_of_allot?_some sys ha]
    exact ⟨congrArg (Event.file (c.path r.dir) (some fileClass) seconds) ho, htreat⟩

/-- Turns over regular files at locations of their own treat each as it is treated by itself: so
much of the tree at the start is left, turn by turn, as the candidates that are still to come
need. -/
theorem turns_local (loc : Candidate → Location) {cs : List Candidate}
    (hregular : ∀ c ∈ cs, t.Regular (c.path r.dir) (loc c))
    (hdistinct : cs.Pairwise fun c d => loc c ≠ loc d) (hshape : t.SameShape t')
    (hget : ∀ c ∈ cs, t'.get? (loc c) = t.get? (loc c)) :
    (r.turns sys cs t').map (r.eventAt sys) = cs.map (r.eventAlone sys t) ∧
      (∀ c ∈ cs, (r.treeAfter sys cs t').get? (loc c) = (r.handle sys c t).2.2.get? (loc c)) ∧
      ∀ x, (∀ c ∈ cs, x ≠ loc c) → (r.treeAfter sys cs t').get? x = t'.get? x := by
  induction cs generalizing t' with
  | nil => exact ⟨rfl, List.forall_mem_nil _, fun x _ => rfl⟩
  | cons c cs ih =>
    rw [List.pairwise_cons] at hdistinct
    rw [List.forall_mem_cons] at hregular hget
    obtain ⟨hevent, hshape', hown, hothers⟩ := r.handle_local sys hregular.1 hshape hget.1
    have hnext (d : Candidate) (hd : d ∈ cs) :
        (r.handle sys c t').2.2.get? (loc d) = t.get? (loc d) := by
      rw [hothers _ (hdistinct.1 d hd).symm, hget.2 d hd]
    obtain ⟨hevents, howns, hrest⟩ := ih hregular.2 hdistinct.2 hshape' hnext
    rw [treeAfter]
    refine ⟨?_, ?_, fun x hx => ?_⟩
    · rw [turns, List.map_cons, List.map_cons, hevent, eventAt_eq_eventAlone, hevents]
    · rw [List.forall_mem_cons]
      exact ⟨(hrest _ hdistinct.1).trans hown, howns⟩
    · rw [List.forall_mem_cons] at hx
      rw [hrest x hx.2, hothers x hx.1]

/-! ## Runs -/

/-- No candidate of a request is a symbolic link. -/
def FindsNoLinks (t : Tree) : Prop :=
  ∀ base cs, t.directory r.dir = .ok base → r.candidates sys t = .ok cs →
    ∀ c ∈ cs, ∀ target, t.get? (base ++ c.names) ≠ some (.link target)

end Request

/-- The record of a run that treats each of some candidates as if it were alone in the tree. -/
structure Record.Separate (r : Request) (sys : System) (base : Location) (cs : List Candidate)
    (t : Tree) (record : Record) : Prop where
  events : ∃ n, record.result = .ok n ∧ record.events =
    .start r.dir cs.length :: (cs.map (r.eventAlone sys t) ++ [.complete n])
  own : ∀ c ∈ cs,
    record.tree.get? (base ++ c.names) = (r.handle sys c t).2.2.get? (base ++ c.names)
  others : ∀ loc, (∀ c ∈ cs, loc ≠ base ++ c.names) → record.tree.get? loc = t.get? loc

namespace Request

variable {r : Request} {sys : System} {t t' : Tree} {base : Location} {cs : List Candidate}

/-- Candidates at one location are one. -/
theorem ne_of_candidates_ne {c d : Candidate} (h : c ≠ d) : base ++ c.names ≠ base ++ d.names :=
  fun he => h (Candidate.key_injective
    (congrArg (List.map Name.bytes) (List.append_cancel_left he)))

/-- Where no candidate is a link, all are regular files at locations of their own. -/
theorem regular_of_candidates (hlinks : r.FindsNoLinks sys t)
    (hbase : t.directory r.dir = .ok base) (hcs : r.candidates sys t = .ok cs) :
    (∀ c ∈ cs, t.Regular (c.path r.dir) (base ++ c.names)) ∧
      cs.Pairwise fun c d => base ++ c.names ≠ base ++ d.names :=
  ⟨fun c hc => ((Candidate.mem_listing_iff hcs hbase).1 hc).regular hbase
    (hlinks base cs hbase hcs c hc), (Candidate.nodup_listing hcs).imp ne_of_candidates_ne⟩

theorem separate_recordOf (hlinks : r.FindsNoLinks sys t)
    (hbase : t.directory r.dir = .ok base) (hcs : r.candidates sys t = .ok cs) :
    (r.recordOf sys cs t).Separate r sys base cs t := by
  obtain ⟨hregular, hdistinct⟩ := regular_of_candidates hlinks hbase hcs
  obtain ⟨hevents, hown, hothers⟩ := r.turns_local sys (fun c => base ++ c.names) hregular
    hdistinct (.refl t) (fun _ _ => rfl)
  exact ⟨⟨_, rfl, by rw [recordOf, hevents]⟩, hown, hothers⟩

/-- Trees of the same shape have the same candidates. -/
theorem candidates_of_sameShape (h : t.SameShape t') :
    r.candidates sys t' = r.candidates sys t :=
  Candidate.listing_of_sameShape sys h r.dir r.suffix r.recursive

theorem FindsNoLinks.of_sameShape (hlinks : r.FindsNoLinks sys t) (h : t.SameShape t') :
    r.FindsNoLinks sys t' := by
  intro base cs hbase hcs c hc target hlink
  rw [h.directory_eq] at hbase
  rw [candidates_of_sameShape h] at hcs
  exact hlinks base cs hbase hcs c hc target (h.symm.get?_eq_of_not_file hlink nofun)

end Request

/-- **Files are independent.** Suppose that a run succeeds on a tree and that none of its candidates
is a symbolic link, whatever the system refuses on the way. Then what it reports of each candidate
is what is reported when that candidate is treated in the tree at the start, whatever the other
files hold; so is what it leaves at the candidate's location, and every other location keeps its
entry. In a tree that differs from this one in what the file of one candidate holds, the run
succeeds too and has the same candidates; it reports the same of all others, and leaves the same at
all other locations. -/
theorem files_are_independent {r : Request} {sys : System} {t : Tree} {n : Tally}
    (hlinks : r.FindsNoLinks sys t) (hrun : (r.run sys t).result = .ok n) :
    ∃ base cs, t.directory r.dir = .ok base ∧ r.candidates sys t = .ok cs ∧
      (r.run sys t).Separate r sys base cs t ∧
      ∀ c₀ ∈ cs, ∀ t', (∃ k, t'.get? (base ++ c₀.names) = some (.file k)) →
        (∀ loc, loc ≠ base ++ c₀.names → t'.get? loc = t.get? loc) →
        (r.run sys t').Separate r sys base cs t' ∧
          (∀ c ∈ cs, c ≠ c₀ → r.eventAlone sys t' c = r.eventAlone sys t c) ∧
          ∀ loc, loc ≠ base ++ c₀.names →
            (r.run sys t').tree.get? loc = (r.run sys t).tree.get? loc := by
  obtain ⟨cs, hcs, hrecord, -⟩ := Request.result_eq_ok_iff.1 hrun
  obtain ⟨base, hbase, -⟩ := Candidate.exists_of_listing hcs
  obtain ⟨hregular, hdistinct⟩ := Request.regular_of_candidates hlinks hbase hcs
  have hseparate := Request.separate_recordOf hlinks hbase hcs
  rw [hrecord]
  refine ⟨base, cs, hbase, hcs, hseparate, fun c₀ hc₀ t' hfile hothers => ?_⟩
  obtain ⟨k, hk⟩ := hfile
  obtain ⟨k₀, hk₀⟩ := (hregular c₀ hc₀).file
  have hshape := Tree.sameShape_of_one_file hk₀ hk hothers
  have hbase' : t'.directory r.dir = .ok base := (hshape.directory_eq r.dir).trans hbase
  have hcs' : r.candidates sys t' = .ok cs := (Request.candidates_of_sameShape hshape).trans hcs
  have hseparate' := Request.separate_recordOf (hlinks.of_sameShape hshape) hbase' hcs'
  -- at the location of another candidate nothing differs
  have hlocal (c : Candidate) (hc : c ∈ cs) (hne : base ++ c.names ≠ base ++ c₀.names) :=
    r.handle_local sys (hregular c hc) hshape (hothers _ hne)
  rw [Request.run_of_candidates hcs']
  refine ⟨hseparate', fun c hc hne => ?_, fun loc hloc => ?_⟩
  · rw [← Request.eventAt_eq_eventAlone, ← Request.eventAt_eq_eventAlone]
    exact (hlocal c hc (Request.ne_of_candidates_ne hne)).1
  · by_cases hcandidate : ∃ c ∈ cs, loc = base ++ c.names
    · obtain ⟨c, hc, rfl⟩ := hcandidate
      rw [hseparate'.own c hc, hseparate.own c hc]
      exact (hlocal c hc hloc).2.2.1
    · have hnone : ∀ c ∈ cs, loc ≠ base ++ c.names := fun c hc he => hcandidate ⟨c, hc, he⟩
      rw [hseparate'.others loc hnone, hseparate.others loc hnone, hothers loc hloc]

theorem directory_twoFiles : twoFiles.directory allFiles.dir = .ok [.letter 19] := by
  decide

theorem candidates_twoFiles : allFiles.candidates System.plain twoFiles =
    .ok [⟨[], .letter 0⟩, ⟨[], .letter 1⟩] :=
  Candidate.listing_of_search (by decide) (by decide)

theorem findsNoLinks_twoFiles : allFiles.FindsNoLinks System.plain twoFiles := by
  intro base cs hbase hcs c hc target
  rw [directory_twoFiles] at hbase
  rw [candidates_twoFiles] at hcs
  cases hbase
  cases hcs
  simp only [List.mem_cons, List.not_mem_nil, or_false] at hc
  rcases hc with rfl | rfl
  · rintro ⟨⟩
  · rintro ⟨⟩

/-- The second file is treated in the same way when the bytes of the first are no text. -/
theorem second_file_ignores_first : allFiles.FindsNoLinks System.plain twoFiles ∧
    (∃ n, (allFiles.run System.plain twoFiles).result = .ok n) ∧
    ∃ t', t' = twoFiles.put [.letter 19, .letter 0] (.file (.ofBytes ⟨#[0xff]⟩)) ∧
      allFiles.eventAlone System.plain t' ⟨[], .letter 1⟩ =
        allFiles.eventAlone System.plain twoFiles ⟨[], .letter 1⟩ ∧
      (allFiles.run System.plain t').tree.get? [.letter 19, .letter 1] =
        (allFiles.run System.plain twoFiles).tree.get? [.letter 19, .letter 1] := by
  have hrun := Request.run_of_candidates candidates_twoFiles
  have hresult := Request.result_eq_ok_iff.2 ⟨_, candidates_twoFiles, hrun, rfl⟩
  obtain ⟨base, cs, hbase, hcs, -, hother⟩ :=
    files_are_independent findsNoLinks_twoFiles hresult
  rw [directory_twoFiles] at hbase
  rw [candidates_twoFiles] at hcs
  cases hbase
  cases hcs
  obtain ⟨-, hevent, hget⟩ := hother ⟨[], .letter 0⟩ List.mem_cons_self
    (twoFiles.put [.letter 19, .letter 0] (.file (.ofBytes ⟨#[0xff]⟩)))
    ⟨_, Tree.get?_put_self twoFiles (by decide) _⟩
    (fun loc hloc => Tree.get?_put_of_ne twoFiles hloc _)
  exact ⟨findsNoLinks_twoFiles, ⟨_, hresult⟩, _, rfl,
    hevent ⟨[], .letter 1⟩ (by simp) (by decide), hget _ (by decide)⟩

end TimeLimit
