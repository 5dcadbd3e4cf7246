import Mathlib.Data.List.Basic
import TimeLimit.Proofs.Host
import TimeLimit.Proofs.Replace

/-!
# Replacing a file step by step

`Tree.replace` puts a file in its place at once. What really happens takes several steps: a
temporary file is made next to the place, filled, flushed, given permissions and renamed, and if one
of these steps fails the temporary file is removed (`System.write`). The name of the temporary file
is the system's choice, and the system may refuse a step for reasons that the tree does not show;
all that is a `System`. Whatever the system does, a replacement happens as a whole or not at all
(`System.write_cases`), and where the system does not stand in the way it happens exactly when
`Tree.replace` says so (`System.write_of_place`). A temporary file does not change where a path is
replaced (`Tree.target_put_new`), since it is no directory.
-/

namespace TimeLimit

namespace Tree

variable {t : Tree} {temp loc x dir : Location} {path : Path} {e : Entry} {c : Content}

/-! ## Temporary entries -/

theorem eq_of_entries_eq {t t' : Tree} (h : t.entries = t'.entries) : t = t' := by
  cases t
  cases t'
  cases h
  rfl

theorem not_mem_of_get?_eq_none (hnew : t.get? temp = none) : temp ∉ t.entries.map Prod.fst := by
  intro h
  obtain ⟨e, he⟩ := exists_get?_of_mem h
  rw [hnew] at he
  cases he

/-- A new entry stands behind all others. -/
theorem entries_put_new (hnew : t.get? temp = none) (e : Entry) :
    (t.put temp e).entries = t.entries ++ [(temp, e)] := by
  rw [put, dif_neg (not_mem_of_get?_eq_none hnew)]

/-- Of two entries put at a new location, the second stays. -/
theorem put_put (hnew : t.get? temp = none) (hne : temp ≠ []) (e e' : Entry) :
    (t.put temp e).put temp e' = t.put temp e' := by
  have hkeep : replaceEntry temp e' t.entries = t.entries := by
    conv_rhs => rw [← List.map_id t.entries]
    refine List.map_congr_left fun y hy => if_neg ?_
    rintro rfl
    exact not_mem_of_get?_eq_none hnew (List.mem_map_of_mem hy)
  refine eq_of_entries_eq ?_
  rw [entries_put hne (by rw [get?_put_self t hne]; exact nofun), entries_put_new hnew,
    entries_put_new hnew]
  unfold replaceEntry at hkeep ⊢
  rw [List.map_append, hkeep, List.map_singleton, if_pos rfl]

/-- A new entry that is removed again leaves the tree as it was. -/
theorem remove_put (hnew : t.get? temp = none) (e : Entry) : (t.put temp e).remove temp = t := by
  have hkeep : t.entries.filter (fun y => y.1 ≠ temp) = t.entries := by
    refine List.filter_eq_self.2 fun y hy => ?_
    rw [decide_eq_true_iff]
    rintro rfl
    exact not_mem_of_get?_eq_none hnew (List.mem_map_of_mem hy)
  refine eq_of_entries_eq ?_
  change ((t.put temp e).entries.filter fun y => y.1 ≠ temp) = t.entries
  rw [entries_put_new hnew, List.filter_append, hkeep,
    List.filter_cons_of_neg (by simp), List.filter_nil, List.append_nil]

section
variable (hnew : t.get? temp = none) (hne : temp ≠ [])
include hnew hne

/-- What stood in the tree stands there with a new entry. -/
theorem get?_put_new_of_some (e : Entry) {e' : Entry} (h : t.get? x = some e') :
    (t.put temp e).get? x = some e' := by
  rw [get?_put t hne, if_neg, h]
  rintro rfl
  rw [hnew] at h
  cases h

/-- A new file adds no directory. -/
theorem get?_put_new_dir (c : Content) :
    (t.put temp (.file c)).get? x = some .dir ↔ t.get? x = some .dir := by
  rw [get?_put t hne]
  split
  · next hx => simp [hx, hnew]
  · rfl

/-- A walk that ends somewhere ends there with a new entry. -/
theorem Walks.put_new (e : Entry) {n : Nat} {ps : List Path} {r : Except Cause Location}
    (hw : Walks t n loc ps r) (hr : r = .ok x) : Walks (t.put temp e) n loc ps r := by
  have hkeep {x : Location} {e' : Entry} (h : t.get? x = some e') :=
    get?_put_new_of_some hnew hne e h
  induction hw with
  | done n loc => exact .done n loc
  | outside _ | nameless _ _ _ _ | missing _ _ | tired _ _ => cases hr
  | stay hdir hs _ ih => exact .stay (hkeep hdir) hs (ih hr)
  | up hdir _ ih => exact .up (hkeep hdir) (ih hr)
  | enter hdir he hlink _ ih => exact .enter (hkeep hdir) (hkeep he) hlink (ih hr)
  | link hdir he _ ih => exact .link (hkeep hdir) (hkeep he) (ih hr)

/-- A walk to a directory does not need a new file: it could only end there. -/
theorem Walks.of_put_new {n : Nat} {ps : List Path} {r : Except Cause Location}
    (hw : Walks (t.put temp (.file c)) n loc ps r) (hr : r = .ok x) (hx : t.get? x = some .dir) :
    Walks t n loc ps r := by
  have hdirs {x : Location} := get?_put_new_dir (x := x) hnew hne c
  have hother {x : Location} (h : x ≠ temp) := get?_put_of_ne t h (.file c)
  induction hw with
  | done n loc => exact .done n loc
  | outside _ | nameless _ _ _ _ | missing _ _ | tired _ _ => cases hr
  | stay hdir hs _ ih => exact .stay (hdirs.1 hdir) hs (ih hr)
  | up hdir _ ih => exact .up (hdirs.1 hdir) (ih hr)
  | @enter n loc rest e r name hdir he hlink hw ih =>
    -- behind the new file the walk ends, and it does not end at a directory
    have hentry : loc ++ [name] ≠ temp := by
      rintro htemp
      have hwalk := hw.walk_eq
      rw [hr, htemp] at hwalk
      cases rest with
      | nil =>
        rw [walk_nil] at hwalk
        cases hwalk
        rw [hnew] at hx
        cases hx
      | cons q rest =>
        rw [walk_outside (by rw [get?_put_self t hne]; exact nofun)] at hwalk
        cases hwalk
    exact .enter (hdirs.1 hdir) (by rw [← hother hentry, he]) hlink (ih hr)
  | @link n loc rest target r name hdir he _ ih =>
    have hentry : loc ++ [name] ≠ temp := by
      rintro htemp
      rw [htemp, get?_put_self t hne] at he
      cases he
    exact .link (hdirs.1 hdir) (by rw [← hother hentry, he]) (ih hr)

end

section
variable (hnew : t.get? temp = none) (hne : temp ≠ [])
include hnew hne

theorem directoryAt_put_new (c : Content) {ps : List Path} :
    (t.put temp (.file c)).directoryAt ps = .ok dir ↔ t.directoryAt ps = .ok dir := by
  rw [directoryAt_eq_ok_iff, directoryAt_eq_ok_iff, get?_put_new_dir hnew hne]
  refine and_congr_right fun _ => and_congr_right fun _ => and_congr_left fun hdir => ?_
  rw [← walks_iff, ← walks_iff]
  exact ⟨fun hw => hw.of_put_new hnew hne rfl hdir, fun hw => hw.put_new hnew hne _ rfl⟩

/-- A path is moved to where it was, with a new file or without. -/
theorem target_put_new (c : Content) :
    (t.put temp (.file c)).target path = .ok loc ↔ t.target path = .ok loc := by
  unfold target
  split
  · exact Iff.rfl
  · simp only [bind_eq_ok_iff, ite_error_eq_ok_iff, directoryAt_put_new hnew hne,
      get?_put_new_dir hnew hne]

end

end Tree

/-! ## The steps -/

namespace System

/-- The system does not stand in the way: a temporary file can be made in the directory of the path,
and no later step is refused. -/
structure Obliges (sys : System) (t : Tree) (path : Path) : Prop where
  temp : ∀ dir, t.directoryAt (Path.directoryPieces path) = .ok dir →
    ∃ name, sys.temp path dir (t.taken dir) = .ok name
  fault : sys.fault path = none
  flush : sys.flush path = .ok ()
  permit : sys.permit path = .ok ()
  move : sys.move path = .ok ()

section
variable {sys : System} {t t' : Tree} {path : Path} {contents : Text} {temp loc : Location}

/-- Nothing stands where the temporary file is made. -/
theorem get?_of_temp {dir : Location} {name : Name}
    (h : sys.temp path dir (t.taken dir) = .ok name) : t.get? (dir ++ [name]) = none := by
  have hnew := sys.temp_new h
  rwa [Tree.taken, Option.isSome_eq_false_iff, Option.isNone_iff_eq_none] at hnew

/-- The temporary file stands in the directory of the path, where nothing stood. -/
theorem create_eq_ok_iff : sys.create path t = .ok (temp, t') ↔
    ∃ dir name, t.directoryAt (Path.directoryPieces path) = .ok dir ∧
      sys.temp path dir (t.taken dir) = .ok name ∧ temp = dir ++ [name] ∧
        t' = t.put temp (.file (.text [])) := by
  simp only [create, bind_eq_ok_iff, pure, Except.pure, Except.ok.injEq, Prod.mk.injEq]
  constructor
  · rintro ⟨dir, hdir, name, hname, rfl, rfl⟩
    exact ⟨dir, name, hdir, hname, rfl, rfl⟩
  · rintro ⟨dir, name, hdir, hname, rfl, rfl⟩
    exact ⟨dir, hdir, name, hname, rfl, rfl⟩

/-- Moving the temporary file leaves the tree as if its contents had been put in their place. -/
theorem persist_eq_ok_iff (hnew : t.get? temp = none) (hne : temp ≠ []) (c : Content) :
    persist path temp (t.put temp (.file c)) = .ok t' ↔
      Path.nul ∉ path ∧ ∃ loc, t.target path = .ok loc ∧ t.put loc (.file c) = t' := by
  simp only [persist, ite_error_eq_ok_iff, bind_eq_ok_iff, Tree.get?_put_self t hne,
    Tree.remove_put hnew, Tree.target_put_new hnew hne, Except.ok.injEq]

/-- What is settled is moved to the place of the path. -/
theorem exists_of_settle (hnew : t.get? temp = none) (hne : temp ≠ []) {c : Content}
    (h : sys.settle path temp (t.put temp (.file c)) = .ok t') :
    Path.nul ∉ path ∧ ∃ loc, t.target path = .ok loc ∧ t.put loc (.file c) = t' := by
  simp only [settle, bind_eq_ok_iff] at h
  obtain ⟨-, -, -, -, -, -, hpersist⟩ := h
  exact (persist_eq_ok_iff hnew hne c).1 hpersist

/-- Once the temporary file is made, its contents come to stand in their place, or it stays the only
thing that was added. -/
theorem finish_cases (sys : System) (path : Path) (contents : Text) (hnew : t.get? temp = none)
    (hne : temp ≠ []) (c : Content) :
    (∃ cause c', sys.finish path contents temp (t.put temp (.file c)) =
      (.error cause, t.put temp (.file c'))) ∨
    ∃ loc, Path.nul ∉ path ∧ t.target path = .ok loc ∧
      sys.finish path contents temp (t.put temp (.file c)) =
        (.ok (), t.put loc (.file (.text contents))) := by
  unfold finish fill
  cases sys.fault path with
  | some fault =>
    refine .inl ⟨fault.1, fault.2, ?_⟩
    simp only [Tree.put_put hnew hne]
  | none =>
    simp only [Tree.put_put hnew hne]
    cases hsettle : sys.settle path temp (t.put temp (.file (.text contents))) with
    | error cause => exact .inl ⟨cause, .text contents, rfl⟩
    | ok t' =>
      obtain ⟨hnul, loc, hloc, rfl⟩ := exists_of_settle hnew hne hsettle
      exact .inr ⟨loc, hnul, hloc, rfl⟩

/-- A replacement happens as a whole, at the place of the path, or it is reported and nothing has
happened. -/
theorem write_cases (sys : System) (path : Path) (contents : Text) (t : Tree) :
    (∃ cause, sys.write path contents t = (.error (.unwritable path cause), t)) ∨
    ∃ loc, t.place path = .ok loc ∧
      sys.write path contents t = (.ok (), t.put loc (.file (.text contents))) := by
  unfold write
  cases hcreate : sys.create path t with
  | error cause => exact .inl ⟨cause, rfl⟩
  | ok made =>
    obtain ⟨temp, t'⟩ := made
    obtain ⟨dir, name, hdir, hname, rfl, rfl⟩ := create_eq_ok_iff.1 hcreate
    have hnew := get?_of_temp hname
    have hne := Tree.concat_ne_root dir name
    rcases sys.finish_cases path contents hnew hne (.text []) with
      ⟨cause, c, hfinish⟩ | ⟨loc, hnul, hloc, hfinish⟩
    · -- the temporary file is all that was added, and it is removed
      refine .inl ⟨cause, ?_⟩
      simp only [hfinish, Tree.remove_put hnew]
    · refine .inr ⟨loc, ?_, ?_⟩
      · rw [Tree.place, hdir, ok_bind, if_neg hnul, hloc]
      · simp only [hfinish]

/-- Where the system does not stand in the way, what can be replaced is replaced. -/
theorem write_of_place (hsys : sys.Obliges t path) (h : t.place path = .ok loc) :
    sys.write path contents t = (.ok (), t.put loc (.file (.text contents))) := by
  simp only [Tree.place, bind_eq_ok_iff, ite_error_eq_ok_iff] at h
  obtain ⟨dir, hdir, hnul, hloc⟩ := h
  obtain ⟨name, hname⟩ := hsys.temp dir hdir
  have hnew := get?_of_temp hname
  have hne := Tree.concat_ne_root dir name
  have hcreate := create_eq_ok_iff.2 ⟨dir, name, hdir, hname, rfl, rfl⟩
  have hpersist := (persist_eq_ok_iff hnew hne (.text contents)).2 ⟨hnul, loc, hloc, rfl⟩
  have hpermit (t : Tree) : sys.copyPermissions path t = .ok () := by
    unfold copyPermissions
    cases t.entry path with
    | ok e => exact hsys.permit
    | error cause => rfl
  simp only [write, hcreate, finish, fill, settle, hsys.fault, hsys.flush, hpermit, hsys.move,
    Tree.put_put hnew hne, ok_bind, hpersist]

/-- A file that is judged to be replaced has not failed. -/
theorem status_of_judge {mode : Mode} {seconds : UInt64} {read : Except Cause Text} {o : Outcome}
    {text : Text} (h : judge mode path seconds read = (o, some text)) : o.status = .modified := by
  cases read with
  | error cause => cases h
  | ok source =>
    simp only [judge, Prod.mk.injEq, Option.ite_none_right_eq_some, Bool.and_eq_true] at h
    obtain ⟨rfl, ⟨hchanged, -⟩, -⟩ := h
    exact if_pos hchanged

/-- A file that is reported to have failed is left as it is, and so is all else. -/
theorem treat_of_failed {mode : Mode} {seconds : UInt64}
    (h : (sys.treat mode path seconds t).1.status = .failed) :
    (sys.treat mode path seconds t).2 = t := by
  revert h
  rw [treat_eq]
  generalize hjudge : judge mode path seconds (t.read path) = judged
  obtain ⟨o, _ | text⟩ := judged
  · exact fun _ => rfl
  · rcases sys.write_cases path text t with ⟨cause, hwrite⟩ | ⟨loc, -, hwrite⟩
    · simp only [hwrite]
      exact fun _ => trivial
    · simp only [hwrite, status_of_judge hjudge]
      rintro ⟨⟩

end

end System

/-! ## Atomic replacement -/

/-- The tree with a file in the place of a path, put there at once. -/
def Tree.replace (t : Tree) (path : Path) (contents : Text) : Except Cause Tree :=
  (t.place path).map fun loc => t.put loc (.file (.text contents))

/-- Where the system does not stand in the way, a file is replaced step by step exactly when it can
be replaced at once, and by the same tree. -/
theorem System.write_eq_ok_iff {sys : System} {t t' : Tree} {path : Path} {contents : Text}
    (hsys : sys.Obliges t path) :
    sys.write path contents t = (.ok (), t') ↔ t.replace path contents = .ok t' := by
  cases hplace : t.place path with
  | error cause =>
    rcases sys.write_cases path contents t with ⟨cause, h⟩ | ⟨loc, hloc, -⟩
    · simp [h, Tree.replace, hplace, Except.map]
    · rw [hplace] at hloc
      cases hloc
  | ok loc => simp [write_of_place hsys hplace, Tree.replace, hplace, Except.map]

/-- What is left of a tree when the directory entry that a path names is replaced by a file: the
pieces before the name lead to the directory, that entry is the file, and every other entry is as it
was. -/
def Tree.Replaced (t : Tree) (path : Path) (contents : Text) (t' : Tree) : Prop :=
  ∃ front dir, ∃ name : Name, Path.pieces path = front ++ [name.bytes] ∧
    t.walk Tree.linkLimit [] front = .ok dir ∧ t.get? dir = some .dir ∧
    t'.get? (dir ++ [name]) = some (.file (.text contents)) ∧
    ∀ loc, loc ≠ dir ++ [name] → t'.get? loc = t.get? loc

theorem Tree.replaced_put {t : Tree} {path : Path} {loc : Location} (h : t.place path = .ok loc)
    (contents : Text) : t.Replaced path contents (t.put loc (.file (.text contents))) := by
  obtain ⟨dir, name, rfl, hpieces, hwalk, hdir⟩ := Tree.exists_of_place h
  exact ⟨_, dir, name, hpieces, hwalk, hdir, Tree.get?_put_self t (Tree.concat_ne_root dir name) _,
    fun loc hloc => Tree.get?_put_of_ne t hloc _⟩

/-- **Replacing is atomic.** Whatever name the system gives the temporary file, and whichever step
it refuses, a file is written in full or not at all. If the writing succeeds, the directory entry
that the path names, be it a link, is a file with the contents, and nothing else has changed. If it
fails, a fault of writing is reported and the tree is the one before, without a temporary file. It
succeeds for every path of admissible length that ends in a name, if the pieces before that name
lead to a directory, no directory has that name, and the system does not stand in the way; then the
tree is the one that `Tree.replace` gives. So a file that is reported to have failed is left as it
was, in every mode, and so is all else. -/
theorem replacing_is_atomic (sys : System) (t : Tree) (path : Path) (contents : Text) :
    (∀ t', sys.write path contents t = (.ok (), t') → t.Replaced path contents t') ∧
    (∀ fault t', sys.write path contents t = (.error fault, t') →
      (∃ cause, fault = .unwritable path cause) ∧ t' = t) ∧
    (∀ front dir, ∀ name : Name, Path.pieces path = front ++ [name.bytes] →
      t.directoryAt front = .ok dir → t.get? (dir ++ [name]) ≠ some .dir →
      path.length ≤ Path.sizeLimit → sys.Obliges t path →
      ∃ t', sys.write path contents t = (.ok (), t')) ∧
    (sys.Obliges t path →
      ∀ t', sys.write path contents t = (.ok (), t') ↔ t.replace path contents = .ok t') ∧
    ∀ mode seconds, (sys.treat mode path seconds t).1.status = .failed →
      (sys.treat mode path seconds t).2 = t := by
  refine ⟨fun t' h => ?_, fun fault t' h => ?_, ?_, fun hsys t' => System.write_eq_ok_iff hsys,
    fun mode seconds => System.treat_of_failed⟩
  · rcases sys.write_cases path contents t with ⟨cause, hwrite⟩ | ⟨loc, hloc, hwrite⟩
    · rw [hwrite] at h
      cases h
    · rw [hwrite] at h
      cases h
      exact Tree.replaced_put hloc contents
  · rcases sys.write_cases path contents t with ⟨cause, hwrite⟩ | ⟨loc, hloc, hwrite⟩
    · rw [hwrite] at h
      cases h
      exact ⟨⟨cause, rfl⟩, rfl⟩
    · rw [hwrite] at h
      cases h
  · intro front dir name hpieces hdir hget hsize hsys
    have hpath : Path.nul ∉ path := fun h => by
      rcases Text.exists_mem_pieces Path.slash h with hx | ⟨p, hp, hx⟩
      · cases hx
      · rw [← Path.pieces, hpieces, List.mem_append, List.mem_singleton] at hp
        rcases hp with hp | rfl
        · refine (Tree.directoryAt_eq_ok_iff.1 hdir).1 (List.any_eq_true.2 ⟨p, hp, ?_⟩)
          simpa using hx
        · exact name.proper.no_nul hx
    have hplace := Tree.place_of_parent hpieces hpath hsize hdir hget
    exact ⟨_, System.write_of_place hsys hplace⟩

/-- A file in a directory, and a link to it. -/
def linkToFile : Tree where
  entries := [([.letter 3], .dir), ([.letter 3, .letter 0], .file (.text ['o'])),
    ([.letter 11], .link [0x64, 0x2F, 0x61])]
  nodup := by decide

/-- The link itself is replaced, and the file that it led to is as it was. -/
theorem replacing_is_atomic_at_link :
    ∃ t', System.plain.write [0x6C] ['n'] linkToFile = (.ok (), t') ∧
      t'.get? [.letter 11] = some (.file (.text ['n'])) ∧
      t'.get? [.letter 3, .letter 0] = some (.file (.text ['o'])) := by
  obtain ⟨hok, -, hexists, -⟩ := replacing_is_atomic System.plain linkToFile [0x6C] ['n']
  have hroot : linkToFile.directoryAt (Path.directoryPieces [0x6C]) = .ok [] := by decide
  have hsys : System.plain.Obliges linkToFile [0x6C] := by
    refine ⟨fun dir hdir => ⟨System.plainTemp, ?_⟩, rfl, rfl, rfl, rfl⟩
    rw [hroot] at hdir
    cases hdir
    decide
  obtain ⟨t', ht'⟩ :=
    hexists [] [] (.letter 11) (by decide) (by decide) (by decide) (by decide) hsys
  obtain ⟨front, dir, name, hpieces, hwalk, -, hentry, hother⟩ := hok t' ht'
  replace hpieces : [] ++ [[0x6C]] = front ++ [name.bytes] := hpieces
  obtain ⟨rfl, hlast⟩ := List.append_inj' hpieces rfl
  obtain rfl : name = .letter 11 := Name.bytes_injective (List.cons.inj hlast).1.symm
  rw [Tree.walk_nil] at hwalk
  cases hwalk
  exact ⟨t', ht', hentry, (hother _ (by decide)).trans (by decide)⟩

end TimeLimit
