import Mathlib.Data.List.Nodup
import TimeLimit.Proofs.Candidate
import TimeLimit.Proofs.Host

/-!
# What a search finds

A search goes down along the names of directories that it enters and that the system lists
(`Candidate.Enters`), and finds at their end what is named right and leads to a file
(`Candidate.Shown`), as many levels down as it may go (`mem_found_iff`). The number of levels cuts
nothing off, since every name makes the path longer, so a candidate is listed exactly when the rules
of `Candidate.Listed` hold (`mem_listing_iff`). What is found comes in one order and none of it
twice (`inOrder_eq_of_mem_iff`, `nodup_listing`); so trees that agree on these rules give the same
listing (`listing_congr`).
-/

namespace TimeLimit

/-! ## Entries of a directory -/

namespace Tree

variable {t : Tree} {loc base : Location} {path dir : Path} {name : Name} {e : Entry}

theorem mem_of_get?_eq (hne : loc ≠ []) (h : t.get? loc = some e) : (loc, e) ∈ t.entries := by
  rw [get?, if_neg hne, List.lookup_eq_some_iff] at h
  obtain ⟨l₁, l₂, hentries, -⟩ := h
  rw [hentries]
  exact List.mem_append_right _ List.mem_cons_self

/-- A child of a location is an entry of the tree whose location is that of the child. -/
theorem children_eq (t : Tree) (loc : Location) : ∃ f : Location × Entry → Option (Name × Entry),
    t.children loc = t.entries.filterMap f ∧
      ∀ x y, f x = some y ↔ x = (loc ++ [y.1], y.2) := by
  refine ⟨_, rfl, ?_⟩
  rintro ⟨l, e⟩ ⟨name, e'⟩
  dsimp only
  cases hl : l.getLast? with
  | none =>
    rw [List.getLast?_eq_none_iff] at hl
    subst hl
    simp
  | some name' =>
    obtain ⟨front, rfl⟩ := List.getLast?_eq_some_iff.1 hl
    simp only [Option.ite_none_right_eq_some, Option.some.injEq, Prod.mk.injEq]
    constructor
    · rintro ⟨hfront, rfl, rfl⟩
      exact ⟨hfront, rfl⟩
    · rintro ⟨hfront, rfl⟩
      obtain ⟨rfl, hname⟩ := List.append_inj' hfront rfl
      cases hname
      exact ⟨rfl, rfl, rfl⟩

/-- The children of a location are what stands directly below it. -/
theorem mem_children_iff : (name, e) ∈ t.children loc ↔ t.get? (loc ++ [name]) = some e := by
  obtain ⟨f, hchildren, hf⟩ := t.children_eq loc
  rw [hchildren, List.mem_filterMap]
  constructor
  · rintro ⟨x, hx, hxy⟩
    rw [(hf x _).1 hxy] at hx
    exact get?_of_mem hx (concat_ne_root loc name)
  · intro h
    exact ⟨_, mem_of_get?_eq (concat_ne_root loc name) h, (hf _ _).2 rfl⟩

/-- No two children of a location have the same name. -/
theorem nodup_map_fst_children (t : Tree) (loc : Location) :
    ((t.children loc).map Prod.fst).Nodup := by
  have hnodup := t.nodup
  obtain ⟨f, hchildren, hf⟩ := t.children_eq loc
  rw [List.Nodup, List.pairwise_map] at hnodup ⊢
  rw [hchildren, List.pairwise_filterMap]
  refine hnodup.imp fun {x x'} hne y hy y' hy' hname => hne ?_
  rw [(hf x y).1 hy, (hf x' y').1 hy', hname]

/-- A path shows a directory when it leads to one. -/
theorem entry_eq_dir_iff : t.entry path = .ok .dir ↔ ∃ loc, t.directory path = .ok loc := by
  unfold entry directory
  cases t.resolve path with
  | error cause => simp [bind, Except.bind]
  | ok loc =>
    simp only [bind, Except.bind]
    cases t.get? loc with
    | none => simp
    | some e => cases e <;> simp

end Tree

namespace System

variable {sys : System} {t : Tree} {path dir : Path} {base : Location} {dirs : List Name}
  {entries : List (Name × Bool)}

/-- A directory is listed when a path leads to it and the system does not refuse that. -/
theorem list_eq_ok_iff : sys.list path t = .ok entries ↔ ∃ loc, t.directory path = .ok loc ∧
    sys.closed path = none ∧
      (t.children loc).map (fun x => (x.1, decide (x.2 = .dir))) = entries := by
  simp only [list, bind_eq_ok_iff]
  cases sys.closed path with
  | none => simp [pure, Except.pure]
  | some cause => simp

/-- The directory that names lead to from another one can be listed: its path is not too long, and
the system does not refuse it. -/
structure Lists (sys : System) (dir : Path) (dirs : List Name) : Prop where
  length_le : (dirs.foldl Path.join dir).length ≤ Path.sizeLimit
  open_ : sys.closed (dirs.foldl Path.join dir) = none

/-- A directory that is reached over directories is listed with what stands in it. -/
theorem list_foldl_join (h : t.directory dir = .ok base)
    (hdirs : ∀ p, p <+: dirs → t.get? (base ++ p) = some .dir) :
    sys.list (dirs.foldl Path.join dir) t = .ok entries ↔ sys.Lists dir dirs ∧
      (t.children (base ++ dirs)).map (fun x => (x.1, decide (x.2 = .dir))) = entries := by
  rw [list_eq_ok_iff, Tree.directory_foldl_join h hdirs]
  simp only [ite_error_eq_ok_iff, Nat.not_lt, Except.ok.injEq]
  constructor
  · rintro ⟨_, ⟨hlength, rfl⟩, hopen, hentries⟩
    exact ⟨⟨hlength, hopen⟩, hentries⟩
  · rintro ⟨⟨hlength, hopen⟩, hentries⟩
    exact ⟨_, ⟨hlength, rfl⟩, hopen, hentries⟩

end System

namespace Candidate

variable {sys : System} {t t' : Tree} {dir : Path} {suffix : Text} {recursive : Bool}
  {base : Location} {c : Candidate} {n : Nat} {dirs : List Name}

/-! ## Searching -/

/-- What a search finds in a directory; there is nothing to find in one that is not listed. -/
def found (sys : System) (t : Tree) (dir : Path) (suffix : Text) (recursive : Bool) (n : Nat)
    (dirs : List Name) : List Candidate :=
  (search sys t dir suffix recursive n dirs).toOption.getD []

/-- A search of a directory that is listed does not fail. -/
theorem search_eq_found {entries : List (Name × Bool)}
    (h : sys.list (dirs.foldl Path.join dir) t = .ok entries) :
    search sys t dir suffix recursive (n + 1) dirs =
      .ok (found sys t dir suffix recursive (n + 1) dirs) := by
  rw [found, search_succ, h]
  rfl

/-- Something is found at an entry of a directory that is listed. -/
theorem found_succ {entries : List (Name × Bool)}
    (h : sys.list (dirs.foldl Path.join dir) t = .ok entries) :
    found sys t dir suffix recursive (n + 1) dirs =
      entries.flatMap (searchEntry sys dir suffix recursive t n dirs) := by
  rw [found, search_succ, h]
  rfl

theorem exists_of_mem_found (h : c ∈ found sys t dir suffix recursive (n + 1) dirs) :
    ∃ entries, sys.list (dirs.foldl Path.join dir) t = .ok entries := by
  rw [found, search_succ] at h
  cases hlist : sys.list (dirs.foldl Path.join dir) t with
  | ok entries => exact ⟨entries, rfl⟩
  | error cause =>
    rw [hlist] at h
    cases h

theorem mem_searchEntry_iff {name : Name} {isDirectory : Bool} :
    c ∈ searchEntry sys dir suffix recursive t n dirs (name, isDirectory) ↔
      isDirectory = true ∧ recursive = true ∧ entersDirectory name.text = true ∧
        c ∈ found sys t dir suffix recursive n (dirs ++ [name]) ∨
      isDirectory = false ∧ c = ⟨dirs, name⟩ ∧ isNamed suffix name.text = true ∧
        t.isFile (c.path dir) = true := by
  cases isDirectory with
  | true => simp [searchEntry, found, and_assoc]
  | false =>
    simp only [searchEntry, Bool.false_eq_true, ↓reduceIte, List.mem_ite_nil_right,
      Bool.and_eq_true, List.mem_singleton, false_and, true_and, false_or]
    constructor
    · rintro ⟨⟨hfile, hnamed⟩, rfl⟩
      exact ⟨rfl, hnamed, hfile⟩
    · rintro ⟨rfl, hnamed, hfile⟩
      exact ⟨⟨hfile, hnamed⟩, rfl⟩

/-- A search that stands where some names lead goes down along further ones: it is recursive, each
further name is that of a directory that is entered, and all these directories are listed. -/
inductive Enters (sys : System) (t : Tree) (dir : Path) (recursive : Bool) (base : Location) :
    List Name → List Name → Prop
  | here {dirs : List Name} (hlists : sys.Lists dir dirs) : Enters sys t dir recursive base dirs []
  | down {dirs : List Name} {name : Name} {rest : List Name} (hlists : sys.Lists dir dirs)
      (hrec : recursive = true) (hname : entersDirectory name.text = true)
      (hdir : t.get? (base ++ (dirs ++ [name])) = some .dir)
      (h : Enters sys t dir recursive base (dirs ++ [name]) rest) :
      Enters sys t dir recursive base dirs (name :: rest)

/-- What a search takes for a candidate: something of that name stands where its names lead that is
no directory, and its path leads to a file. -/
structure Shown (t : Tree) (dir : Path) (suffix : Text) (base : Location) (c : Candidate) :
    Prop where
  named : isNamed suffix c.name.text = true
  entry : ∃ e, t.get? (base ++ c.names) = some e ∧ e ≠ .dir
  isFile : t.isFile (c.path dir) = true

/-- Directories on the way to a directory, and one more. -/
theorem get?_of_prefix_concat {name : Name}
    (hdirs : ∀ p, p <+: dirs → t.get? (base ++ p) = some .dir)
    (hdir : t.get? (base ++ (dirs ++ [name])) = some .dir) :
    ∀ p, p <+: dirs ++ [name] → t.get? (base ++ p) = some .dir := by
  intro p hp
  rcases List.prefix_concat_iff.1 hp with rfl | hp
  · exact hdir
  · exact hdirs p hp

/-- **A search finds what is shown in the directories that it enters**, as many levels down as it
may go. -/
theorem mem_found_iff (hdir : t.directory dir = .ok base)
    (hdirs : ∀ p, p <+: dirs → t.get? (base ++ p) = some .dir) :
    c ∈ found sys t dir suffix recursive n dirs ↔ ∃ rest, c.dirs = dirs ++ rest ∧
      rest.length < n ∧ Enters sys t dir recursive base dirs rest ∧ Shown t dir suffix base c := by
  induction n generalizing dirs with
  | zero => simp [found, search, Except.toOption]
  | succ n ih =>
    constructor
    · intro h
      obtain ⟨entries, hlist⟩ := exists_of_mem_found h
      rw [found_succ hlist, List.mem_flatMap] at h
      obtain ⟨hlists, rfl⟩ := (System.list_foldl_join hdir hdirs).1 hlist
      obtain ⟨_, hx, h⟩ := h
      obtain ⟨⟨name, e⟩, hchild, rfl⟩ := List.mem_map.1 hx
      dsimp only at h
      have hget := Tree.mem_children_iff.1 hchild
      rw [List.append_assoc] at hget
      rcases mem_searchEntry_iff.1 h with ⟨he, hrec, hname, h⟩ | ⟨he, rfl, hnamed, hfile⟩
      · rw [decide_eq_true_iff.1 he] at hget
        obtain ⟨rest, hrest, hlength, henters, hshown⟩ :=
          (ih (get?_of_prefix_concat hdirs hget)).1 h
        rw [List.append_assoc] at hrest
        exact ⟨name :: rest, hrest, Nat.succ_lt_succ hlength,
          .down hlists hrec hname hget henters, hshown⟩
      · exact ⟨[], (List.append_nil dirs).symm, Nat.succ_pos n, .here hlists, hnamed,
          ⟨e, hget, of_decide_eq_false he⟩, hfile⟩
    · rintro ⟨rest, hrest, hlength, henters, hshown⟩
      have hlists : sys.Lists dir dirs := by cases henters <;> assumption
      rw [found_succ ((System.list_foldl_join hdir hdirs).2 ⟨hlists, rfl⟩), List.mem_flatMap]
      cases henters with
      | here =>
        obtain ⟨hnamed, ⟨e, hget, he⟩, hfile⟩ := hshown
        obtain ⟨cdirs, cname⟩ := c
        obtain rfl : cdirs = dirs := by rw [← List.append_nil dirs, ← hrest]
        rw [names, ← List.append_assoc] at hget
        exact ⟨_, List.mem_map_of_mem (Tree.mem_children_iff.2 hget),
          mem_searchEntry_iff.2 (.inr ⟨decide_eq_false he, rfl, hnamed, hfile⟩)⟩
      | @down _ name rest _ hrec hname hget henters =>
        have hin := (ih (get?_of_prefix_concat hdirs hget)).2
          ⟨rest, by rw [hrest, List.append_assoc, List.singleton_append],
            Nat.lt_of_succ_lt_succ hlength, henters, hshown⟩
        rw [← List.append_assoc] at hget
        exact ⟨_, List.mem_map_of_mem (Tree.mem_children_iff.2 hget),
          mem_searchEntry_iff.2 (.inl ⟨rfl, hrec, hname, hin⟩)⟩

/-- What a search finds stands below the directory where it starts. -/
theorem prefix_of_mem_found (h : c ∈ found sys t dir suffix recursive n dirs) :
    dirs <+: c.dirs := by
  induction n generalizing dirs with
  | zero => cases h
  | succ n ih =>
    obtain ⟨entries, hlist⟩ := exists_of_mem_found h
    rw [found_succ hlist, List.mem_flatMap] at h
    obtain ⟨⟨name, isDirectory⟩, -, h⟩ := h
    rcases mem_searchEntry_iff.1 h with ⟨-, -, -, h⟩ | ⟨-, rfl, -⟩
    · exact (List.prefix_append dirs [name]).trans (ih h)
    · exact List.prefix_refl dirs

/-- What is found at an entry has the name of that entry among its own. -/
theorem prefix_of_mem_searchEntry {x : Name × Bool}
    (h : c ∈ searchEntry sys dir suffix recursive t n dirs x) : dirs ++ [x.1] <+: c.names := by
  obtain ⟨name, isDirectory⟩ := x
  rcases mem_searchEntry_iff.1 h with ⟨-, -, -, h⟩ | ⟨-, rfl, -⟩
  · exact (prefix_of_mem_found h).trans (List.prefix_append c.dirs [c.name])
  · exact List.prefix_refl (dirs ++ [name])

/-- No file is found twice: different entries of a directory have different names. -/
theorem nodup_found (sys : System) (t : Tree) (dir : Path) (suffix : Text) (recursive : Bool)
    (n : Nat) (dirs : List Name) : (found sys t dir suffix recursive n dirs).Nodup := by
  induction n generalizing dirs with
  | zero => exact .nil
  | succ n ih =>
    cases hlist : sys.list (dirs.foldl Path.join dir) t with
    | error cause =>
      rw [found, search_succ, hlist]
      exact .nil
    | ok entries =>
      rw [found_succ hlist, List.nodup_flatMap]
      constructor
      · rintro ⟨name, isDirectory⟩ -
        unfold searchEntry
        split
        · split
          · exact ih _
          · exact .nil
        · split
          · exact List.nodup_singleton _
          · exact .nil
      · obtain ⟨loc, -, -, rfl⟩ := System.list_eq_ok_iff.1 hlist
        have hnames := t.nodup_map_fst_children loc
        rw [List.Nodup, List.pairwise_map] at hnames
        rw [List.pairwise_map]
        refine hnames.imp fun {x y} hne c hx hy => hne ?_
        have hsame := (List.prefix_of_prefix_length_le (prefix_of_mem_searchEntry hx)
          (prefix_of_mem_searchEntry hy) (by simp)).eq_of_length (by simp)
        exact (List.cons.inj (List.append_cancel_left hsame)).1

/-! ## Order -/

/-- The names of a candidate, as they are compared. -/
def key (c : Candidate) : List Path :=
  c.names.map Name.bytes

theorem key_injective : Function.Injective key := by
  rintro ⟨dirs, name⟩ ⟨dirs', name'⟩ h
  have hnames : dirs ++ [name] = dirs' ++ [name'] :=
    List.map_injective_iff.2 (fun _ _ => Name.bytes_injective) h
  obtain ⟨hdirs, hname⟩ := List.append_inj' hnames rfl
  rw [Candidate.mk.injEq]
  exact ⟨hdirs, (List.cons.inj hname).1⟩

theorem le_iff {c d : Candidate} : c.le d = true ↔ c.key ≤ d.key := by
  rw [le, Bool.not_eq_true', decide_eq_false_iff_not]
  exact List.not_lt

theorem pairwise_inOrder (cs : List Candidate) :
    (inOrder cs).Pairwise fun c d => c.le d = true := by
  refine List.pairwise_mergeSort (fun a b c hab hbc => ?_) (fun a b => ?_) cs
  · exact le_iff.2 (List.le_trans (le_iff.1 hab) (le_iff.1 hbc))
  · rw [Bool.or_eq_true, le_iff, le_iff]
    exact List.le_total _ _

theorem mem_inOrder {cs : List Candidate} : c ∈ inOrder cs ↔ c ∈ cs :=
  List.mem_mergeSort

theorem nodup_inOrder {cs : List Candidate} (h : cs.Nodup) : (inOrder cs).Nodup :=
  (List.mergeSort_perm cs le).nodup_iff.2 h

/-- The same candidates come in one order. -/
theorem inOrder_eq_of_mem_iff {cs ds : List Candidate} (hcs : cs.Nodup) (hds : ds.Nodup)
    (h : ∀ c, c ∈ cs ↔ c ∈ ds) : inOrder cs = inOrder ds := by
  have hperm : (inOrder cs).Perm (inOrder ds) :=
    (List.perm_ext_iff_of_nodup (nodup_inOrder hcs) (nodup_inOrder hds)).2 fun c => by
      rw [mem_inOrder, mem_inOrder, h]
  refine hperm.eq_of_pairwise (fun a b _ _ hab hba => key_injective ?_) (pairwise_inOrder cs)
    (pairwise_inOrder ds)
  exact List.le_antisymm (le_iff.1 hab) (le_iff.1 hba)

/-! ## Listings -/

/-- What a listing of a directory says of a candidate: its name ends in the suffix, it is in the
directory itself unless the listing is recursive, the names of its directories are entered, these
are directories and the system does not refuse to list them, what stands at its name is none, and
its path leads to a file. -/
structure Listed (sys : System) (t : Tree) (dir : Path) (suffix : Text) (recursive : Bool)
    (base : Location) (c : Candidate) : Prop where
  named : isNamed suffix c.name.text = true
  flat : recursive = false → c.dirs = []
  entered : ∀ d ∈ c.dirs, entersDirectory d.text = true
  dirs : ∀ p, p <+: c.dirs → t.get? (base ++ p) = some .dir
  open_ : ∀ p, p <+: c.dirs → sys.closed (p.foldl Path.join dir) = none
  entry : ∃ e, t.get? (base ++ c.names) = some e ∧ e ≠ .dir
  isFile : t.isFile (c.path dir) = true

theorem enters_iff {rest : List Name} (hdir : t.get? (base ++ dirs) = some .dir) :
    Enters sys t dir recursive base dirs rest ↔ (recursive = false → rest = []) ∧
      (∀ d ∈ rest, entersDirectory d.text = true) ∧
      ∀ p, p <+: rest → t.get? (base ++ (dirs ++ p)) = some .dir ∧ sys.Lists dir (dirs ++ p) := by
  induction rest generalizing dirs with
  | nil =>
    constructor
    · rintro ⟨hlists⟩
      refine ⟨fun _ => rfl, List.forall_mem_nil _, fun p hp => ?_⟩
      rw [List.prefix_nil.1 hp, List.append_nil]
      exact ⟨hdir, hlists⟩
    · rintro ⟨-, -, h⟩
      have hlists := (h [] List.nil_prefix).2
      rw [List.append_nil] at hlists
      exact .here hlists
  | cons name rest ih =>
    constructor
    · rintro (_ | ⟨hlists, hrec, hname, hnext, h⟩)
      obtain ⟨-, hentered, hdirs⟩ := (ih hnext).1 h
      refine ⟨fun hfalse => ?_, List.forall_mem_cons.2 ⟨hname, hentered⟩, fun p hp => ?_⟩
      · rw [hrec] at hfalse
        cases hfalse
      · cases p with
        | nil =>
          rw [List.append_nil]
          exact ⟨hdir, hlists⟩
        | cons n p =>
          obtain ⟨rfl, hrest⟩ := List.cons_prefix_cons.1 hp
          have := hdirs p hrest
          rwa [List.append_assoc, List.singleton_append] at this
    · rintro ⟨hflat, hentered, hdirs⟩
      rw [List.forall_mem_cons] at hentered
      have hlists := (hdirs [] List.nil_prefix).2
      rw [List.append_nil] at hlists
      have hnext := (hdirs [name] (by simp)).1
      have hrec : recursive = true := by
        refine Bool.of_not_eq_false fun hfalse => ?_
        cases hflat hfalse
      refine .down hlists hrec hentered.1 hnext
        ((ih hnext).2 ⟨fun hfalse => ?_, hentered.2, fun p hp => ?_⟩)
      · rw [hrec] at hfalse
        cases hfalse
      · rw [List.append_assoc, List.singleton_append]
        exact hdirs _ ((List.prefix_cons_inj name).2 hp)

/-- The path of a file is not too long. -/
theorem length_path_le (h : t.isFile (c.path dir) = true) :
    (c.path dir).length ≤ Path.sizeLimit := by
  obtain ⟨x, hx⟩ := Tree.exists_resolve_of_isFile h
  exact (Tree.resolve_eq_ok_iff.1 hx).2.2.1

/-- What is entered and shown is what is listed. -/
theorem listed_iff (hdir : t.directory dir = .ok base) :
    Listed sys t dir suffix recursive base c ↔
      Enters sys t dir recursive base [] c.dirs ∧ Shown t dir suffix base c := by
  have hbase := (Tree.directory_eq_ok_iff.1 hdir).2
  rw [enters_iff (by rwa [List.append_nil])]
  simp only [List.nil_append]
  constructor
  · rintro ⟨hnamed, hflat, hentered, hdirs, hopen, hentry, hfile⟩
    have hlength {p : List Name} (hp : p <+: c.dirs) :
        (p.foldl Path.join dir).length ≤ Path.sizeLimit :=
      Nat.le_trans (Nat.le_of_lt (length_lt_path hp)) (length_path_le hfile)
    exact ⟨⟨hflat, hentered, fun p hp => ⟨hdirs p hp, hlength hp, hopen p hp⟩⟩, hnamed, hentry,
      hfile⟩
  · rintro ⟨⟨hflat, hentered, hdirs⟩, hnamed, hentry, hfile⟩
    exact ⟨hnamed, hflat, hentered, fun p hp => (hdirs p hp).1, fun p hp => (hdirs p hp).2.open_,
      hentry, hfile⟩

/-- Every level makes a path longer, so a search that may go down as many levels as a path may have
bytes is not cut short. -/
theorem mem_found_iff_listed (hdir : t.directory dir = .ok base) (hn : Path.sizeLimit < n) :
    c ∈ found sys t dir suffix recursive n [] ↔ Listed sys t dir suffix recursive base c := by
  have hbase := (Tree.directory_eq_ok_iff.1 hdir).2
  have hnil (p : List Name) (hp : p <+: []) : t.get? (base ++ p) = some .dir := by
    rwa [List.prefix_nil.1 hp, List.append_nil]
  rw [mem_found_iff hdir hnil, listed_iff hdir]
  constructor
  · rintro ⟨rest, hrest, -, h⟩
    rw [List.nil_append] at hrest
    rwa [hrest]
  · rintro ⟨henters, hshown⟩
    have hlength := Path.length_foldl_join dir c.names
    have hsize : (c.names.foldl Path.join dir).length ≤ Path.sizeLimit :=
      length_path_le hshown.isFile
    have hnames : c.names.length = c.dirs.length + 1 := List.length_append
    exact ⟨c.dirs, rfl, by omega, henters, hshown⟩

/-- Where two trees show a directory in the same place and the same is listed in it, searches of it
that are not cut short find the same. -/
theorem inOrder_found_congr {sys' : System} {n' : Nat} (hdir : t.directory dir = .ok base)
    (hdir' : t'.directory dir = .ok base) (hn : Path.sizeLimit < n) (hn' : Path.sizeLimit < n')
    (h : ∀ c, Listed sys' t' dir suffix recursive base c ↔
      Listed sys t dir suffix recursive base c) :
    inOrder (found sys' t' dir suffix recursive n' []) =
      inOrder (found sys t dir suffix recursive n []) := by
  refine inOrder_eq_of_mem_iff (nodup_found ..) (nodup_found ..) fun c => ?_
  rw [mem_found_iff_listed hdir' hn', mem_found_iff_listed hdir hn, h]

/-- A directory that is listed is one. -/
theorem exists_of_listing {cs : List Candidate}
    (h : listing sys t dir suffix recursive = .ok cs) :
    ∃ base, t.directory dir = .ok base ∧ sys.closed dir = none ∧
      cs = inOrder (found sys t dir suffix recursive (Path.sizeLimit + 1) []) := by
  rw [listing_eq] at h
  cases hlist : sys.list ([].foldl Path.join dir) t with
  | error cause =>
    rw [search_succ, hlist] at h
    cases h
  | ok entries =>
    rw [search_eq_found hlist] at h
    cases h
    obtain ⟨base, hbase, hopen, -⟩ := System.list_eq_ok_iff.1 hlist
    exact ⟨base, hbase, hopen, rfl⟩

/-- A listing fails when its directory is not listed, and for no other reason. -/
theorem listing_eq_error_iff {cause : Cause} :
    listing sys t dir suffix recursive = .error cause ↔ sys.list dir t = .error cause := by
  rw [listing_eq, search_succ]
  show Except.map inOrder (Except.map _ (sys.list dir t)) = _ ↔ _
  cases sys.list dir t <;> simp [Except.map]

theorem listing_of_no_directory {cause : Cause} (h : t.directory dir = .error cause) :
    listing sys t dir suffix recursive = .error cause := by
  refine listing_eq_error_iff.2 ?_
  rw [System.list, h]
  rfl

/-- The system decides whether a directory is listed, and the tree what is found in it. -/
theorem listing_of_directory (hdir : t.directory dir = .ok base) :
    listing sys t dir suffix recursive = match sys.closed dir with
      | none => .ok (inOrder (found sys t dir suffix recursive (Path.sizeLimit + 1) []))
      | some cause => .error cause := by
  cases hclosed : sys.closed dir with
  | none =>
    have hlist := System.list_eq_ok_iff.2 ⟨base, hdir, hclosed, rfl⟩
    rw [listing_eq, search_eq_found hlist]
    rfl
  | some cause =>
    have hlist : sys.list dir t = .error cause := by rw [System.list, hdir, ok_bind, hclosed]
    exact listing_eq_error_iff.2 hlist

/-- A directory has a listing when it is there and the system does not refuse to list it. -/
theorem exists_listing_iff : (∃ cs, listing sys t dir suffix recursive = .ok cs) ↔
    t.entry dir = .ok .dir ∧ sys.closed dir = none := by
  rw [Tree.entry_eq_dir_iff]
  constructor
  · rintro ⟨cs, h⟩
    obtain ⟨base, hbase, hopen, -⟩ := exists_of_listing h
    exact ⟨⟨base, hbase⟩, hopen⟩
  · rintro ⟨⟨base, hbase⟩, hopen⟩
    rw [listing_of_directory hbase, hopen]
    exact ⟨_, rfl⟩

/-- A search whose result is in order lists it as it is. -/
theorem listing_of_search {cs : List Candidate}
    (hsearch : search sys t dir suffix recursive (Path.sizeLimit + 1) [] = .ok cs)
    (hcs : cs.Pairwise fun c d => c.le d = true) :
    listing sys t dir suffix recursive = .ok cs := by
  rw [listing_eq, hsearch]
  exact congrArg Except.ok (List.mergeSort_of_pairwise hcs)

/-- The candidates of a directory are those that the rules list. -/
theorem mem_listing_iff {cs : List Candidate} (h : listing sys t dir suffix recursive = .ok cs)
    (hdir : t.directory dir = .ok base) :
    c ∈ cs ↔ Listed sys t dir suffix recursive base c := by
  obtain ⟨-, -, -, rfl⟩ := exists_of_listing h
  rw [mem_inOrder, mem_found_iff_listed hdir (Nat.lt_succ_self _)]

theorem listed_of_listing {cs : List Candidate} (h : listing sys t dir suffix recursive = .ok cs) :
    ∃ base, t.directory dir = .ok base ∧
      ∀ c ∈ cs, Listed sys t dir suffix recursive base c := by
  obtain ⟨base, hbase, -⟩ := exists_of_listing h
  exact ⟨base, hbase, fun c hc => (mem_listing_iff h hbase).1 hc⟩

/-- No file is listed twice. -/
theorem nodup_listing {cs : List Candidate} (h : listing sys t dir suffix recursive = .ok cs) :
    cs.Nodup := by
  obtain ⟨-, -, -, rfl⟩ := exists_of_listing h
  exact nodup_inOrder (nodup_found ..)

/-- Where two trees show a directory in the same place and the same is listed in it, a listing of it
is the same. -/
theorem listing_congr {sys' : System} (hdir : t.directory dir = .ok base)
    (hdir' : t'.directory dir = .ok base) (hclosed : sys'.closed dir = sys.closed dir)
    (h : ∀ c, Listed sys' t' dir suffix recursive base c ↔
      Listed sys t dir suffix recursive base c) :
    listing sys' t' dir suffix recursive = listing sys t dir suffix recursive := by
  have hn := Nat.lt_succ_self Path.sizeLimit
  rw [listing_of_directory hdir, listing_of_directory hdir', hclosed,
    inOrder_found_congr hdir hdir' hn hn h]

/-- The place of a listed candidate's path is the entry that was listed. -/
theorem Listed.place_eq (h : Listed sys t dir suffix recursive base c)
    (hdir : t.directory dir = .ok base) : t.place (c.path dir) = .ok (base ++ c.names) := by
  obtain ⟨e, hget, he⟩ := h.entry
  obtain ⟨x, hx⟩ := Tree.exists_resolve_of_isFile h.isFile
  obtain ⟨hnul, -, hsize, -⟩ := Tree.resolve_eq_ok_iff.1 hx
  refine place_path hdir h.dirs ?_ hnul hsize
  rw [hget]
  exact fun hdir => he (Option.some.inj hdir)

end Candidate

end TimeLimit
