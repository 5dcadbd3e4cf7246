import Mathlib.Data.List.Basic
import TimeLimit.Candidate
import TimeLimit.Proofs.Replace

/-!
# Where candidates stand

The path of a candidate spells its names behind the path of the directory (`pieces_path`). So where
its names but the last are those of directories, its path leads to the entry that the names lead
to, if that is no link (`walk_path`), and the place at which the path is replaced is that entry,
link or not (`place_path`): nothing else is replaced in its stead.
-/

namespace TimeLimit

/-! ## Joined paths -/

namespace Path

/-- A path without the slash it may end in. -/
def stem (dir : Path) : Path :=
  if dir.getLast? = some slash then dir.dropLast else dir

theorem eq_stem_or (dir : Path) : dir = stem dir ∨ dir = stem dir ++ [slash] := by
  unfold stem
  split
  · next h =>
    obtain ⟨front, rfl⟩ := List.getLast?_eq_some_iff.1 h
    exact .inr (by rw [List.dropLast_concat])
  · exact .inl rfl

/-- A name is joined to a path behind one slash. -/
theorem join_eq {dir : Path} (hne : dir ≠ []) (name : Name) :
    join dir name = stem dir ++ slash :: name.bytes := by
  unfold join stem
  split
  · next h =>
    rcases h with h | h
    · exact absurd (by simpa using h) hne
    · obtain ⟨front, rfl⟩ := List.getLast?_eq_some_iff.1 h
      simp
  · next h =>
    rw [not_or] at h
    rw [if_neg h.2]

theorem join_ne_nil (dir : Path) (name : Name) : join dir name ≠ [] := by
  unfold join
  split <;> simp [name.bytes_ne_nil]

/-- A path that ends in a name does not end in a slash. -/
theorem stem_append_name (s : Path) (name : Name) :
    stem (s ++ slash :: name.bytes) = s ++ slash :: name.bytes := by
  have hlast : (s ++ slash :: name.bytes).getLast? ≠ some slash := by
    obtain ⟨front, b, hb⟩ := List.eq_nil_or_concat name.bytes |>.resolve_left name.bytes_ne_nil
    intro h
    rw [hb] at h
    simp only [List.concat_eq_append, ← List.cons_append, ← List.append_assoc,
      List.getLast?_concat, Option.some.injEq] at h
    exact name.proper.no_slash (by simp [hb, h])
  rw [stem, if_neg hlast]

/-- Names joined to a path are its further pieces. -/
theorem pieces_foldl_join {dir : Path} (hne : dir ≠ []) (names : List Name) :
    pieces (stem (names.foldl join dir)) = pieces (stem dir) ++ names.map Name.bytes ∧
      (names ≠ [] → stem (names.foldl join dir) = names.foldl join dir) := by
  induction names generalizing dir with
  | nil => simp
  | cons name names ih =>
    have hjoin := join_eq hne name
    have hstem : stem (join dir name) = join dir name := by rw [hjoin, stem_append_name]
    have hpieces : pieces (stem (join dir name)) = pieces (stem dir) ++ [name.bytes] := by
      rw [hstem, hjoin, pieces, Text.pieces_append_sep,
        Text.pieces_of_not_mem name.proper.no_slash]
      rfl
    obtain ⟨hp, hs⟩ := ih (join_ne_nil dir name)
    rw [List.foldl_cons, hp, hpieces, List.append_assoc, List.singleton_append, List.map_cons]
    refine ⟨rfl, fun _ => ?_⟩
    by_cases hnames : names = []
    · rw [hnames]
      exact hstem
    · exact hs hnames

theorem foldl_join_ne_nil {dir : Path} (hne : dir ≠ []) (names : List Name) :
    names.foldl join dir ≠ [] := by
  induction names generalizing dir with
  | nil => exact hne
  | cons name names ih => exact ih (join_ne_nil dir name)

/-- No byte NUL comes in with names. -/
theorem nul_not_mem_foldl_join {dir : Path} (h : nul ∉ dir) (names : List Name) :
    nul ∉ names.foldl join dir := by
  induction names generalizing dir with
  | nil => exact h
  | cons name names ih =>
    have hname := name.proper.no_nul
    have hslash : nul ≠ slash := by decide
    refine ih ?_
    unfold join
    split <;> simp [h, hname, hslash]

theorem length_lt_join (dir : Path) (name : Name) : dir.length < (join dir name).length := by
  have hname := List.length_pos_iff.2 name.bytes_ne_nil
  unfold join
  split
  · simp only [List.length_append]
    omega
  · simp only [List.length_append, List.length_cons]
    omega

/-- Every name makes a path longer. -/
theorem length_foldl_join (dir : Path) (names : List Name) :
    dir.length + names.length ≤ (names.foldl join dir).length := by
  induction names generalizing dir with
  | nil => exact Nat.le_refl _
  | cons name names ih =>
    have hjoin := length_lt_join dir name
    have hrest := ih (join dir name)
    rw [List.foldl_cons, List.length_cons]
    omega

end Path

/-! ## Directories below a directory -/

namespace Tree

variable {t : Tree} {loc base : Location} {dir : Path}

/-- Names of directories are walked one by one. -/
theorem walk_dirs {n : Nat} {names : List Name}
    (hdirs : ∀ p, p <+: names → t.get? (loc ++ p) = some .dir) (rest : List Path) :
    t.walk n loc (names.map Name.bytes ++ rest) = t.walk n (loc ++ names) rest := by
  induction names generalizing loc with
  | nil => rw [List.map_nil, List.nil_append, List.append_nil]
  | cons name names ih =>
    have hhere := hdirs [] List.nil_prefix
    have hname := hdirs [name] (by simp)
    rw [List.append_nil] at hhere
    rw [List.map_cons, List.cons_append, walk_enter hhere hname (by simp), ih, List.append_assoc,
      List.singleton_append]
    intro p hp
    have := hdirs (name :: p) (List.prefix_cons_inj name |>.2 hp)
    rwa [List.append_assoc, List.singleton_append]

/-- Without the slash it ends in, a path to a directory leads there too. -/
theorem walk_pieces_stem (h : t.directory dir = .ok base) :
    t.walk linkLimit [] (Path.pieces (Path.stem dir)) = .ok base := by
  have hwalk := (resolve_eq_ok_iff.1 (directory_eq_ok_iff.1 h).1).2.2.2
  rcases Path.eq_stem_or dir with he | he
  · rwa [← he]
  · rw [he, Path.pieces, Text.pieces_append_sep] at hwalk
    cases hstem : t.walk linkLimit [] (Path.pieces (Path.stem dir)) with
    | error cause =>
      rw [Path.pieces] at hstem
      rw [walk_append_error hstem] at hwalk
      cases hwalk
    | ok y =>
      obtain ⟨m, -, hm⟩ := walk_append hstem
      have hlast : t.walk m y [[]] = .ok base := by rw [← hwalk, ← hm]; rfl
      rw [walk_cons] at hlast
      split at hlast
      · cases hlast
      · simpa [Path.stays] using hlast

/-- A path to a directory is not empty. -/
theorem ne_nil_of_directory (h : t.directory dir = .ok base) : dir ≠ [] :=
  (resolve_eq_ok_iff.1 (directory_eq_ok_iff.1 h).1).2.1

/-- Names of directories, joined to a path, lead down from where it leads, unless the path gets too
long. -/
theorem directory_foldl_join (h : t.directory dir = .ok base) {dirs : List Name}
    (hdirs : ∀ p, p <+: dirs → t.get? (base ++ p) = some .dir) :
    t.directory (dirs.foldl Path.join dir) =
      if Path.sizeLimit < (dirs.foldl Path.join dir).length then .error .nameTooLong
      else .ok (base ++ dirs) := by
  obtain ⟨hnul, hne, -, -⟩ := resolve_eq_ok_iff.1 (directory_eq_ok_iff.1 h).1
  have hnul' := Path.nul_not_mem_foldl_join hnul dirs
  have hne' := Path.foldl_join_ne_nil hne dirs
  have hwalk : t.walk linkLimit [] (Path.pieces (dirs.foldl Path.join dir)) =
      .ok (base ++ dirs) := by
    by_cases hnil : dirs = []
    · rw [hnil, List.append_nil]
      exact (resolve_eq_ok_iff.1 (directory_eq_ok_iff.1 h).1).2.2.2
    · obtain ⟨hpieces, hstem⟩ := Path.pieces_foldl_join hne dirs
      obtain ⟨m, -, hm⟩ := walk_append (walk_pieces_stem h)
      have hdown := walk_dirs (n := m) hdirs []
      rw [List.append_nil, walk_nil] at hdown
      rw [← hstem hnil, hpieces, hm, hdown]
  have hget := hdirs dirs (List.prefix_refl dirs)
  rw [directory, resolve, if_neg hnul', if_neg (by simpa using hne'), hwalk]
  split
  · rfl
  · simp only [ok_bind, hget, ↓reduceIte]

end Tree

/-! ## Listed candidates -/

namespace Candidate

variable {t : Tree} {dir : Path} {base : Location} {c : Candidate}

/-- The pieces of a candidate's path are its names behind the path of the directory. -/
theorem pieces_path (hdir : t.directory dir = .ok base) (c : Candidate) :
    Path.pieces (c.path dir) = Path.pieces (Path.stem dir) ++ c.names.map Name.bytes := by
  obtain ⟨hpieces, hstem⟩ := Path.pieces_foldl_join (Tree.ne_nil_of_directory hdir) c.names
  rw [path, ← hstem (List.concat_ne_nil c.name c.dirs), hpieces]

/-- A candidate's path is longer than those of its directories. -/
theorem length_lt_path {p : List Name} (hp : p <+: c.dirs) :
    (p.foldl Path.join dir).length < (c.path dir).length := by
  obtain ⟨rest, hrest⟩ := hp
  have h := Path.length_foldl_join (p.foldl Path.join dir) (rest ++ [c.name])
  rw [← List.foldl_append, ← List.append_assoc, hrest, List.length_append] at h
  exact Nat.lt_of_lt_of_le (by simp) h

/-- The path of a candidate leads to where it stands, if that is no link. -/
theorem walk_path (hdir : t.directory dir = .ok base)
    (hdirs : ∀ p, p <+: c.dirs → t.get? (base ++ p) = some .dir) {e : Entry}
    (he : t.get? (base ++ c.names) = some e) (hlink : ∀ target, e ≠ .link target) :
    t.walk Tree.linkLimit [] (Path.pieces (c.path dir)) = .ok (base ++ c.names) := by
  have he' : t.get? (base ++ c.dirs ++ [c.name]) = some e := by
    rw [List.append_assoc]
    exact he
  obtain ⟨m, -, hm⟩ := Tree.walk_append (Tree.walk_pieces_stem hdir)
  rw [pieces_path hdir, hm, names, List.map_append, Tree.walk_dirs hdirs, List.map_singleton,
    Tree.walk_enter (hdirs _ (List.prefix_refl _)) he' hlink, Tree.walk_nil, List.append_assoc]

/-- The directories of a candidate lead to the one it stands in. -/
theorem directoryAt_path (hdir : t.directory dir = .ok base)
    (hdirs : ∀ p, p <+: c.dirs → t.get? (base ++ p) = some .dir) (hnul : Path.nul ∉ c.path dir)
    (hsize : (c.path dir).length ≤ Path.sizeLimit) :
    t.directoryAt (Path.pieces (Path.stem dir) ++ c.dirs.map Name.bytes) =
      .ok (base ++ c.dirs) := by
  have hpieces := pieces_path hdir c
  rw [names, List.map_append, List.map_singleton, ← List.append_assoc] at hpieces
  have htext := Text.intercalate_pieces Path.slash (c.path dir)
  rw [← Path.pieces, hpieces] at htext
  refine Tree.directoryAt_eq_ok_iff.2 ⟨fun hany => ?_, ?_, ?_, hdirs _ (List.prefix_refl _)⟩
  · obtain ⟨p, hp, hc⟩ := List.any_eq_true.1 hany
    have hp' : p ∈ Text.pieces Path.slash (c.path dir) := by
      rw [← Path.pieces, hpieces]
      exact List.mem_append_left _ hp
    exact hnul (Text.mem_of_mem_pieces (by simpa using hc) hp')
  · have := Text.length_intercalate_le Path.slash
      (Path.pieces (Path.stem dir) ++ c.dirs.map Name.bytes) c.name.bytes
    rw [htext] at this
    omega
  · obtain ⟨m, -, hm⟩ := Tree.walk_append (Tree.walk_pieces_stem hdir)
    have hdown := Tree.walk_dirs (n := m) hdirs []
    rw [List.append_nil, Tree.walk_nil] at hdown
    rw [hm, hdown]

/-- The place of a candidate's path is the entry that its names lead to. -/
theorem place_path (hdir : t.directory dir = .ok base)
    (hdirs : ∀ p, p <+: c.dirs → t.get? (base ++ p) = some .dir)
    (hentry : t.get? (base ++ c.names) ≠ some .dir) (hnul : Path.nul ∉ c.path dir)
    (hsize : (c.path dir).length ≤ Path.sizeLimit) :
    t.place (c.path dir) = .ok (base ++ c.names) := by
  have hpieces := pieces_path hdir c
  have hparent := directoryAt_path hdir hdirs hnul hsize
  rw [names, List.map_append, List.map_singleton, ← List.append_assoc] at hpieces
  rw [names, ← List.append_assoc] at hentry ⊢
  exact Tree.place_of_parent hpieces hnul hsize hparent hentry

end Candidate

end TimeLimit
