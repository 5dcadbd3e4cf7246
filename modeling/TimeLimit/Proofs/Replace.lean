import TimeLimit.Proofs.Walk
import TimeLimit.Tree.Replace

/-!
# Replacing a file that can be read

A path at whose end a text can be read may be replaced: its own entry, a file or a link that leads
to one, becomes a file. `Shows` says what stands at that place. Replacing it changes where paths
lead only for those that led to the file that was shown: such a path may now lead to the new entry
instead (`resolve_put`), and then it shows the new content (`entry_put`). Directories, and so the
places of other files, stay (`place_put`).

All this needs that links do not run out. A path that fails for too many links may well lead
somewhere once a link on its way has become a file.
-/

namespace TimeLimit

/-! ## Pieces of a path -/

namespace Path

/-- A path that does not end in a slash ends in a piece that is not empty. -/
theorem exists_pieces_eq {path : Path} (hne : path ≠ []) (hslash : path.getLast? ≠ some slash) :
    ∃ front name, pieces path = front ++ [name] ∧ name ≠ [] := by
  induction path with
  | nil => exact absurd rfl hne
  | cons c path ih =>
    by_cases hpath : path = []
    · subst hpath
      have hc : c ≠ slash := fun h => hslash (by rw [h]; rfl)
      exact ⟨[], [c], by simp [pieces, Text.pieces, hc], List.cons_ne_nil _ _⟩
    · have hlast : (c :: path).getLast? = path.getLast? := by
        rw [List.getLast?_cons, List.getLast?_eq_some_getLast hpath]
        rfl
      obtain ⟨front, name, hp, hname⟩ := ih hpath (hlast ▸ hslash)
      rw [pieces] at hp
      rw [pieces, Text.pieces, hp]
      split
      · exact ⟨[] :: front, name, rfl, hname⟩
      · cases front with
        | nil => exact ⟨[], c :: name, rfl, List.cons_ne_nil _ _⟩
        | cons p front => exact ⟨(c :: p) :: front, name, rfl, hname⟩

/-- Then there is nothing to trim. -/
theorem trimmedPieces_eq {path : Path} (hne : path ≠ []) (hslash : endsInSlash path = false) :
    trimmedPieces path = pieces path := by
  obtain ⟨front, name, hp, hname⟩ := exists_pieces_eq hne (by simpa [endsInSlash] using hslash)
  have hempty : name.isEmpty = false := by simpa using hname
  simp [trimmedPieces, hp, hempty]

/-- The pieces of the directory of a path start the pieces of the path. -/
theorem directoryPieces_prefix (path : Path) : directoryPieces path <+: pieces path := by
  have h : ((pieces path).reverse.dropWhile stays).reverse <+: pieces path := by
    rw [← List.reverse_suffix, List.reverse_reverse]
    exact List.dropWhile_suffix _
  exact (List.dropLast_prefix _).trans h

theorem dropLast_trimmedPieces_prefix (path : Path) :
    (trimmedPieces path).dropLast <+: pieces path := by
  have h : trimmedPieces path <+: pieces path := by
    rw [← List.reverse_suffix, trimmedPieces, List.reverse_reverse]
    exact List.dropWhile_suffix _
  exact (List.dropLast_prefix _).trans h

end Path

namespace Tree

variable {t : Tree} {dir f x : Location} {name : Name} {path : Path} {c : Content}

/-- A name in a directory does not stand at the root. -/
theorem concat_ne_root (dir : Location) (name : Name) : dir ++ [name] ≠ [] :=
  List.append_ne_nil_of_right_ne_nil _ (List.cons_ne_nil _ _)

/-! ## What a name shows -/

/-- A name in a directory shows a file: what stands there is the file itself, or a link that leads
to it. -/
structure Shows (t : Tree) (dir : Location) (name : Name) (f : Location) : Prop where
  leads : ∃ n, t.walk n dir [name.bytes] = .ok f
  file : ∃ c, t.get? f = some (.file c)

namespace Shows

theorem get?_dir (h : t.Shows dir name f) : t.get? dir = some .dir := by
  obtain ⟨n, hn⟩ := h.leads
  refine Decidable.byContradiction fun hdir => ?_
  rw [walk_outside hdir] at hn
  cases hn

/-- The entry of a name that shows a file is that file, or a link from which a walk leads to it. -/
theorem entry_cases (h : t.Shows dir name f) :
    f = dir ++ [name] ∨ ∃ target n, t.get? (dir ++ [name]) = some (.link target) ∧
      t.walk n (linkStart dir target) (Path.pieces target) = .ok f := by
  obtain ⟨n, hn⟩ := h.leads
  rw [walk_name h.get?_dir] at hn
  split at hn
  · cases hn
  · next target hlink =>
    cases n with
    | zero => cases hn
    | succ n =>
      rw [follow, List.append_nil] at hn
      exact .inr ⟨target, n, hlink, hn⟩
  · rw [walk_nil] at hn
    exact .inl (Except.ok.inj hn).symm

/-- Something stands at a name that shows a file, and it is no directory. -/
theorem get?_ne (h : t.Shows dir name f) :
    t.get? (dir ++ [name]) ≠ none ∧ t.get? (dir ++ [name]) ≠ some .dir := by
  rcases h.entry_cases with rfl | ⟨target, n, hlink, -⟩
  · obtain ⟨c, hc⟩ := h.file
    simp [hc]
  · simp [hlink]

/-- A replaced entry leaves all directories as they are. -/
theorem get?_put_dir (h : t.Shows dir name f) (c : Content) (x : Location) :
    (t.put (dir ++ [name]) (.file c)).get? x = some .dir ↔ t.get? x = some .dir := by
  rw [get?_put t (concat_ne_root dir name)]
  split
  · next hx =>
    subst hx
    simp [h.get?_ne.2]
  · rfl

/-- No entry is taken away or added. -/
theorem get?_put_none (h : t.Shows dir name f) (c : Content) (x : Location) :
    (t.put (dir ++ [name]) (.file c)).get? x = none ↔ t.get? x = none := by
  rw [get?_put t (concat_ne_root dir name)]
  split
  · next hx =>
    subst hx
    simp [h.get?_ne.1]
  · rfl

end Shows

/-! ## Walks in the changed tree -/

/-- Where the name that is replaced is a link, what a walk did behind it is now done by the file: at
the end of the pieces it is the walk's end, and before other pieces it is no directory. -/
theorem Shows.walks_put_at_link (h : t.Shows dir name f) (c : Content) {target : Path}
    (hlink : t.get? (dir ++ [name]) = some (.link target)) {n : Nat} {rest : List Path}
    {r : Except Cause Location}
    (hw : t.walk n (linkStart dir target) (Path.pieces target ++ rest) = r)
    (hr : r ≠ .error .tooManyLinks) :
    ∃ r', Walks (t.put (dir ++ [name]) (.file c)) (n + 1) (dir ++ [name]) rest r' ∧
      (r' = r ∨ r = .ok f ∧ r' = .ok (dir ++ [name])) := by
  obtain ⟨k, hk⟩ : ∃ k, t.walk k (linkStart dir target) (Path.pieces target) = .ok f := by
    rcases h.entry_cases with rfl | ⟨target', k, hlink', hk⟩
    · obtain ⟨c', hc'⟩ := h.file
      rw [hlink] at hc'
      cases hc'
    · rw [hlink] at hlink'
      cases hlink'
      exact ⟨k, hk⟩
  have hf : t.walk n (linkStart dir target) (Path.pieces target) = .ok f := by
    rw [walk_agree (m := k) (fun he => ?_) (by simp [hk]), hk]
    exact hr (hw ▸ walk_append_error he rest)
  cases rest with
  | nil =>
    rw [List.append_nil, hf] at hw
    exact ⟨_, .done _ _, .inr ⟨hw.symm, rfl⟩⟩
  | cons piece rest =>
    obtain ⟨m, -, hm⟩ := walk_append hf
    obtain ⟨c', hc'⟩ := h.file
    rw [hm, walk_outside (by simp [hc'])] at hw
    refine ⟨_, .outside ?_, .inl hw⟩
    simp [get?_put_self t (concat_ne_root dir name)]

/-- A walk in the changed tree ends as it did, or at the new entry where it ended at the file that
was shown there. -/
theorem Shows.walks_put (h : t.Shows dir name f) (c : Content) {n : Nat} {loc : Location}
    {ps : List Path} {r : Except Cause Location} (hw : Walks t n loc ps r)
    (hr : r ≠ .error .tooManyLinks) :
    ∃ r', Walks (t.put (dir ++ [name]) (.file c)) n loc ps r' ∧
      (r' = r ∨ r = .ok f ∧ r' = .ok (dir ++ [name])) := by
  have hnew := get?_put t (concat_ne_root dir name) (.file c)
  induction hw with
  | done n loc => exact ⟨_, .done n loc, .inl rfl⟩
  | outside hdir => exact ⟨_, .outside (mt (h.get?_put_dir c _).1 hdir), .inl rfl⟩
  | stay hdir hs _ ih =>
    obtain ⟨r', hw', hr'⟩ := ih hr
    exact ⟨r', .stay ((h.get?_put_dir c _).2 hdir) hs hw', hr'⟩
  | up hdir _ ih =>
    obtain ⟨r', hw', hr'⟩ := ih hr
    exact ⟨r', .up ((h.get?_put_dir c _).2 hdir) hw', hr'⟩
  | nameless hdir hs hu hn => exact ⟨_, .nameless ((h.get?_put_dir c _).2 hdir) hs hu hn, .inl rfl⟩
  | missing hdir hn =>
    exact ⟨_, .missing ((h.get?_put_dir c _).2 hdir) ((h.get?_put_none c _).2 hn), .inl rfl⟩
  | @enter n loc rest e r name' hdir he hlink _ ih =>
    obtain ⟨r', hw', hr'⟩ := ih hr
    have hdir' := (h.get?_put_dir c _).2 hdir
    by_cases hx : loc ++ [name'] = dir ++ [name]
    · exact ⟨r', .enter hdir' (by rw [hnew, if_pos hx]) (by simp) hw', hr'⟩
    · exact ⟨r', .enter hdir' (by rw [hnew, if_neg hx, he]) hlink hw', hr'⟩
  | @link n loc rest target r name' hdir he hw ih =>
    have hdir' := (h.get?_put_dir c _).2 hdir
    by_cases hx : loc ++ [name'] = dir ++ [name]
    · obtain ⟨rfl, hname⟩ := List.append_inj' hx rfl
      cases hname
      obtain ⟨r', hw', hr'⟩ := h.walks_put_at_link c he hw.walk_eq hr
      exact ⟨r', .enter hdir' (by rw [hnew, if_pos rfl]) (by simp) hw', hr'⟩
    · obtain ⟨r', hw', hr'⟩ := ih hr
      exact ⟨r', .link hdir' (by rw [hnew, if_neg hx, he]) hw', hr'⟩
  | tired => exact absurd rfl hr

theorem Shows.walk_put (h : t.Shows dir name f) (c : Content) {n : Nat} {loc : Location}
    {ps : List Path} (hr : t.walk n loc ps ≠ .error .tooManyLinks) :
    (t.put (dir ++ [name]) (.file c)).walk n loc ps = t.walk n loc ps ∨
      t.walk n loc ps = .ok f ∧
        (t.put (dir ++ [name]) (.file c)).walk n loc ps = .ok (dir ++ [name]) := by
  obtain ⟨r', hw', hr'⟩ := h.walks_put c (walks_walk t n loc ps) hr
  rw [hw'.walk_eq]
  exact hr'

/-- A walk to a directory ends there in the changed tree. -/
theorem Shows.walk_put_dir (h : t.Shows dir name f) (c : Content) {n : Nat} {loc : Location}
    {ps : List Path} (hx : t.get? x = some .dir) (hw : t.walk n loc ps = .ok x) :
    (t.put (dir ++ [name]) (.file c)).walk n loc ps = .ok x := by
  have hr : t.walk n loc ps ≠ .error .tooManyLinks := by simp [hw]
  rcases h.walk_put c hr with h' | ⟨h', -⟩
  · rw [h', hw]
  · obtain ⟨c', hc'⟩ := h.file
    rw [hw] at h'
    cases h'
    rw [hx] at hc'
    cases hc'

/-! ## Paths in the changed tree -/

/-- A path leads where it led, or to the new entry where it led to the file that was shown there. -/
theorem Shows.resolve_put (h : t.Shows dir name f) (c : Content)
    (hr : t.resolve path ≠ .error .tooManyLinks) :
    (t.put (dir ++ [name]) (.file c)).resolve path = t.resolve path ∨
      t.resolve path = .ok f ∧
        (t.put (dir ++ [name]) (.file c)).resolve path = .ok (dir ++ [name]) := by
  unfold resolve at hr ⊢
  split
  · exact .inl rfl
  · split
    · exact .inl rfl
    · split
      · exact .inl rfl
      · next h₁ h₂ h₃ =>
        rw [if_neg h₁, if_neg h₂, if_neg h₃] at hr
        exact h.walk_put c hr

/-- A path shows what it showed, or the new content where it led to the file that was shown
there. -/
theorem Shows.entry_put (h : t.Shows dir name f) (c : Content)
    (hr : t.resolve path ≠ .error .tooManyLinks) :
    (t.put (dir ++ [name]) (.file c)).entry path = t.entry path ∨
      t.resolve path = .ok f ∧
        (t.put (dir ++ [name]) (.file c)).entry path = .ok (.file c) := by
  have hnew := get?_put t (concat_ne_root dir name) (.file c)
  rcases h.resolve_put c hr with h' | ⟨hf, h'⟩
  · cases hx : t.resolve path with
    | error cause =>
      left
      simp [entry, h', hx, bind, Except.bind]
    | ok x =>
      by_cases hxloc : x = dir ++ [name]
      · have hfile : f = dir ++ [name] := by
          rcases h.entry_cases with hf | ⟨target, n, hlink, -⟩
          · exact hf
          · rcases file_or_dir_of_resolve hx with hd | ⟨c', hc'⟩
            · rw [hxloc, hlink] at hd
              cases hd
            · rw [hxloc, hlink] at hc'
              cases hc'
        right
        refine ⟨by rw [hxloc, hfile], ?_⟩
        simp [entry, h', hx, bind, Except.bind, hnew, hxloc]
      · left
        simp [entry, h', hx, bind, Except.bind, hnew, hxloc]
  · right
    exact ⟨hf, by simp [entry, h', bind, Except.bind, hnew]⟩

theorem entry_eq_of_resolve {e : Entry} (hr : t.resolve path = .ok x) (he : t.get? x = some e) :
    t.entry path = .ok e := by
  simp [entry, hr, bind, Except.bind, he]

/-- Replacing makes no file of what was none, and nothing else of a file. -/
theorem Shows.isFile_put (h : t.Shows dir name f) (c : Content)
    (hr : t.resolve path ≠ .error .tooManyLinks) :
    (t.put (dir ++ [name]) (.file c)).isFile path = t.isFile path := by
  rcases h.entry_put c hr with h' | ⟨hf, h'⟩
  · rw [isFile, h', isFile]
  · obtain ⟨c', hc'⟩ := h.file
    rw [isFile, h', isFile, entry_eq_of_resolve hf hc']

/-- A path reads as it did, or as the new text where it led to the file that was shown there. -/
theorem Shows.read_put (h : t.Shows dir name f) (s : Text)
    (hr : t.resolve path ≠ .error .tooManyLinks) :
    (t.put (dir ++ [name]) (.file (.text s))).read path = t.read path ∨
      t.resolve path = .ok f ∧
        (t.put (dir ++ [name]) (.file (.text s))).read path = .ok s := by
  rcases h.entry_put (.text s) hr with h' | ⟨hf, h'⟩
  · left
    simp only [read, h']
  · right
    exact ⟨hf, by simp [read, h', bind, Except.bind]⟩

/-- Links do not run out in the changed tree where they did not before. -/
theorem Shows.resolve_put_ne (h : t.Shows dir name f) (c : Content)
    (hr : t.resolve path ≠ .error .tooManyLinks) :
    (t.put (dir ++ [name]) (.file c)).resolve path ≠ .error .tooManyLinks := by
  rcases h.resolve_put c hr with h' | ⟨-, h'⟩
  · rwa [h']
  · simp [h']

/-! ## Places in the changed tree -/

/-- Directories are found as before. -/
theorem Shows.directoryAt_put (h : t.Shows dir name f) (c : Content) {ps : List Path}
    (hr : t.walk linkLimit [] ps ≠ .error .tooManyLinks) :
    (t.put (dir ++ [name]) (.file c)).directoryAt ps = t.directoryAt ps := by
  unfold directoryAt
  split
  · rfl
  · split
    · rfl
    · rcases h.walk_put c hr with h' | ⟨hf, h'⟩
      · rw [h']
        cases t.walk linkLimit [] ps with
        | error cause => rfl
        | ok x =>
          simp only [bind, Except.bind, h.get?_put_dir c x]
      · -- the walk led to a file, and it still does
        obtain ⟨c', hc'⟩ := h.file
        simp [h', hf, bind, Except.bind, hc', get?_put_self t (concat_ne_root dir name)]

/-- A path that leads somewhere keeps its place. -/
theorem Shows.place_put (h : t.Shows dir name f) (c : Content) (hx : t.resolve path = .ok x) :
    (t.put (dir ++ [name]) (.file c)).place path = t.place path := by
  have hwalk (ps : List Path) (hps : ps <+: Path.pieces path) :
      t.walk linkLimit [] ps ≠ .error .tooManyLinks := by
    intro he
    obtain ⟨qs, hqs⟩ := hps
    have := walk_append_error he qs
    rw [hqs, (resolve_eq_ok_iff.1 hx).2.2.2] at this
    cases this
  have hdir := h.directoryAt_put c (hwalk _ (Path.directoryPieces_prefix path))
  have htrim := h.directoryAt_put c (hwalk _ (Path.dropLast_trimmedPieces_prefix path))
  unfold place target
  rw [hdir, htrim]
  simp only [h.get?_put_dir c]

/-! ## Paths that can be read and replaced -/

/-- A path reads as a text when it leads to a file that holds it. -/
theorem read_eq_ok_iff {s : Text} :
    t.read path = .ok s ↔ ∃ x, t.resolve path = .ok x ∧ t.get? x = some (.file (.text s)) := by
  unfold read entry
  cases t.resolve path with
  | error cause => simp [bind, Except.bind]
  | ok x =>
    simp only [bind, Except.bind, Except.ok.injEq, exists_eq_left']
    cases t.get? x with
    | none => simp
    | some e =>
      cases e with
      | file c => cases c <;> simp
      | dir => simp
      | link target => simp

theorem directoryAt_eq_ok_iff {ps : List Path} : t.directoryAt ps = .ok dir ↔
    ¬ ps.any (·.contains Path.nul) ∧ ([Path.slash].intercalate ps).length ≤ Path.sizeLimit ∧
      t.walk linkLimit [] ps = .ok dir ∧ t.get? dir = some .dir := by
  simp only [directoryAt, ite_error_eq_ok_iff, bind_eq_ok_iff, ite_ok_eq_ok_iff, Nat.not_lt]
  constructor
  · rintro ⟨hnul, hsize, _, hwalk, hdir, rfl⟩
    exact ⟨hnul, hsize, hwalk, hdir⟩
  · rintro ⟨hnul, hsize, hwalk, hdir⟩
    exact ⟨hnul, hsize, dir, hwalk, hdir, rfl⟩

/-- A path that ends in a name can be replaced there: the pieces before the name lead to a
directory, and the name is not that of a directory. -/
theorem place_of_parent {front : List Path} (hpieces : Path.pieces path = front ++ [name.bytes])
    (hnul : Path.nul ∉ path) (hsize : path.length ≤ Path.sizeLimit)
    (hdir : t.directoryAt front = .ok dir) (hget : t.get? (dir ++ [name]) ≠ some .dir) :
    t.place path = .ok (dir ++ [name]) := by
  have hslash : Path.endsInSlash path = false := by
    rw [Path.endsInSlash, decide_eq_false_iff_not]
    intro hlast
    obtain ⟨s, rfl⟩ := List.getLast?_eq_some_iff.1 hlast
    rw [Path.pieces, Text.pieces_append_sep] at hpieces
    obtain ⟨-, hlast⟩ := List.append_inj' hpieces rfl
    exact name.bytes_ne_nil (List.cons.inj hlast).1.symm
  have hne : path ≠ [] := by
    rintro rfl
    replace hpieces : [] ++ [[]] = front ++ [name.bytes] := hpieces
    obtain ⟨-, hlast⟩ := List.append_inj' hpieces rfl
    exact name.bytes_ne_nil (List.cons.inj hlast).1.symm
  have hfront : Path.directoryPieces path = front := by
    rw [Path.directoryPieces, hpieces, List.reverse_concat,
      List.dropWhile_cons_of_neg (by simp [name.proper.not_stays]), List.reverse_cons,
      List.reverse_reverse, List.dropLast_concat]
  simp only [place, bind_eq_ok_iff, ite_error_eq_ok_iff]
  refine ⟨dir, by rw [hfront, hdir], hnul, ?_⟩
  rw [target, Path.trimmedPieces_eq hne hslash, hpieces, List.getLast?_concat,
    List.dropLast_concat]
  simp only [bind_eq_ok_iff, ite_error_eq_ok_iff, Name.ofPiece?_bytes]
  refine ⟨dir, hdir, Nat.not_lt.2 hsize, ?_, by simp [hslash], hget, rfl⟩
  simp [name.proper.not_stays, name.proper.ne_up]

/-- The place of a path is a name in the directory that the path's other pieces lead to. -/
theorem exists_of_place {loc : Location} (h : t.place path = .ok loc) :
    ∃ dir name, loc = dir ++ [name] ∧
      Path.pieces path = (Path.pieces path).dropLast ++ [name.bytes] ∧
      t.walk linkLimit [] (Path.pieces path).dropLast = .ok dir ∧ t.get? dir = some .dir := by
  simp only [place, bind_eq_ok_iff, ite_error_eq_ok_iff] at h
  obtain ⟨-, -, -, h⟩ := h
  unfold target at h
  split at h
  · cases h
  · next piece hpiece =>
    simp only [bind_eq_ok_iff, ite_error_eq_ok_iff] at h
    obtain ⟨dir, hdir, -, -, h⟩ := h
    split at h
    · cases h
    · next name hname =>
      obtain rfl := Name.ofPiece?_eq_some_iff.1 hname
      simp only [ite_error_eq_ok_iff, Except.ok.injEq] at h
      obtain ⟨hslash, -, rfl⟩ := h
      have hne : path ≠ [] := by
        rintro rfl
        simp [Path.trimmedPieces, Path.pieces, Text.pieces] at hpiece
      rw [Path.trimmedPieces_eq hne (by simpa using hslash)] at hpiece hdir
      obtain ⟨front, hfront⟩ := List.getLast?_eq_some_iff.1 hpiece
      obtain ⟨-, -, hwalk, hget⟩ := directoryAt_eq_ok_iff.1 hdir
      refine ⟨dir, name, rfl, ?_, hwalk, hget⟩
      rw [hfront, List.dropLast_concat]

/-- A path that can be read and replaced shows its file at its place, and once it is replaced it
leads to that place itself. -/
theorem exists_shows {s : Text} {loc : Location} (hread : t.read path = .ok s)
    (hplace : t.place path = .ok loc) :
    ∃ dir name f, loc = dir ++ [name] ∧ t.Shows dir name f ∧ t.resolve path = .ok f ∧
      t.get? f = some (.file (.text s)) ∧
      ∀ c, (t.put loc (.file c)).resolve path = .ok loc := by
  obtain ⟨f, hf, hfile⟩ := read_eq_ok_iff.1 hread
  obtain ⟨dir, name, rfl, hpieces, hwalk, hdir⟩ := exists_of_place hplace
  obtain ⟨hnul, hne, hsize, hpath⟩ := resolve_eq_ok_iff.1 hf
  have hshows : t.Shows dir name f := by
    obtain ⟨m, -, hm⟩ := walk_append hwalk
    rw [hpieces, hm] at hpath
    exact ⟨⟨m, hpath⟩, ⟨_, hfile⟩⟩
  refine ⟨dir, name, f, rfl, hshows, hf, hfile, fun c => ?_⟩
  obtain ⟨m, -, hm⟩ := walk_append (hshows.walk_put_dir c hdir hwalk)
  refine resolve_eq_ok_iff.2 ⟨hnul, hne, hsize, ?_⟩
  have hnew := get?_put_self t (concat_ne_root dir name) (.file c)
  rw [hpieces, hm, walk_enter ((hshows.get?_put_dir c dir).2 hdir) hnew (by simp), walk_nil]

end Tree

end TimeLimit
