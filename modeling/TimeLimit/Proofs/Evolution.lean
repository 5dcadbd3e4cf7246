import TimeLimit.Proofs.Stable
import TimeLimit.Proofs.Turn

/-!
# What a run does to a tree

`Evolves t t'` collects what stays of a tree when some of its files are replaced by their revisions:
the same locations are there, directories are directories, files that need no limit keep their text,
and paths find what they found. A path to a file still leads to a file; it reads as it did, or it
was readable and now reads as a text that needs no limit (`Evolves.read`). The relation is
reflexive and transitive, one turn of a run is an instance of it (`evolves_treat`), and so is a
whole run (`Request.evolves_treeAfter`). The candidates of a directory stay the same
(`Candidate.listing_evolves`), unless a link could not be followed before because there were too
many.
-/

namespace TimeLimit

/-! ## Texts that need no limit -/

/-- No test of a text lacks a limit, whatever the seconds of a revision. -/
def Settled (source : Text) : Prop :=
  ∀ seconds, (Revision.of source seconds).isChanged = false

/-- The seconds do not decide whether a revision changes a text. -/
theorem settled_of_not_changed {source : Text} {seconds : UInt64}
    (h : (Revision.of source seconds).isChanged = false) : Settled source :=
  fun _ => h

/-- A revised text needs no limit. -/
theorem settled_revision (source : Text) (seconds : UInt64) :
    Settled (Revision.of source seconds).text := by
  intro m
  have hadded : (Revision.of (Revision.of source seconds).text m).added = 0 := by
    rw [Revision.of, outline_text_of source seconds]
    exact Piece.countP_wantsLimit_withLimit _ seconds
  rw [Revision.isChanged, hadded]
  rfl

namespace Tree

variable {t t' t'' : Tree} {dir f : Location} {name : Name} {path : Path}

/-! ## The relation -/

/-- A tree in which some files were replaced by texts that need no limit. -/
structure Evolves (t t' : Tree) : Prop where
  locations : t'.entries.map Prod.fst = t.entries.map Prod.fst
  get?_dir : ∀ loc, t'.get? loc = some .dir ↔ t.get? loc = some .dir
  settled : ∀ loc s, t.get? loc = some (.file (.text s)) → Settled s →
    t'.get? loc = some (.file (.text s))
  resolve_ne : ∀ path, t.resolve path ≠ .error .tooManyLinks →
    t'.resolve path ≠ .error .tooManyLinks
  isFile : ∀ path, t.resolve path ≠ .error .tooManyLinks → t'.isFile path = t.isFile path
  read : ∀ path, t.resolve path ≠ .error .tooManyLinks → t'.read path = t.read path ∨
    ∃ s s', t.read path = .ok s ∧ t'.read path = .ok s' ∧ Settled s'
  place : ∀ path, t.isFile path = true → t'.place path = t.place path
  directory : ∀ path loc, t.directory path = .ok loc → t'.directory path = .ok loc

namespace Evolves

theorem refl (t : Tree) : t.Evolves t where
  locations := rfl
  get?_dir _ := Iff.rfl
  settled _ _ h _ := h
  resolve_ne _ h := h
  isFile _ _ := rfl
  read _ _ := .inl rfl
  place _ _ := rfl
  directory _ _ h := h

theorem trans (h : t.Evolves t') (h' : t'.Evolves t'') : t.Evolves t'' where
  locations := h'.locations.trans h.locations
  get?_dir loc := (h'.get?_dir loc).trans (h.get?_dir loc)
  settled loc s hget hs := h'.settled loc s (h.settled loc s hget hs) hs
  resolve_ne path hne := h'.resolve_ne path (h.resolve_ne path hne)
  isFile path hne := (h'.isFile path (h.resolve_ne path hne)).trans (h.isFile path hne)
  read path hne := by
    rcases h'.read path (h.resolve_ne path hne) with he' | ⟨s', s'', hs', hs'', hsettled⟩
    · rcases h.read path hne with he | ⟨s, s', hs, hs', hsettled⟩
      · exact .inl (he'.trans he)
      · exact .inr ⟨s, s', hs, he'.trans hs', hsettled⟩
    · rcases h.read path hne with he | ⟨s, -, hs, -, -⟩
      · exact .inr ⟨s', s'', he.symm.trans hs', hs'', hsettled⟩
      · exact .inr ⟨s, s'', hs, hs'', hsettled⟩
  place path hfile := by
    have hfile' := (h.isFile path (resolve_ne_of_isFile hfile)).trans hfile
    exact (h'.place path hfile').trans (h.place path hfile)
  directory path loc hdir := h'.directory path loc (h.directory path loc hdir)

/-- A path to a file still leads to one. -/
theorem isFile_of_isFile (h : t.Evolves t') (hfile : t.isFile path = true) :
    t'.isFile path = true :=
  (h.isFile path (resolve_ne_of_isFile hfile)).trans hfile

end Evolves

/-! ## Replacing a file -/

/-- Replacing a file that lacks limits by a text that needs none evolves a tree. -/
theorem Shows.evolves_put (h : t.Shows dir name f) {source s : Text}
    (hfile : t.get? f = some (.file (.text source))) (hsource : ¬ Settled source)
    (hs : Settled s) : t.Evolves (t.put (dir ++ [name]) (.file (.text s))) where
  locations := by
    rw [entries_put (concat_ne_root dir name) h.get?_ne.1, map_fst_replaceEntry]
  get?_dir := h.get?_put_dir _
  settled loc s' hget hs' := by
    rw [get?_put t (concat_ne_root dir name)]
    split
    · next hloc =>
      -- the file that is replaced is not settled, and a link is no file
      rw [hloc] at hget
      rcases h.entry_cases with rfl | ⟨target, n, hlink, -⟩
      · rw [hget] at hfile
        cases hfile
        exact absurd hs' hsource
      · rw [hget] at hlink
        cases hlink
    · exact hget
  resolve_ne path hne := h.resolve_put_ne _ hne
  isFile path hne := h.isFile_put _ hne
  read path hne := by
    rcases h.read_put s hne with he | ⟨hf, he⟩
    · exact .inl he
    · exact .inr ⟨source, s, read_eq_ok_iff.2 ⟨f, hf, hfile⟩, he, hs⟩
  place path hpath := by
    obtain ⟨x, hx⟩ := exists_resolve_of_isFile hpath
    exact h.place_put _ hx
  directory path loc hdir := by
    obtain ⟨hx, hget⟩ := directory_eq_ok_iff.1 hdir
    refine directory_eq_ok_iff.2 ⟨?_, (h.get?_put_dir _ loc).2 hget⟩
    have hne : t.resolve path ≠ .error .tooManyLinks := by simp [hx]
    rcases h.resolve_put (.text s) hne with he | ⟨hf, -⟩
    · rw [he, hx]
    · rw [hx] at hf
      cases hf
      rw [hget] at hfile
      cases hfile

end Tree

/-! ## Turns and runs -/

/-- Treating a file evolves the tree. -/
theorem evolves_treat (sys : System) (mode : Mode) (path : Path) (seconds : UInt64) (t : Tree) :
    t.Evolves (sys.treat mode path seconds t).2 := by
  obtain ⟨o, t', htreat, h⟩ := exists_treated sys mode path seconds t
  rw [htreat]
  cases h with
  | unreadable | kept | shown | unwritable => exact .refl t
  | @replaced source loc hread hchanged hmode hplace =>
    obtain ⟨dir, name, f, rfl, hshows, -, hfile, -⟩ := Tree.exists_shows hread hplace
    refine hshows.evolves_put hfile (fun hs => ?_) (settled_revision source seconds)
    rw [hs seconds] at hchanged
    cases hchanged

namespace Request

variable (r : Request) (sys : System)

theorem evolves_handle (c : Candidate) (t : Tree) : t.Evolves (r.handle sys c t).2.2 := by
  cases h : r.allot? c with
  | none =>
    rw [r.handle_of_allot?_none sys h]
    exact .refl t
  | some allotted =>
    rw [r.handle_of_allot?_some sys h]
    exact evolves_treat ..

/-- What each turn keeps, a run keeps. -/
theorem evolves_treeAfter (cs : List Candidate) (t : Tree) :
    t.Evolves (r.treeAfter sys cs t) := by
  induction cs generalizing t with
  | nil => exact .refl t
  | cons c cs ih => exact (r.evolves_handle sys c t).trans (ih _)

end Request

/-! ## Candidates -/

namespace Tree

/-- No lookup of an entry below a directory fails for too many symbolic links. -/
def LinksWithinLimit (t : Tree) (dir : Path) : Prop :=
  ∀ base names, t.directory dir = .ok base → t.get? (base ++ names) ≠ none →
    t.resolve (names.foldl Path.join dir) ≠ .error .tooManyLinks

/-- Something stands where something stood, and nowhere else. -/
theorem Evolves.get?_ne_none {t t' : Tree} (h : t.Evolves t') (loc : Location) :
    t'.get? loc ≠ none ↔ t.get? loc ≠ none := by
  by_cases hroot : loc = []
  · simp [hroot]
  · have hmem (t : Tree) : t.get? loc ≠ none ↔ loc ∈ t.entries.map Prod.fst := by
      refine ⟨mem_of_get? hroot, fun hm => ?_⟩
      obtain ⟨e, he⟩ := exists_get?_of_mem hm
      simp [he]
    rw [hmem, hmem, h.locations]

end Tree

namespace Candidate

variable {t t' : Tree} {dir : Path} {base : Location} {suffix : Text} {recursive : Bool}

/-- What stands there that is no directory, still stands there and is none. -/
theorem exists_entry_iff (h : t.Evolves t') (loc : Location) :
    (∃ e, t'.get? loc = some e ∧ e ≠ .dir) ↔ ∃ e, t.get? loc = some e ∧ e ≠ .dir := by
  have hiff (t : Tree) : (∃ e, t.get? loc = some e ∧ e ≠ .dir) ↔
      t.get? loc ≠ none ∧ t.get? loc ≠ some .dir := by
    cases t.get? loc <;> simp
  rw [hiff, hiff, h.get?_ne_none, ne_eq (t'.get? loc) (some .dir), h.get?_dir]

/-- The same candidates are listed, if links do not run out below the directory. -/
theorem listed_evolves_iff {sys sys' : System} (hclosed : sys'.closed = sys.closed)
    (h : t.Evolves t') (hbase : t.directory dir = .ok base) (hlinks : t.LinksWithinLimit dir)
    (c : Candidate) : Listed sys' t' dir suffix recursive base c ↔
      Listed sys t dir suffix recursive base c := by
  have hfile (hentry : ∃ e, t.get? (base ++ c.names) = some e ∧ e ≠ .dir) :
      t'.isFile (c.path dir) = t.isFile (c.path dir) := by
    obtain ⟨e, he, -⟩ := hentry
    exact h.isFile _ (hlinks base c.names hbase (by simp [he]))
  constructor
  · rintro ⟨hnamed, hflat, hentered, hdirs, hopen, hentry, hisFile⟩
    have hentry := (exists_entry_iff h _).1 hentry
    exact ⟨hnamed, hflat, hentered, fun p hp => (h.get?_dir _).1 (hdirs p hp), hclosed ▸ hopen,
      hentry, hfile hentry ▸ hisFile⟩
  · rintro ⟨hnamed, hflat, hentered, hdirs, hopen, hentry, hisFile⟩
    exact ⟨hnamed, hflat, hentered, fun p hp => (h.get?_dir _).2 (hdirs p hp), hclosed ▸ hopen,
      (exists_entry_iff h _).2 hentry, (hfile hentry).trans hisFile⟩

/-- The candidates of a directory stay the same, on a system that lists the same directories. -/
theorem listing_evolves {sys sys' : System} (hclosed : sys'.closed = sys.closed)
    (h : t.Evolves t') (hlinks : t.LinksWithinLimit dir) {cs : List Candidate}
    (hcs : listing sys t dir suffix recursive = .ok cs) :
    listing sys' t' dir suffix recursive = .ok cs := by
  obtain ⟨base, hbase, -⟩ := exists_of_listing hcs
  rw [← hcs]
  exact listing_congr hbase (h.directory dir base hbase) (congrFun hclosed dir)
    (listed_evolves_iff hclosed h hbase hlinks)

end Candidate

end TimeLimit
