import TimeLimit.Proofs.Search

/-!
# Trees of the same shape

Two trees have the same shape when they differ in what their files hold and in nothing else
(`Tree.SameShape`). Contents play no part in where paths lead: walks end in the same places
(`SameShape.walk_eq`), and so paths lead to the same locations, of which the same are files, and are
replaced in the same places (`SameShape.place_eq`). The candidates of a directory are the same too
(`Candidate.listing_of_sameShape`): what is listed is decided by what stands where, and not by the
order in which the tree holds its entries.
-/

namespace TimeLimit

/-- What can be seen of an entry without opening files. -/
def Entry.shape : Entry → Entry
  | .file _ => .file (.text [])
  | e => e

namespace Tree

/-- The second tree differs from the first in the contents of files only. -/
def SameShape (t t' : Tree) : Prop :=
  ∀ loc, (t'.get? loc).map Entry.shape = (t.get? loc).map Entry.shape

variable {t t' t'' : Tree} {loc x : Location} {path : Path}

/-! ## Locations -/

/-- Trees that differ in what one file holds have the same shape. -/
theorem sameShape_of_one_file {c c' : Content} (h : t.get? loc = some (.file c))
    (h' : t'.get? loc = some (.file c')) (hothers : ∀ x, x ≠ loc → t'.get? x = t.get? x) :
    t.SameShape t' := by
  intro x
  by_cases hx : x = loc
  · rw [hx, h, h']
    rfl
  · rw [hothers x hx]

theorem sameShape_put {c : Content} (h : t.get? loc = some (.file c)) (hne : loc ≠ [])
    (c' : Content) : t.SameShape (t.put loc (.file c')) :=
  sameShape_of_one_file h (get?_put_self t hne _) fun _ hx => get?_put_of_ne t hx _

namespace SameShape

theorem refl (t : Tree) : t.SameShape t :=
  fun _ => rfl

theorem symm (h : t.SameShape t') : t'.SameShape t :=
  fun loc => (h loc).symm

theorem trans (h : t.SameShape t') (h' : t'.SameShape t'') : t.SameShape t'' :=
  fun loc => (h' loc).trans (h loc)

theorem exists_of_get? (h : t.SameShape t') {e : Entry} (he : t.get? loc = some e) :
    ∃ e', t'.get? loc = some e' ∧ e'.shape = e.shape := by
  have hloc := h loc
  rw [he, Option.map_some, Option.map_eq_some_iff] at hloc
  exact hloc

theorem get?_eq_none_iff (h : t.SameShape t') : t'.get? loc = none ↔ t.get? loc = none := by
  rw [← Option.map_eq_none_iff (f := Entry.shape), h loc, Option.map_eq_none_iff]

/-- Directories and links are seen without opening files. -/
theorem get?_eq_of_not_file (h : t.SameShape t') {e : Entry} (he : t.get? loc = some e)
    (hfile : ∀ c, e ≠ .file c) : t'.get? loc = some e := by
  obtain ⟨e', he', hshape⟩ := h.exists_of_get? he
  rw [he']
  cases e with
  | file c => exact absurd rfl (hfile c)
  | dir | link target => cases e' <;> simp_all [Entry.shape]

theorem get?_eq_dir_iff (h : t.SameShape t') : t'.get? loc = some .dir ↔ t.get? loc = some .dir :=
  ⟨fun he => h.symm.get?_eq_of_not_file he nofun, fun he => h.get?_eq_of_not_file he nofun⟩

theorem exists_file (h : t.SameShape t') {c : Content} (he : t.get? loc = some (.file c)) :
    ∃ c', t'.get? loc = some (.file c') := by
  obtain ⟨e', he', hshape⟩ := h.exists_of_get? he
  cases e' with
  | file c' => exact ⟨c', he'⟩
  | dir | link target => cases hshape

end SameShape

/-! ## Paths -/

/-- A walk does not open files. -/
theorem Walks.of_sameShape (h : t.SameShape t') {n : Nat} {ps : List Path}
    {r : Except Cause Location} (hw : Walks t n loc ps r) : Walks t' n loc ps r := by
  induction hw with
  | done n loc => exact .done n loc
  | outside hdir => exact .outside (mt h.get?_eq_dir_iff.1 hdir)
  | stay hdir hs _ ih => exact .stay (h.get?_eq_dir_iff.2 hdir) hs ih
  | up hdir _ ih => exact .up (h.get?_eq_dir_iff.2 hdir) ih
  | nameless hdir hs hu hn => exact .nameless (h.get?_eq_dir_iff.2 hdir) hs hu hn
  | missing hdir hn => exact .missing (h.get?_eq_dir_iff.2 hdir) (h.get?_eq_none_iff.2 hn)
  | enter hdir he hlink _ ih =>
    obtain ⟨e', he', hshape⟩ := h.exists_of_get? he
    refine .enter (h.get?_eq_dir_iff.2 hdir) he' ?_ ih
    rintro target rfl
    exact hlink target (Option.some.inj (he.symm.trans (h.symm.get?_eq_of_not_file he' nofun)))
  | link hdir he _ ih =>
    exact .link (h.get?_eq_dir_iff.2 hdir) (h.get?_eq_of_not_file he nofun) ih
  | tired hdir he => exact .tired (h.get?_eq_dir_iff.2 hdir) (h.get?_eq_of_not_file he nofun)

namespace SameShape

variable (h : t.SameShape t')
include h

theorem walk_eq (n : Nat) (loc : Location) (ps : List Path) : t'.walk n loc ps = t.walk n loc ps :=
  ((walks_walk t n loc ps).of_sameShape h).walk_eq

theorem resolve_eq (path : Path) : t'.resolve path = t.resolve path := by
  rw [resolve, resolve, h.walk_eq]

/-- The same paths lead to files. -/
theorem isFile_eq (path : Path) : t'.isFile path = t.isFile path := by
  rw [isFile, isFile, entry, entry, h.resolve_eq]
  cases t.resolve path with
  | error cause => rfl
  | ok x =>
    simp only [bind, Except.bind]
    cases he : t.get? x with
    | none => rw [h.get?_eq_none_iff.2 he]
    | some e =>
      cases e with
      | file c =>
        obtain ⟨c', he'⟩ := h.exists_file he
        rw [he']
      | dir | link target => rw [h.get?_eq_of_not_file he fun _ hfile => by cases hfile]

/-- A path reads as it did when the file that it leads to holds what it held. -/
theorem read_eq (hx : t.resolve path = .ok x) (hget : t'.get? x = t.get? x) :
    t'.read path = t.read path := by
  rw [read, read, entry, entry, h.resolve_eq, hx]
  simp only [bind, Except.bind, hget]

theorem directory_eq (path : Path) : t'.directory path = t.directory path := by
  rw [directory, directory, h.resolve_eq]
  simp only [h.get?_eq_dir_iff]

theorem directoryAt_eq (ps : List Path) : t'.directoryAt ps = t.directoryAt ps := by
  simp only [directoryAt, h.walk_eq, h.get?_eq_dir_iff]

/-- Paths are replaced in the same places. -/
theorem place_eq (path : Path) : t'.place path = t.place path := by
  simp only [place, target, h.directoryAt_eq, h.get?_eq_dir_iff]

end SameShape

end Tree

/-! ## Candidates -/

namespace Candidate

variable {t t' : Tree} {dir : Path} {suffix : Text} {recursive : Bool} {base : Location}
  {c : Candidate}

/-- What is listed is decided without opening files. -/
theorem Listed.of_sameShape {sys : System} (h : t.SameShape t')
    (hc : Listed sys t dir suffix recursive base c) :
    Listed sys t' dir suffix recursive base c where
  named := hc.named
  flat := hc.flat
  entered := hc.entered
  dirs p hp := h.get?_eq_dir_iff.2 (hc.dirs p hp)
  open_ := hc.open_
  entry := by
    obtain ⟨e, he, hne⟩ := hc.entry
    obtain ⟨e', he', -⟩ := h.exists_of_get? he
    refine ⟨e', he', ?_⟩
    rintro rfl
    rw [h.get?_eq_dir_iff.1 he'] at he
    exact hne (Option.some.inj he).symm
  isFile := (h.isFile_eq _).trans hc.isFile

/-- **Candidates do not depend on contents.** In trees of the same shape a directory has the same
candidates, in the same order. -/
theorem listing_of_sameShape (sys : System) (h : t.SameShape t') (dir : Path) (suffix : Text)
    (recursive : Bool) :
    listing sys t' dir suffix recursive = listing sys t dir suffix recursive := by
  cases hdir : t.directory dir with
  | error cause =>
    have hdir' := (h.directory_eq dir).trans hdir
    rw [listing_of_no_directory hdir, listing_of_no_directory hdir']
  | ok base =>
    have hdir' := (h.directory_eq dir).trans hdir
    exact listing_congr hdir hdir' rfl fun c => ⟨fun hc => hc.of_sameShape h.symm,
      fun hc => hc.of_sameShape h⟩

end Candidate

end TimeLimit
