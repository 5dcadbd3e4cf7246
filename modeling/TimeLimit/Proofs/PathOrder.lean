import Mathlib.Data.List.Lex
import TimeLimit.Proofs.Search

/-!
# The order of paths

Paths are compared component by component: the root comes first, then the directory itself, then
the one above it, and then names by their bytes (`Path.Before`). This is not the order of their
bytes, since a slash is no byte of a component. The paths of two candidates of a directory share the
components of the directory, so they stand in the order of their names (`Candidate.path_before`).
-/

namespace TimeLimit

namespace Path

/-! ## Components -/

/-- A component of a path. -/
inductive Component where
  /-- The root, in front of a path that starts with a slash. -/
  | root
  /-- The directory that a path starts from, where the path says so. -/
  | here
  | up
  | name (bytes : List UInt8)
  deriving DecidableEq

/-- The kinds of components in their order. -/
def Component.rank : Component → Nat
  | root => 0
  | here => 1
  | up => 2
  | name _ => 3

/-- The bytes of a name; the other components have none. -/
def Component.bytes : Component → List UInt8
  | name bytes => bytes
  | _ => []

/-- The order of components: by kind, and names by their bytes. -/
def Component.Before (c d : Component) : Prop :=
  c.rank < d.rank ∨ c.rank = d.rank ∧ c.bytes < d.bytes

instance : DecidableRel Component.Before := fun c d =>
  inferInstanceAs (Decidable (c.rank < d.rank ∨ c.rank = d.rank ∧ c.bytes < d.bytes))

/-- The component of a piece that does not stay. -/
def Component.ofPiece (piece : Path) : Component :=
  if piece = Path.up then .up else .name piece

/-- What the components of a path start with: the root, or the directory itself where the path
starts with `.`. -/
def lead (path : Path) : List Component :=
  if path.head? = some slash then [.root]
  else if (pieces path).head? = some [dot] then [.here]
  else []

/-- The components of a path: empty pieces are none, and `.` is one in front only. -/
def components (path : Path) : List Component :=
  lead path ++ ((pieces path).filter fun piece => !stays piece).map Component.ofPiece

/-- The order of paths: component by component, and a path before those it starts. -/
def Before (p q : Path) : Prop :=
  List.Lex Component.Before (components p) (components q)

instance : DecidableRel Before := fun p q =>
  inferInstanceAs (Decidable (List.Lex Component.Before (components p) (components q)))

/-- A slash is not compared with the bytes of names: here is one behind `a` and behind `a-b`. -/
example : Before [0x61, 0x2F, 0x78] [0x61, 0x2D, 0x62, 0x2F, 0x78] ∧
    ([0x61, 0x2D, 0x62, 0x2F, 0x78] : Path) < [0x61, 0x2F, 0x78] := by
  decide

theorem Component.Before.irrefl (c : Component) : ¬ c.Before c := by
  rintro (h | ⟨-, h⟩)
  · exact Nat.lt_irrefl _ h
  · exact List.lt_irrefl _ h

/-- A path does not come before itself. -/
theorem Before.ne {p q : Path} (h : Before p q) : p ≠ q := by
  rintro rfl
  revert h
  unfold Before
  induction components p with
  | nil => exact nofun
  | cons c cs ih =>
    rintro (h | h)
    · exact Component.Before.irrefl c ‹_›
    · exact ih ‹_›

/-- A name is a component of its own. -/
theorem Component.ofPiece_bytes (name : Name) : ofPiece name.bytes = .name name.bytes :=
  if_neg name.proper.ne_up

/-- Lists of names come in the order of their components. -/
theorem lex_of_lt {xs ys : List Path} (h : xs < ys) :
    List.Lex Component.Before (xs.map .name) (ys.map .name) := by
  induction h with
  | nil => exact .nil
  | rel hlt => exact .rel (.inr ⟨rfl, hlt⟩)
  | cons _ ih => exact .cons ih

/-- What is joined to a path follows it. -/
theorem head?_foldl_join {dir : Path} (hne : dir ≠ []) (names : List Name) :
    (names.foldl join dir).head? = dir.head? := by
  induction names generalizing dir with
  | nil => rfl
  | cons name names ih =>
    obtain ⟨c, rest, rfl⟩ := List.exists_cons_of_ne_nil hne
    have hjoin : (join (c :: rest) name).head? = some c := by
      unfold join
      split <;> rfl
    rw [List.foldl_cons, ih (join_ne_nil _ name), hjoin, List.head?_cons]

end Path

namespace Candidate

variable {t : Tree} {dir : Path} {base : Location} {c d : Candidate}

/-- The components of the paths of candidates of one directory differ in their names only. -/
theorem exists_components_path (hdir : t.directory dir = .ok base) :
    ∃ front, ∀ c : Candidate, Path.components (c.path dir) = front ++ c.key.map .name := by
  have hne := Tree.ne_nil_of_directory hdir
  refine ⟨(if dir.head? = some Path.slash then [.root]
    else if (Path.pieces (Path.stem dir)).head? = some [Path.dot] then [.here] else []) ++
      ((Path.pieces (Path.stem dir)).filter fun piece => !Path.stays piece).map
        Path.Component.ofPiece, fun c => ?_⟩
  have hpieces : Path.pieces (c.names.foldl Path.join dir) =
      Path.pieces (Path.stem dir) ++ c.key := pieces_path hdir c
  have hstem : Path.pieces (Path.stem dir) ≠ [] := Text.pieces_ne_nil _ _
  have hnames : c.key.filter (fun piece => !Path.stays piece) = c.key := by
    refine List.filter_eq_self.2 fun piece hpiece => ?_
    obtain ⟨name, -, rfl⟩ := List.mem_map.1 hpiece
    simp [name.proper.not_stays]
  have hmap : c.key.map Path.Component.ofPiece = c.key.map .name := by
    refine List.map_congr_left fun piece hpiece => ?_
    obtain ⟨name, -, rfl⟩ := List.mem_map.1 hpiece
    exact Path.Component.ofPiece_bytes name
  rw [Path.components, Path.lead, path, Path.head?_foldl_join hne, hpieces,
    List.head?_append_of_ne_nil _ hstem, List.filter_append, List.map_append, hnames, hmap,
    List.append_assoc]

/-- The paths of candidates come in the order of their names. -/
theorem path_before (hdir : t.directory dir = .ok base) (h : c.key < d.key) :
    Path.Before (c.path dir) (d.path dir) := by
  obtain ⟨front, hfront⟩ := exists_components_path hdir
  rw [Path.Before, hfront, hfront]
  exact (Path.lex_of_lt h).append_left _ _

/-- The paths of candidates that stand in order come one before the other. -/
theorem pairwise_path (hdir : t.directory dir = .ok base) {cs : List Candidate}
    (hnodup : cs.Nodup) (hle : cs.Pairwise fun c d => c.le d = true) :
    (cs.map (path dir)).Pairwise Path.Before := by
  rw [List.pairwise_map]
  refine (hle.and hnodup).imp fun {c d} h => path_before hdir ?_
  exact Std.lt_of_le_of_ne (le_iff.1 h.1) fun he => h.2 (key_injective he)

end Candidate

end TimeLimit
