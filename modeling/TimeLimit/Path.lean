import TimeLimit.Text.Decode

/-!
# Paths

A path is bytes, since a file system does not ask for text: its pieces stand between slashes. Empty
pieces and `.` stay where they are and `..` goes up; every other piece names something, if it is not
too long. A `Name` carries the proof that it can be such a piece, so nothing in a tree has a slash
in its name or is called `..`.
-/

namespace TimeLimit

/-- A path of a file system. -/
abbrev Path := List UInt8

namespace Path

/-- The byte between two pieces. -/
def slash : UInt8 := 0x2F

/-- The byte that the pieces without a name are made of. -/
def dot : UInt8 := 0x2E

/-- The byte that ends a path for the system, and so stands in none. -/
def nul : UInt8 := 0

/-- The longest name, in bytes. -/
def nameLimit : Nat := 255

/-- The longest path, in bytes. -/
def sizeLimit : Nat := 4095

/-- The path that is written as a text. -/
def ofText (t : Text) : Path :=
  Text.bytes t

/-- A path as it is shown; bytes that are no text are replaced. -/
def display (path : Path) : Text :=
  Text.lossy path

/-- A path that was written as a text is shown as it was written. -/
theorem display_ofText (t : Text) : display (ofText t) = t :=
  Text.lossy_bytes t

/-- The pieces of a path between its slashes. -/
def pieces (path : Path) : List Path :=
  Text.pieces slash path

/-- The piece that goes up. -/
def up : Path := [dot, dot]

/-- Tells whether a piece stays where it is. -/
def stays (piece : Path) : Bool :=
  piece.isEmpty || piece == [dot]

/-- The piece names something: it neither stays nor goes up, it is not too long, and it holds
neither of the two bytes that no name holds. -/
structure Proper (piece : Path) : Prop where
  not_stays : stays piece = false
  ne_up : piece ≠ up
  length_le : piece.length ≤ nameLimit
  no_slash : slash ∉ piece
  no_nul : nul ∉ piece

instance (piece : Path) : Decidable (Proper piece) :=
  decidable_of_iff
    (stays piece = false ∧ piece ≠ up ∧ piece.length ≤ nameLimit ∧ slash ∉ piece ∧ nul ∉ piece)
    ⟨fun ⟨hs, hu, hl, hslash, hnul⟩ => ⟨hs, hu, hl, hslash, hnul⟩,
      fun h => ⟨h.not_stays, h.ne_up, h.length_le, h.no_slash, h.no_nul⟩⟩

end Path

/-- The name of something in a directory. -/
structure Name where
  bytes : Path
  proper : Path.Proper bytes
  deriving DecidableEq

namespace Name

/-- The names of one small letter, from `a` on and around; examples are given in them. -/
def letter (i : Nat) : Name where
  bytes := [0x61 + UInt8.ofNat (i % 26)]
  proper := (by decide : ∀ i : Fin 26, Path.Proper [0x61 + UInt8.ofNat i])
    ⟨i % 26, Nat.mod_lt i (by decide)⟩

/-- The name that a piece of a path is, if it can be one. -/
def ofPiece? (piece : Path) : Option Name :=
  if h : Path.Proper piece then some ⟨piece, h⟩ else none

theorem ofPiece?_bytes (name : Name) : ofPiece? name.bytes = some name :=
  dif_pos name.proper

theorem ofPiece?_eq_some_iff {piece : Path} {name : Name} :
    ofPiece? piece = some name ↔ piece = name.bytes := by
  constructor
  · intro h
    rw [ofPiece?, Option.dite_none_right_eq_some] at h
    obtain ⟨hp, h⟩ := h
    cases h
    rfl
  · rintro rfl
    exact ofPiece?_bytes name

theorem bytes_injective {m n : Name} (h : m.bytes = n.bytes) : m = n := by
  cases m
  cases n
  cases h
  rfl

theorem bytes_ne_nil (name : Name) : name.bytes ≠ [] := by
  intro h
  have := name.proper.not_stays
  rw [h] at this
  cases this

/-- The name as a text, as far as names are compared with texts; one that is no text is taken for
the empty one. -/
def text (name : Name) : Text :=
  (Text.decode? name.bytes).getD []

/-- The text of a name that is the encoding of one. -/
theorem text_of_bytes {name : Name} {t : Text} (h : name.bytes = Text.bytes t) : name.text = t := by
  rw [text, Text.decode?_eq_some_iff.2 h]
  rfl

/-- A name is taken for the empty text when it is no text, and only then. -/
theorem text_eq_nil_iff {name : Name} : name.text = [] ↔ ∀ t, name.bytes ≠ Text.bytes t := by
  constructor
  · rintro h t ht
    rw [text_of_bytes ht] at h
    exact name.bytes_ne_nil (by rw [ht, h]; rfl)
  · intro h
    have hnone : Text.decode? name.bytes = none :=
      Option.eq_none_iff_forall_not_mem.2 fun t ht => h t (Text.decode?_eq_some_iff.1 ht)
    rw [text, hnone]
    rfl

end Name

namespace Path

/-- The path of a name inside a directory. -/
def join (dir : Path) (name : Name) : Path :=
  if dir.isEmpty ∨ dir.getLast? = some slash then dir ++ name.bytes else dir ++ slash :: name.bytes

/-- The name a path ends in, whatever slashes and `.` follow it; there is none for a path that goes
up last or holds no name. -/
def fileName? (path : Path) : Option Path :=
  match (pieces path).reverse.find? fun p => !stays p with
  | none => none
  | some p => if p = up then none else some p

end Path

end TimeLimit
