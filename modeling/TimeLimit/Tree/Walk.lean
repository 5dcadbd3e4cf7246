import TimeLimit.Cause
import TimeLimit.Tree.Basic

/-!
# Following paths

A path is followed from the root of the tree, piece by piece, and symbolic links on the way are
followed too, up to `linkLimit` of them. Only a directory can be gone into, so a path that ends in a
slash leads to a directory or nowhere. What can go wrong is a `Cause`.
-/

namespace TimeLimit

namespace Tree

/-- The number of symbolic links that may be followed for one path. -/
def linkLimit : Nat := 40

/-- Why nothing is found at a piece that is no name. -/
def nameless (piece : Path) : Cause :=
  if Path.nameLimit < piece.length then .nameTooLong else .notFound

/-- Goes from a location along the pieces of a path; what to do at a symbolic link, given where it
stands, its target and the pieces behind it, is up to `onLink`. -/
def descend (t : Tree) (onLink : Location → Path → List Path → Except Cause Location) :
    Location → List Path → Except Cause Location
  | loc, [] => .ok loc
  | loc, piece :: rest =>
    if t.get? loc ≠ some .dir then .error .notDirectory
    else if Path.stays piece then descend t onLink loc rest
    else if piece = Path.up then descend t onLink loc.dropLast rest
    else match Name.ofPiece? piece with
      | none => .error (nameless piece)
      | some name =>
        match t.get? (loc ++ [name]) with
        | none => .error .notFound
        | some (.link target) => onLink loc target rest
        | some _ => descend t onLink (loc ++ [name]) rest

/-- Goes from a location along the pieces of a path and follows so many symbolic links at most. -/
def walk (t : Tree) : Nat → Location → List Path → Except Cause Location
  | 0 => descend t fun _ _ _ => .error .tooManyLinks
  | n + 1 => descend t fun loc target rest =>
    walk t n (if target.head? = some Path.slash then [] else loc) (Path.pieces target ++ rest)

/-- The location that a path leads to. -/
def resolve (t : Tree) (path : Path) : Except Cause Location :=
  if Path.nul ∈ path then .error .nulInPath
  else if path.isEmpty then .error .notFound
  else if Path.sizeLimit < path.length then .error .nameTooLong
  else t.walk linkLimit [] (Path.pieces path)

/-- The entry that a path leads to. -/
def entry (t : Tree) (path : Path) : Except Cause Entry := do
  let loc ← t.resolve path
  match t.get? loc with
  | some e => .ok e
  | none => .error .notFound

/-- Tells whether a path leads to a file. -/
def isFile (t : Tree) (path : Path) : Bool :=
  match t.entry path with
  | .ok (.file _) => true
  | _ => false

/-- The text of the file that a path leads to. -/
def read (t : Tree) (path : Path) : Except Cause Text := do
  match ← t.entry path with
  | .file (.text s) => .ok s
  | .file (.binary _ _) => .error .notText
  | .dir => .error .isDirectory
  | .link _ => .error .notFound

/-- The location of the directory that a path leads to. -/
def directory (t : Tree) (path : Path) : Except Cause Location := do
  let loc ← t.resolve path
  if t.get? loc = some .dir then .ok loc else .error .notDirectory

/-- The entries directly below a location, by name. -/
def children (t : Tree) (loc : Location) : List (Name × Entry) :=
  t.entries.filterMap fun (l, e) =>
    match l.getLast? with
    | some name => if l = loc ++ [name] then some (name, e) else none
    | none => none

end Tree

end TimeLimit
