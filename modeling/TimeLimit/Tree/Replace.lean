import TimeLimit.Tree.Walk

/-!
# Where files are replaced

A file is replaced at the end of a path: the directory of the path is followed, but the entry at its
end is not, so a symbolic link there is itself replaced. A path that ends in `.` or `..`, in a slash
or at a directory cannot be replaced. The directory is looked at before the name: a NUL in the
directory part is found when the new file is made there, a NUL in the name only when it is moved.
-/

namespace TimeLimit

namespace Path

/-- The pieces of a path without the slashes it ends in. -/
def trimmedPieces (path : Path) : List Path :=
  ((pieces path).reverse.dropWhile List.isEmpty).reverse

/-- The pieces of the directory that a path names something in, whatever slashes and `.` follow
the name. -/
def directoryPieces (path : Path) : List Path :=
  ((pieces path).reverse.dropWhile stays).reverse.dropLast

/-- Tells whether a path ends in a slash. -/
def endsInSlash (path : Path) : Bool :=
  path.getLast? = some slash

end Path

namespace Tree

/-- The location of the directory that pieces of a path lead to. -/
def directoryAt (t : Tree) (pieces : List Path) : Except Cause Location := do
  if pieces.any (·.contains Path.nul) then .error .nulInPath
  else if Path.sizeLimit < ([Path.slash].intercalate pieces).length then .error .nameTooLong
  else
    let loc ← t.walk linkLimit [] pieces
    if t.get? loc = some .dir then .ok loc else .error .notDirectory

/-- The location that something can be moved to at the end of a path. -/
def target (t : Tree) (path : Path) : Except Cause Location :=
  match (Path.trimmedPieces path).getLast? with
  | none => .error (if path.isEmpty then .notFound else .busy)
  | some piece => do
    let dir ← t.directoryAt (Path.trimmedPieces path).dropLast
    if Path.sizeLimit < path.length then .error .nameTooLong
    else if Path.stays piece ∨ piece = Path.up then .error .busy
    else match Name.ofPiece? piece with
      | none => .error .nameTooLong
      | some name =>
        if Path.endsInSlash path then .error .notDirectory
        else if t.get? (dir ++ [name]) = some .dir then .error .isDirectory
        else .ok (dir ++ [name])

/-- The location at which a path can be replaced: its directory takes the new file first, and then
that file can be moved to the end of the path. -/
def place (t : Tree) (path : Path) : Except Cause Location := do
  let _ ← t.directoryAt (Path.directoryPieces path)
  if Path.nul ∈ path then .error .invalidArgument
  else t.target path

end Tree

end TimeLimit
