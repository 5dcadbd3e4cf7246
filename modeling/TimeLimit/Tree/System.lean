import TimeLimit.Tree.Replace

/-!
# The system under a tree

A tree says what files there are; what the system does with them is more than that. It may refuse to
list a directory, and it may refuse each step of a replacement, for reasons that the tree does not
show. A file is replaced in steps: a temporary file is made next to it, filled, flushed, given
permissions and renamed, and when one of these steps fails the temporary file is removed
(`System.write`). All that the system decides is a `System`, which answers path by path, so that any
of the files of a run may fail at any step.
-/

namespace TimeLimit

/-- What the system decides while files are listed and replaced. -/
structure System where
  /-- Why a directory is not listed. -/
  closed : Path → Option Cause
  /-- The name of the temporary file that is made for a path in a directory, or why none is made;
  the names that are taken there are known. -/
  temp : Path → Location → (Name → Bool) → Except Cause Name
  /-- Nothing has that name before. -/
  temp_new : ∀ {path : Path} {dir : Location} {taken : Name → Bool} {name : Name},
    temp path dir taken = .ok name → taken name = false
  /-- Why the contents for a path are not written, and what the temporary file holds then. -/
  fault : Path → Option (Cause × Content)
  /-- Whether what was written for a path is flushed. -/
  flush : Path → Except Cause Unit
  /-- Whether the temporary file is given the permissions of the file that it replaces. -/
  permit : Path → Except Cause Unit
  /-- Whether the temporary file may be moved to the path. -/
  move : Path → Except Cause Unit

/-- Tells whether something has a name in a directory. -/
def Tree.taken (t : Tree) (dir : Location) (name : Name) : Bool :=
  (t.get? (dir ++ [name])).isSome

namespace System

/-- The names in a directory, each with whether it is that of a directory. A symbolic link is
none. -/
def list (sys : System) (path : Path) (t : Tree) : Except Cause (List (Name × Bool)) := do
  let loc ← t.directory path
  match sys.closed path with
  | some cause => .error cause
  | none => return (t.children loc).map fun (name, e) => (name, e = .dir)

/-- A temporary file is made in the directory of a path: where it stands, and the tree with it. -/
def create (sys : System) (path : Path) (t : Tree) : Except Cause (Location × Tree) := do
  let dir ← t.directoryAt (Path.directoryPieces path)
  let name ← sys.temp path dir (t.taken dir)
  return (dir ++ [name], t.put (dir ++ [name]) (.file (.text [])))

/-- The contents are written to the temporary file. -/
def fill (sys : System) (path : Path) (contents : Text) (temp : Location) (t : Tree) :
    Except Cause Unit × Tree :=
  match sys.fault path with
  | none => (.ok (), t.put temp (.file (.text contents)))
  | some (cause, torn) => (.error cause, t.put temp (.file torn))

/-- The temporary file is given the permissions of what the path leads to, if it leads anywhere. -/
def copyPermissions (sys : System) (path : Path) (t : Tree) : Except Cause Unit :=
  match t.entry path with
  | .ok _ => sys.permit path
  | .error _ => .ok ()

/-- The temporary file is moved to the end of the path. -/
def persist (path : Path) (temp : Location) (t : Tree) : Except Cause Tree :=
  if Path.nul ∈ path then .error .invalidArgument
  else do
    let loc ← t.target path
    match t.get? temp with
    | none => .error .notFound
    | some e => .ok ((t.remove temp).put loc e)

/-- What is done with the temporary file once it is filled. -/
def settle (sys : System) (path : Path) (temp : Location) (t : Tree) : Except Cause Tree := do
  sys.flush path
  sys.copyPermissions path t
  sys.move path
  persist path temp t

/-- What is done with the temporary file once it is made. -/
def finish (sys : System) (path : Path) (contents : Text) (temp : Location) (t : Tree) :
    Except Cause Unit × Tree :=
  match sys.fill path contents temp t with
  | (.error cause, t) => (.error cause, t)
  | (.ok (), t) =>
    match sys.settle path temp t with
    | .error cause => (.error cause, t)
    | .ok t => (.ok (), t)

/-- Puts a file with some contents at the end of a path. When a step fails, the temporary file is
removed. -/
def write (sys : System) (path : Path) (contents : Text) (t : Tree) :
    Except FileFault Unit × Tree :=
  match sys.create path t with
  | .error cause => (.error (.unwritable path cause), t)
  | .ok (temp, t) =>
    match sys.finish path contents temp t with
    | (.error cause, t) => (.error (.unwritable path cause), t.remove temp)
    | (.ok (), t) => (.ok (), t)

/-- The name `.tmp0aB1cD`. -/
def plainTemp : Name :=
  ⟨[0x2E, 0x74, 0x6D, 0x70, 0x30, 0x61, 0x42, 0x31, 0x63, 0x44], by decide⟩

/-- A system that always tries one name for temporary files, and refuses nothing else. -/
def plain : System where
  closed _ := none
  temp _ _ taken :=
    if taken plainTemp = false then .ok plainTemp else .error (.other "File exists".toList 17)
  temp_new h := by
    rw [ite_ok_eq_ok_iff] at h
    obtain ⟨hnew, rfl⟩ := h
    exact hnew
  fault _ := none
  flush _ := .ok ()
  permit _ := .ok ()
  move _ := .ok ()

end System

end TimeLimit
