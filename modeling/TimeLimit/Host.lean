import TimeLimit.Candidate
import TimeLimit.Refusal
import TimeLimit.Request

/-!
# Runs on a host

A run looks for its candidates and treats them one by one, in order. A file is read, its text is
revised and, in write mode, replaced if a test was given a time limit; a file that cannot be read or
replaced is reported and the run goes on. Only a directory that is missing or cannot be listed
refuses the run, and that before any file is touched; a directory below it that cannot be listed is
left out.

All that is said here of a host that answers what a run asks (`Host`), in any monad: the program
runs on the files of its system, and a run on a tree is a run on a host that keeps the tree.
-/

namespace TimeLimit

/-- What a run asks of the place where it runs. -/
structure Host (m : Type → Type) where
  /-- Whether a path leads to a directory, if it leads anywhere. -/
  isDirectory? : Path → m (Option Bool)
  /-- The names in a directory, in any order, each with whether it is that of a directory, which a
  symbolic link is not; or why the directory cannot be listed. -/
  list : Path → m (Except Cause (List (Name × Bool)))
  /-- Whether a path leads to a file. -/
  isFile : Path → m Bool
  /-- The text of the file that a path leads to. -/
  read : Path → m (Except Cause Text)
  /-- Puts a file with a text at the end of a path, as a whole or not at all. -/
  replace : Path → Text → m (Except FileFault Unit)
  /-- Takes notice of what a run tells. -/
  report : Event → m Unit

/-- Judges a file by its text, or by why it cannot be read: its outcome, and the text that replaces
it. The outcome stands if there is no such text or if the file can be replaced by it. -/
def judge (mode : Mode) (path : Path) (seconds : UInt64) :
    Except Cause Text → Outcome × Option Text
  | .error cause => (.ofFault (.unreadable path cause), none)
  | .ok source =>
    let r := Revision.of source seconds
    (.ofRevision mode source r, if r.isChanged && mode.writes then some r.text else none)

/-- The class of a candidate and the seconds its tests may take; there is none for a candidate whose
name is to be skipped. -/
def Request.allot? (r : Request) (c : Candidate) : Option (FileClass × UInt64) :=
  if c.name.text ∈ r.skip then none
  else
    let fileClass := r.budget.classOf c.name.text
    some (fileClass, r.budget.secondsFor fileClass)

namespace Host

variable {m : Type → Type} [Monad m] (h : Host m)

/-- Searches a directory that lies below the run's directory as `dirs` says, and those below it, so
many levels down at most. A name that is no text counts as the empty one. -/
def search (dir : Path) (suffix : Text) (recursive : Bool) :
    Nat → List Name → m (Except Cause (List Candidate))
  | 0, _ => return .error .nameTooLong
  | n + 1, dirs => do
    match ← h.list (dirs.foldl Path.join dir) with
    | .error cause => return .error cause
    | .ok entries =>
      let found ← entries.mapM fun (name, isDirectory) => do
        if isDirectory then
          if recursive && Candidate.entersDirectory name.text then
            return (← search dir suffix recursive n (dirs ++ [name])).toOption.getD []
          else return []
        else
          let c : Candidate := ⟨dirs, name⟩
          if (← h.isFile (c.path dir)) && Candidate.isNamed suffix name.text then return [c]
          else return []
      return .ok found.flatten

/-- The candidates of a directory, in the order of their paths. No directory has a path that is long
enough for more levels than are searched. -/
def listing (dir : Path) (suffix : Text) (recursive : Bool) :
    m (Except Cause (List Candidate)) :=
  return (← h.search dir suffix recursive (Path.sizeLimit + 1) []).map Candidate.inOrder

/-- Treats one file and tells what became of it. -/
def treat (mode : Mode) (path : Path) (seconds : UInt64) : m Outcome := do
  match judge mode path seconds (← h.read path) with
  | (o, none) => return o
  | (o, some text) =>
    match ← h.replace path text with
    | .error fault => return .ofFault fault
    | .ok () => return o

/-- Treats a candidate and reports it. -/
def handle (r : Request) (c : Candidate) : m Outcome := do
  let path := c.path r.dir
  match r.allot? c with
  | none =>
    h.report (.file path none 0 .ofSkipped)
    return .ofSkipped
  | some (fileClass, seconds) =>
    let o ← h.treat r.mode path seconds
    h.report (.file path (some fileClass) seconds o)
    return o

/-- Treats candidates in order, counting on from a tally. -/
def handleAll (r : Request) : List Candidate → Tally → m Tally
  | [], n => return n
  | c :: cs, n => do
    let o ← h.handle r c
    handleAll r cs (n.record o)

/-- Runs a request: the tally of its files, or why it is refused. -/
def run (r : Request) : m (Except Refusal Tally) := do
  match ← h.isDirectory? r.dir with
  | none => return .error (.missingDirectory r.dir)
  | some false => return .error (.notDirectory r.dir)
  | some true =>
    match ← h.listing r.dir r.suffix r.recursive with
    | .error cause => return .error (.unlistable r.dir cause)
    | .ok cs =>
      h.report (.start r.dir cs.length)
      let tally ← h.handleAll r cs {}
      h.report (.complete tally)
      return .ok tally

end Host

end TimeLimit
