import TimeLimit.Session

/-!
# The program

The program answers what a run asks with the files of the system (`Program.host`). It decides
nothing itself: the run, its candidates, what becomes of a file and what is printed are the
library's.
-/

namespace TimeLimit

namespace Program

/-- The cause that a failure of the system gives. -/
def causeOf : IO.Error → Cause
  | .alreadyExists _ code reason | .noFileOrDirectory _ code reason
  | .invalidArgument _ code reason | .permissionDenied _ code reason
  | .resourceExhausted _ code reason | .inappropriateType _ code reason
  | .noSuchThing _ code reason | .interrupted _ code reason | .otherError code reason
  | .resourceBusy code reason | .resourceVanished code reason | .unsupportedOperation code reason
  | .hardwareFault code reason | .unsatisfiedConstraints code reason
  | .illegalOperation code reason | .protocolError code reason | .timeExpired code reason =>
    .ofCode code.toNat reason.toList
  | .unexpectedEof => .other "unexpected end of file".toList 0
  | .userError reason => .other reason.toList 0

/-- The result of an action, or why it failed. -/
def attempt {α : Type} (action : IO α) : IO (Except Cause α) := do
  try
    return .ok (← action)
  catch e =>
    return .error (causeOf e)

/-- Prints on both streams. -/
def printOut (p : Printed) : IO Unit := do
  let out ← IO.getStdout
  out.putStr (String.ofList p.out)
  out.flush
  let err ← IO.getStderr
  err.putStr (String.ofList p.err)
  err.flush

/-- A path as the system is asked for it. -/
def shown (path : Path) : String :=
  String.ofList (Path.display path)

/-- Writes a text to a new file next to a path and moves it there, so that the path holds the old
file or the whole new one. -/
def replaceText (path : Path) (text : Text) : IO Unit := do
  let draft := shown path ++ ".tmp" ++ toString (← IO.rand 100000 999999)
  let handle ← IO.FS.Handle.mk draft .writeNew
  try
    handle.putStr (String.ofList text)
    handle.flush
    IO.FS.rename draft (shown path)
  catch e =>
    IO.FS.removeFile draft
    throw e

/-- The host that is the system itself, seen from the directory the program is called in. Events are
printed as they come. -/
def host (mode : Mode) : Host IO where
  isDirectory? path := do
    match ← attempt ((← IO.currentDir) / shown path).metadata with
    | .ok data => return some (data.type matches .dir)
    | .error _ => return none
  list path := attempt do
    let entries ← ((← IO.currentDir) / shown path).readDir
    entries.toList.filterMapM fun entry => do
      match Name.ofPiece? (Path.ofText entry.fileName.toList),
        ← attempt entry.path.symlinkMetadata with
      | some name, .ok data => return some (name, data.type matches .dir)
      | _, _ => return none
  isFile path := do
    match ← attempt ((← IO.currentDir) / shown path).metadata with
    | .ok data => return (data.type matches .file)
    | .error _ => return false
  read path := do
    match ← attempt (IO.FS.readBinFile (shown path)) with
    | .error cause => return .error cause
    | .ok bytes =>
      match Content.ofBytes bytes with
      | .text t => return .ok t
      | .binary _ _ => return .error .notText
  replace path text := do
    match ← attempt (replaceText path text) with
    | .ok () => return .ok ()
    | .error cause => return .error (.unwritable path cause)
  report e := printOut (Console.print mode e)

end Program

end TimeLimit

open TimeLimit in
/-- Reads the arguments and carries out what they ask for. -/
def main (args : List String) : IO UInt32 := do
  match Arguments.read (args.map String.toList) with
  | .ok r =>
    let (code, message) := Session.verdict r.mode (← (Program.host r.mode).run r)
    if let some m := message then
      Program.printOut { err := m ++ ['\n'] }
    return code.toUInt32
  | .error stop =>
    let s := Session.ofStop stop .empty
    Program.printOut s.printed
    return s.code.toUInt32
