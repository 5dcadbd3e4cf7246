import TimeLimit.Path
import TimeLimit.Report

/-!
# The console

How the events of a run are printed. Results go to standard output; errors and warnings go to
standard error. Words that call for attention are coloured.
-/

namespace TimeLimit

/-- What is printed on the two streams. -/
structure Printed where
  out : Text := []
  err : Text := []
  deriving DecidableEq

namespace Printed

/-- What is printed first, and what is printed then. -/
def append (p q : Printed) : Printed :=
  ⟨p.out ++ q.out, p.err ++ q.err⟩

instance : Append Printed := ⟨append⟩

end Printed

namespace Console

/-- The colours of a terminal. -/
inductive Colour where
  | red
  | green
  | yellow

/-- The number a terminal knows a colour by. -/
def Colour.code : Colour → Text
  | red => "31".toList
  | green => "32".toList
  | yellow => "33".toList

/-- A text in colour. -/
def paint (c : Colour) (t : Text) : Text :=
  "\x1b[".toList ++ c.code ++ ['m'] ++ t ++ "\x1b[0m".toList

/-- A line of output. -/
def line (t : Text) : Text :=
  t ++ ['\n']

/-- A line about a file, by its name. -/
def fileLine (path : Path) (t : Text) : Text :=
  line ("  ".toList ++ ((Path.fileName? path).map Path.display).getD [] ++ ": ".toList ++ t)

/-- A remark in parentheses. -/
def remark (t : Text) : Text :=
  " (".toList ++ t ++ [')']

/-- The line that says what became of a file. -/
def statusLine (mode : Mode) (path : Path) (fileClass : Option FileClass) (seconds : UInt64)
    (o : Outcome) : Printed :=
  match o.status with
  | .modified =>
    let verb := if mode.writes then "added ".toList else "would add ".toList
    { out := fileLine path (paint .green (verb ++ Text.ofNat o.added ++ " timeout(s)".toList) ++
        remark (Text.ofNat seconds.toNat ++ "s, ".toList ++
          (fileClass.getD .ordinary).name)) }
  | .unchanged =>
    { out := fileLine path ("unchanged".toList ++
        remark (o.detail.getD "no changes needed".toList)) }
  | .skipped =>
    { out := fileLine path (paint .yellow "skipped".toList ++
        remark (o.detail.getD "skipped".toList)) }
  | .failed =>
    { err := fileLine path (paint .red "error".toList ++ ": ".toList ++
        o.detail.getD "unknown error".toList) }

/-- The warning about headers whose test never closes. -/
def warning (path : Path) (o : Outcome) : Printed :=
  if o.unterminated = 0 then {}
  else { err := fileLine path (paint .yellow "warning".toList ++ ": ".toList ++
    Text.ofNat o.unterminated ++ " unterminated test block(s) left untouched".toList) }

/-- The listing of the lines that would change. -/
def listing (path : Path) (o : Outcome) : Printed :=
  match o.listing with
  | none => {}
  | some rows => { out := line ("--- ".toList ++ Path.display path) ++ line rows }

/-- The line that sums up a run. -/
def summaryLine (mode : Mode) (t : Tally) : Text :=
  let verb := if mode.writes then " modified, ".toList else " would be modified, ".toList
  line ("====== ".toList ++ Text.ofNat t.modified ++ verb ++ Text.ofNat t.unchanged ++
    " unchanged, ".toList ++ Text.ofNat t.skipped ++ " skipped, ".toList ++ Text.ofNat t.failed ++
    " error(s) ======".toList)

/-- What is printed for an event. -/
def print (mode : Mode) : Event → Printed
  | .start dir count =>
    { out := line ("Found ".toList ++ Text.ofNat count ++ " test file(s) in ".toList ++
          Path.display dir) ++
        line (if mode.writes then "Adding timeouts to async tests...".toList
          else "Checking async tests for timeouts...".toList) ++ line [] }
  | .file path fileClass seconds o =>
    statusLine mode path fileClass seconds o ++ warning path o ++ listing path o
  | .complete t =>
    { out := line [] ++ summaryLine mode t ++
        (if mode.writes ∧ 0 < t.modified then
          line "Review the changes and run the tests to verify.".toList
        else []) }

/-- What is printed for a row of events. -/
def printAll (mode : Mode) (events : List Event) : Printed :=
  events.foldl (fun p e => p ++ print mode e) {}

end Console

end TimeLimit
