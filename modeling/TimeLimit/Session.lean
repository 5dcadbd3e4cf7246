import TimeLimit.Arguments.Reader
import TimeLimit.Console
import TimeLimit.Run

/-!
# Sessions of the command line

A session is one call of the program: arguments and a tree go in; an exit code, what was printed and
the new tree come out. In write mode a run that starts succeeds, whatever became of single files;
in the other modes it fails when some file lacks time limits, so that a build can ask for them.
-/

namespace TimeLimit

/-- What a request leaves behind on the command line. -/
structure Session where
  code : Nat
  /-- Why the run was refused, in words. -/
  message : Option Text
  printed : Printed
  tree : Tree

namespace Session

/-- The exit code of a run that was not refused. -/
def exitCode (mode : Mode) (t : Tally) : Nat :=
  if !mode.writes && 0 < t.modified then 1 else 0

/-- How a run ends for its caller: the exit code, and why the run was refused if it was. -/
def verdict (mode : Mode) : Except Refusal Tally → Nat × Option Text
  | .error refusal => (1, some refusal.diagnostic)
  | .ok tally => (exitCode mode tally, none)

/-- Carries out a request and prints its events. -/
def ofRequest (r : Request) (sys : System) (t : Tree) : Session :=
  let record := r.run sys t
  let (code, message) := verdict r.mode record.result
  ⟨code, message, Console.printAll r.mode record.events, record.tree⟩

/-- The name and number of the version. -/
def version : Text :=
  "test-timeouts 0.1.0\n".toList

/-- The lines of the help for the arguments. -/
def helpLines : List String :=
  ["Add missing timeouts to async Dart tests",
    "",
    "Usage: test-timeouts [OPTIONS] [DIR]",
    "",
    "Arguments:",
    "  [DIR]  Directory containing the test files [default: test]",
    "",
    "Options:",
    "      --suffix <SUFFIX>         File name suffix of test files [default: _test.dart]",
    "      --default-timeout <SECS>  Timeout for ordinary test files, in seconds [default: 5]",
    "      --network-timeout <SECS>  Timeout for network test files, in seconds [default: 10]",
    "      --network-file <NAME>     File name treated as a network test (repeatable; replaces " ++
      "the built-in set)",
    "      --skip <NAME>             File name to report as skipped without reading it " ++
      "(repeatable)",
    "  -r, --recursive               Also search subdirectories",
    "      --check                   Report files that need timeouts without modifying them",
    "      --diff                    Show a diff of the timeouts that would be added, without " ++
      "modifying files",
    "  -h, --help                    Print help",
    "  -V, --version                 Print version"]

/-- The help for the arguments. -/
def help : Text :=
  helpLines.flatMap fun l => Console.line l.toList

/-- The wording of a usage error. -/
def usageText : Arguments.UsageError → Text
  | .unknownArgument => "error: unexpected argument found\n".toList
  | .missingValue => "error: a value is required but none was supplied\n".toList
  | .invalidSeconds => "error: invalid number of seconds\n".toList
  | .conflict => "error: an argument cannot be used here\n".toList
  | .surplusValue => "error: unexpected value for a flag\n".toList

/-- The end of a session before any run: what is wrong with the arguments is printed on standard
error, the help and the version on standard output. -/
def ofStop (stop : Arguments.Stop) (t : Tree) : Session :=
  match stop with
  | .usage e => ⟨2, some (usageText e), { err := usageText e }, t⟩
  | .help => ⟨0, none, { out := help }, t⟩
  | .version => ⟨0, none, { out := version }, t⟩

/-- One call of the program; a refusal is printed on standard error. -/
def ofArguments (args : List Text) (sys : System) (t : Tree) : Session :=
  match Arguments.read args with
  | .error stop => ofStop stop t
  | .ok r =>
    let s := ofRequest r sys t
    match s.message with
    | none => s
    | some m => { s with printed := s.printed ++ { err := m ++ ['\n'] } }

end Session

end TimeLimit
