import TimeLimit.Cause
import TimeLimit.Text.Wrap

/-!
# Refusals

Why a run does not start: its directory is missing, is no directory or cannot be listed. A refusal
is shown as a diagnostic: its code, its message and, where there is one, some help. Message and help
are wrapped behind their labels.
-/

namespace TimeLimit

/-- Why a run does not start. -/
inductive Refusal where
  | missingDirectory (dir : Path)
  | notDirectory (dir : Path)
  | unlistable (dir : Path) (cause : Cause)
  deriving DecidableEq, Repr

namespace Refusal

/-- What is wrong. -/
def message : Refusal → Text
  | missingDirectory dir => "test directory not found: ".toList ++ Path.display dir
  | notDirectory dir => Path.display dir ++ " is not a directory".toList
  | unlistable dir cause =>
    "cannot list ".toList ++ Path.display dir ++ ": ".toList ++ cause.message

/-- The code of the diagnostic. -/
def code : Refusal → Text
  | missingDirectory _ => "test_timeouts::missing_test_dir".toList
  | notDirectory _ => "test_timeouts::not_a_directory".toList
  | unlistable _ _ => "test_timeouts::unreadable_test_dir".toList

/-- What can be done about it. -/
def help? : Refusal → Option Text
  | missingDirectory _ =>
    some "run from the package root, or pass the test directory as an argument".toList
  | _ => none

/-- The number of columns of a diagnostic, labels included. -/
def diagnosticColumns : Nat := 78

/-- A text wrapped behind a label; another label of the same width stands before all lines but the
first. -/
def labelled (label next : Text) (t : Text) : Text :=
  match Text.wrap (diagnosticColumns - Text.columns label) t with
  | [] => []
  | l :: ls => label ++ l ++ ['\n'] ++ ls.flatMap fun l => next ++ l ++ ['\n']

/-- The diagnostic: the code, an empty line, the message behind a cross, and the help. -/
def diagnostic (r : Refusal) : Text :=
  r.code ++ "\n\n".toList ++ labelled "  × ".toList "  │ ".toList r.message ++
    match r.help? with
    | some h => labelled "  help: ".toList "        ".toList h
    | none => []

end Refusal

end TimeLimit
