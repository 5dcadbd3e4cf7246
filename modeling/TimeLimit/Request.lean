import TimeLimit.Report

/-!
# Requests

Everything a run needs to know, fixed before the first file is read.
-/

namespace TimeLimit

/-- What a run is asked to do. -/
structure Request where
  /-- The directory of the test files. -/
  dir : Path := Path.ofText "test".toList
  /-- What the names of test files end in. -/
  suffix : Text := "_test.dart".toList
  /-- The names of files that are reported as skipped and not read. -/
  skip : NameSet := .empty
  /-- Whether the directories below are searched too. -/
  recursive : Bool := false
  mode : Mode := .write
  budget : Budget := {}
  deriving DecidableEq

end TimeLimit
