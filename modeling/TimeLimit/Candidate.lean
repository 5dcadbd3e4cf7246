import TimeLimit.Path

/-!
# Candidates

The candidates of a run are the files below its directory whose names end in the suffix. A candidate
is known by its names from the run's directory down; candidates are sorted by path, name by name.
-/

namespace TimeLimit

/-- A file below the directory of a run. -/
structure Candidate where
  /-- The directories between the run's directory and the file. -/
  dirs : List Name
  name : Name
  deriving DecidableEq

namespace Candidate

/-- The names from the run's directory down to the file. -/
def names (c : Candidate) : List Name :=
  c.dirs ++ [c.name]

/-- The path of a candidate in a directory. -/
def path (dir : Path) (c : Candidate) : Path :=
  c.names.foldl Path.join dir

/-- Tells whether a directory of this name is entered: hidden directories and build output are
not. -/
def entersDirectory (name : Text) : Bool :=
  name.head? ≠ some '.' && name ≠ "build".toList

/-- Tells whether a file of this name is a candidate. -/
def isNamed (suffix name : Text) : Bool :=
  suffix.isSuffixOf name

/-- The order of paths: name by name, each by its bytes. -/
def le (c d : Candidate) : Bool :=
  !decide (d.names.map Name.bytes < c.names.map Name.bytes)

/-- Candidates in the order of their paths. -/
def inOrder (cs : List Candidate) : List Candidate :=
  cs.mergeSort le

end Candidate

end TimeLimit
