import TimeLimit.Budget
import TimeLimit.Outcome

/-!
# Reports of a run

A run tells what happens in events: how many files it found, what became of each of them, and at
last how many came out which way. A `Tally` counts the outcomes.
-/

namespace TimeLimit

/-- How many files came out which way. -/
structure Tally where
  modified : Nat := 0
  unchanged : Nat := 0
  skipped : Nat := 0
  failed : Nat := 0
  /-- How many tests were given a time limit, in all files together. -/
  added : Nat := 0
  deriving DecidableEq

namespace Tally

/-- Counts one more outcome. -/
def record (t : Tally) (o : Outcome) : Tally :=
  let t := { t with added := t.added + o.added }
  match o.status with
  | .modified => { t with modified := t.modified + 1 }
  | .unchanged => { t with unchanged := t.unchanged + 1 }
  | .skipped => { t with skipped := t.skipped + 1 }
  | .failed => { t with failed := t.failed + 1 }

/-- How many files were counted. -/
def total (t : Tally) : Nat :=
  t.modified + t.unchanged + t.skipped + t.failed

/-- Every outcome counts for one file. -/
theorem total_record (t : Tally) (o : Outcome) : (t.record o).total = t.total + 1 := by
  cases h : o.status <;> simp only [record, h, total] <;> omega

end Tally

/-- What a run tells. -/
inductive Event where
  /-- The files of a directory were found. -/
  | start (dir : Path) (count : Nat)
  /-- A file is done; a skipped one has no class. -/
  | file (path : Path) (fileClass : Option FileClass) (seconds : UInt64) (outcome : Outcome)
  /-- All files are done. -/
  | complete (tally : Tally)
  deriving DecidableEq

end TimeLimit
