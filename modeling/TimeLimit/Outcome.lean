import TimeLimit.Cause
import TimeLimit.Listing
import TimeLimit.Revision

/-!
# Outcomes of single files

What a run does with a file that lacks time limits depends on its mode; what became of a file is
its `Outcome`. `Outcome.ofRevision` judges a file by the revision of its text, and
`Outcome.ofFault` one that could not be read or written.
-/

namespace TimeLimit

/-- What to do with a file that lacks time limits. -/
inductive Mode where
  /-- Replace it. -/
  | write
  /-- Report it and touch nothing. -/
  | check
  /-- Report it with a listing of the lines that would change, and touch nothing. -/
  | diff
  deriving DecidableEq, Repr

/-- Tells whether files are replaced. -/
def Mode.writes : Mode → Bool
  | write => true
  | _ => false

/-- What became of a file. -/
inductive Status where
  | modified
  | unchanged
  | skipped
  | failed
  deriving DecidableEq, Repr

/-- What became of a file, in numbers and words. -/
structure Outcome where
  status : Status
  /-- The reason or the error, in words. -/
  detail : Option Text := none
  /-- How many tests were given a time limit, or would have been. -/
  added : Nat := 0
  /-- How many tests had one. -/
  limited : Nat := 0
  /-- How many headers were left alone because their test never closes. -/
  unterminated : Nat := 0
  /-- The lines that would change. -/
  listing : Option Text := none
  deriving DecidableEq

namespace Outcome

/-- A file that is not looked at. -/
def ofSkipped : Outcome :=
  { status := .skipped, detail := some "already processed".toList }

/-- A file that could not be read or written. -/
def ofFault (f : FileFault) : Outcome :=
  { status := .failed, detail := some f.message }

/-- Why a file is left as it is. -/
def unchangedReason (r : Revision) : Text :=
  if r.headers = 0 then "no async tests".toList
  else "all async tests already have timeouts".toList

/-- A file whose text was revised. -/
def ofRevision (mode : Mode) (source : Text) (r : Revision) : Outcome where
  status := if r.isChanged then .modified else .unchanged
  detail := if r.isChanged then none else some (unchangedReason r)
  added := r.added
  limited := r.limited
  unterminated := r.unterminated.length
  listing := if r.isChanged ∧ mode = .diff then Listing.between? source r.text else none

end Outcome

end TimeLimit
