import TimeLimit.Text.Columns

/-!
# Control sequences

A terminal does not show the characters of a control sequence: an escape character with the
character behind it, a run of parameters up to a final byte when that character is `[`, or a
command up to its terminator when it is `]`. `marked` tells for each character of a text whether it
shows, and changes none of them (`marked_fst`). A text is as wide as the characters of it that show.
-/

namespace TimeLimit

namespace Text

/-- The character that starts a control sequence. -/
def escape : Char := '\x1b'

/-- What has been read when a character of a text comes up. -/
inductive Reading where
  /-- Text that shows. -/
  | text
  /-- The escape character of a sequence. -/
  | escape
  /-- A sequence of parameters, before its final byte. -/
  | parameters
  /-- A command, before its terminator, with its last character. -/
  | command (last : Char)
  deriving DecidableEq, Repr

/-- Tells whether a character ends a run of parameters. -/
def isFinalByte (c : Char) : Bool :=
  decide (0x40 ≤ c.toNat) && decide (c.toNat ≤ 0x7E)

/-- What has been read after a character. -/
def Reading.next : Reading → Char → Reading
  | text, c => if c = Text.escape then escape else text
  | escape, c => if c = '[' then parameters else if c = ']' then command c else text
  | parameters, c => if isFinalByte c then text else parameters
  | command last, c =>
    if c = '\x07' ∨ (c = '\\' ∧ last = Text.escape) then text else command c

/-- Tells whether a character shows. -/
def Reading.shows : Reading → Char → Bool
  | text, c => c ≠ Text.escape
  | _, _ => false

/-- The characters of a text, each with whether it shows. -/
def markedFrom (r : Reading) : Text → List (Char × Bool)
  | [] => []
  | c :: t => (c, r.shows c) :: markedFrom (r.next c) t

/-- The characters of a text, each with whether it shows; the text starts outside of a sequence. -/
def marked (t : Text) : List (Char × Bool) :=
  markedFrom .text t

theorem markedFrom_fst (r : Reading) (t : Text) : (markedFrom r t).map Prod.fst = t := by
  induction t generalizing r with
  | nil => rfl
  | cons c t ih => simp [markedFrom, ih]

/-- Marking changes no character. -/
@[simp] theorem marked_fst (t : Text) : (marked t).map Prod.fst = t :=
  markedFrom_fst .text t

/-- The number of columns of a marked character. -/
def markedColumns (m : Char × Bool) : Nat :=
  if m.2 then charColumns m.1 else 0

/-- The number of columns that a text takes. -/
def columns (t : Text) : Nat :=
  (marked t).foldl (fun n m => n + markedColumns m) 0

end Text

end TimeLimit
