import TimeLimit.Text.Basic

/-!
# Listings of changed lines

A listing shows, for two texts of the same lines, each line that differs: its number, the old line
behind a minus and the new one behind a plus. Lines are compared by position, since adding an
argument adds and removes none; where one text has fewer lines the missing ones count as empty, and
an empty line is not shown. Lines end at a line feed or at a carriage return before one. The numbers
that are shown are words, and wrap around (`LineChange.counter`).
-/

namespace TimeLimit

namespace Text

/-- A line without its carriage return at the end; the line is given last character first. -/
def dropReturn : Text → Text
  | '\r' :: t => t
  | t => t

/-- The lines of a text, `line` being the start of the first one, last character first. -/
def linesFrom (line : Text) : Text → List Text
  | [] => if line.isEmpty then [] else [line.reverse]
  | c :: t =>
    if c = '\n' then (dropReturn line).reverse :: linesFrom [] t else linesFrom (c :: line) t

/-- The lines of a text without their ends. A carriage return is part of a line's end only before a
line feed, and an empty last line counts for none. -/
def lines (t : Text) : List Text :=
  linesFrom [] t

end Text

/-- A line that differs between two texts. -/
structure LineChange where
  /-- Number of the line, from one. -/
  number : Nat
  old : Text
  new : Text
  deriving DecidableEq

namespace LineChange

/-- The number that a listing shows for a line. Lines are counted in words of 32 bits with a sign:
behind the largest of them comes the least one. -/
def counter (c : LineChange) : Int32 :=
  .ofNat c.number

/-- The line of a listing that shows a line behind a sign; nothing is shown of an empty line.
Numbers take at least four columns. -/
def row (sign : Char) (counter : Int32) (line : Text) : Text :=
  if line.isEmpty then []
  else sign :: ((Text.ofInt32 counter).leftpad 4 ' ' ++ " | ".toList ++ line ++ ['\n'])

/-- The rows that show a change: the old line, then the new one. -/
def text (c : LineChange) : Text :=
  row '-' c.counter c.old ++ row '+' c.counter c.new

end LineChange

namespace Listing

/-- The lines of two texts side by side, an empty line standing for a missing one. -/
def sideBySide (old new : Text) : List (Text × Text) :=
  List.zipWithAll (fun a b => (a.getD [], b.getD [])) old.lines new.lines

/-- The pairs of lines that differ, in order; the first pair has the number `k`. -/
def differing (k : Nat) (pairs : List (Text × Text)) : List LineChange :=
  pairs.zipIdx k |>.filterMap fun (p, n) => if p.1 = p.2 then none else some ⟨n, p.1, p.2⟩

/-- Pairs that differ, first pair by first pair. -/
theorem differing_cons (k : Nat) (a b : Text) (pairs : List (Text × Text)) :
    differing k ((a, b) :: pairs) =
      (if a = b then [] else [⟨k, a, b⟩]) ++ differing (k + 1) pairs := by
  by_cases hab : a = b <;> simp [differing, hab]

/-- The lines that differ between two texts, in order. -/
def changes (old new : Text) : List LineChange :=
  differing 1 (sideBySide old new)

/-- The listing of what changed between two texts; there is none when they are equal. -/
def between? (old new : Text) : Option Text :=
  if old = new then none else some ((changes old new).flatMap LineChange.text)

end Listing

end TimeLimit
