import TimeLimit.Outline

/-!
# Revising a source

The revision of a source gives every test that lacks a time limit one and leaves all else as it
stands. `Revision.of` maps over the pieces of the outline; next to the new text it reports how many
tests were given a limit, how many had one, and which headers belong to no test because a bracket
never closes.
-/

namespace TimeLimit

namespace Piece

/-- The piece with a time limit added where one is wanted. -/
def withLimit (seconds : UInt64) : Piece → Piece
  | test c => if c.isLimited then test c else test { c with tail := Tail.withLimit seconds c.tail }
  | p => p

/-- The report on a piece at a place, if it is a header whose test never closes. -/
def unterminated? (p : Place) : Piece → Option Unterminated
  | stray _ u => some ⟨p.offset, p.line, u⟩
  | _ => none

end Piece

/-- What the revision of a source gives. -/
structure Revision where
  /-- The new text. -/
  text : Text
  /-- How many tests were given a time limit. -/
  added : Nat
  /-- How many tests had one. -/
  limited : Nat
  /-- The headers that were left alone because their test never closes, in order. -/
  unterminated : List Unterminated
  deriving DecidableEq

namespace Revision

/-- Gives every test of a source that lacks a time limit one of so many seconds. -/
def of (source : Text) (seconds : UInt64) : Revision :=
  let pieces := outline source
  { text := pieces.flatMap fun p => (p.withLimit seconds).text
    added := pieces.countP Piece.wantsLimit
    limited := pieces.countP Piece.isLimited
    unterminated := (placed .origin pieces).filterMap fun (p, x) => x.unterminated? p }

/-- Tells whether some test was given a time limit. -/
def isChanged (r : Revision) : Bool :=
  0 < r.added

/-- How many headers were looked at. -/
def headers (r : Revision) : Nat :=
  r.added + r.limited + r.unterminated.length

end Revision

end TimeLimit
