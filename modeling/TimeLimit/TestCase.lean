import TimeLimit.Opening
import TimeLimit.Bracket

/-!
# Whole test calls

Behind a header come the body, up to the brace that closes it, and the tail of the call, up to the
parenthesis that closes it; `Closing.of` finds both by bracket depth, or says which of the two is
missing. A `TestCase` is a header with its body and tail, `Extent` is where it stands in a source,
in bytes, and `Unterminated` reports a header whose call never closes.
-/

namespace TimeLimit

/-- The bracket of a test that never closes. -/
inductive Unclosed where
  /-- The body's brace. -/
  | body
  /-- The parenthesis of the test call itself. -/
  | call
  deriving DecidableEq, Repr

/-- What follows the brace of a header, cut at the two brackets that close the test. -/
structure Closing where
  /-- The inside of the body. -/
  inside : Text
  /-- What stands between the body's brace and the call's closing parenthesis. -/
  tail : Text
  /-- What follows the call. -/
  rest : Text

namespace Closing

/-- The text that was cut. -/
def text (c : Closing) : Text :=
  c.inside ++ '}' :: (c.tail ++ ')' :: c.rest)

/-- Cuts the text behind a header's brace where the body closes, and then where the call does. -/
def of (t : Text) : Except Unclosed Closing :=
  match Bracket.closing '{' '}' t with
  | none => .error .body
  | some (inside, t) =>
    match Bracket.closing '(' ')' t with
    | none => .error .call
    | some (tail, rest) => .ok ⟨inside, tail, rest⟩

/-- A test is cut at the first place where its braces balance, and from there at the first place
where its parentheses do. -/
theorem of_eq_ok_iff {t : Text} {c : Closing} :
    of t = .ok c ↔ t = c.text ∧
      c.inside.count '}' = c.inside.count '{' ∧ Bracket.StaysOpen '{' '}' 0 c.inside ∧
      c.tail.count ')' = c.tail.count '(' ∧ Bracket.StaysOpen '(' ')' 0 c.tail := by
  constructor
  · intro h
    rw [of] at h
    split at h
    · cases h
    · next inside t h₁ =>
      split at h
      · cases h
      · next tail rest h₂ =>
        cases h
        obtain ⟨rfl, hb, hs⟩ := (Bracket.closing_eq_some_iff (by decide)).1 h₁
        obtain ⟨rfl, hp, hq⟩ := (Bracket.closing_eq_some_iff (by decide)).1 h₂
        exact ⟨rfl, hb, hs, hp, hq⟩
  · rintro ⟨rfl, hb, hs, hp, hq⟩
    simp only [of, text, Bracket.closing_append (by decide) hb hs,
      Bracket.closing_append (by decide) hp hq]

/-- What follows a test is shorter than the text behind its header. -/
theorem length_rest_lt {t : Text} {c : Closing} (h : of t = .ok c) :
    c.rest.length < t.length := by
  rw [(of_eq_ok_iff.1 h).1, text]
  simp only [List.length_append, List.length_cons]
  omega

end Closing

/-- A test call: its header, its body with both braces, and its tail. -/
structure TestCase where
  header : Header
  body : Text
  tail : Text
  deriving DecidableEq

namespace TestCase

/-- The call as it is written, from the keyword through its closing parenthesis. -/
def text (c : TestCase) : Text :=
  c.header.text ++ c.body ++ c.tail ++ [')']

/-- The test made of a header and of what was found to close it. -/
def ofClosing (h : Header) (c : Closing) : TestCase :=
  ⟨h, '{' :: c.inside ++ ['}'], c.tail⟩

/-- A test and what follows it are what was cut. -/
theorem text_ofClosing (h : Header) (c : Closing) :
    (ofClosing h c).text ++ c.rest = h.text ++ '{' :: c.text := by
  simp [text, ofClosing, Closing.text]

end TestCase

/-! ## Offsets -/

/-- A header whose test never closes: where its keyword stands and which bracket stays open. -/
structure Unterminated where
  /-- Byte offset of the keyword. -/
  start : Nat
  /-- Line of the keyword, from one. -/
  line : Nat
  unclosed : Unclosed
  deriving DecidableEq, Repr

namespace Unterminated

/-- The warning that names the line and the open bracket. -/
def message (u : Unterminated) : Text :=
  "line ".toList ++ Text.ofNat u.line ++ ": unterminated test block (".toList ++
    (match u.unclosed with
      | .body => "body brace".toList
      | .call => "call parenthesis".toList) ++
    " never closes)".toList

end Unterminated

/-- A mark whose offsets are any two words of the machine, whether or not a header stands there. The
marks of a source are numbers that its size bounds; these are not. -/
structure WordMark where
  start : UInt64
  brace : UInt64
  deriving DecidableEq, Repr

/-- The mark as numbers. -/
def WordMark.mark (m : WordMark) : Mark :=
  ⟨m.start.toNat, m.brace.toNat⟩

/-- Where a test stands in a source, in bytes: its keyword, its body's brace, just past the body,
and just past the call's closing parenthesis. -/
structure Extent where
  start : Nat
  brace : Nat
  bodyEnd : Nat
  stop : Nat
  deriving DecidableEq, Repr

namespace Extent

/-- Finds the end of the test that a mark opens; what is looked at starts at an offset. -/
def locateFrom (source : Text) (m : Mark) (offset : Nat) : Except Unterminated Extent :=
  match Closing.of (Text.dropBytes offset source) with
  | .error u => .error ⟨m.start, Text.lineAt m.start source, u⟩
  | .ok c =>
    let bodyEnd := Text.size (Text.takeBytes offset source) + Text.size c.inside + 1
    .ok ⟨m.start, m.brace, bodyEnd, bodyEnd + Text.size c.tail + 1⟩

/-- Finds the end of the test that a mark opens. Only what follows the mark's brace is looked at,
whatever stands at the brace itself. -/
def locate (source : Text) (m : Mark) : Except Unterminated Extent :=
  locateFrom source m (m.brace + 1)

/-- Finds the end of the test for a mark of any two words. Behind the last word of all comes the
first one, so a brace there is looked for from the front of the source. -/
def locateWord (source : Text) (m : WordMark) : Except Unterminated Extent :=
  locateFrom source m.mark (m.brace + 1).toNat

/-- Offset of the call's closing parenthesis. -/
def closeParen (e : Extent) : Nat :=
  e.stop - 1

/-- The whole call. -/
def span (source : Text) (e : Extent) : Text :=
  Text.slice e.start e.stop source

/-- The text before the body. -/
def headerText (source : Text) (e : Extent) : Text :=
  Text.slice e.start e.brace source

/-- The body with both braces. -/
def bodyText (source : Text) (e : Extent) : Text :=
  Text.slice e.brace e.bodyEnd source

/-- What stands between the body and the call's closing parenthesis. -/
def tailText (source : Text) (e : Extent) : Text :=
  Text.slice e.bodyEnd e.closeParen source

end Extent

end TimeLimit
