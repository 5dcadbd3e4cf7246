import TimeLimit.Text.BreakClass

/-!
# Where a line may end

`LineContext` keeps what has to be known of the text before a place, and `LineContext.mayEnd` tells
whether the line may end there when a character of a given class comes next. The rules are asked in
a fixed order, and the first that speaks decides: hard ends of lines, blanks, characters that hold
their neighbours, punctuation, and last the neighbours that stay together (`BreakClass.tied`).
Between all others a line may end, so between two ideographs, or between a slash and a letter.
-/

namespace TimeLimit

namespace BreakClass

/-- Tells whether a class ends the line. -/
def isHard : BreakClass → Bool
  | mandatory | carriageReturn | lineFeed | nextLine => true
  | _ => false

/-- Tells whether a class takes on the class of the character before. -/
def isMark : BreakClass → Bool
  | mark | joiner => true
  | _ => false

/-- Tells whether marks join a character of this class. -/
def takesMarks (k : BreakClass) : Bool :=
  !(k.isHard || k == space || k == zeroWidthSpace)

/-- Letters. -/
def letters : List BreakClass := [ordinary, hebrew]

/-- Ideographs and emoji. -/
def pictures : List BreakClass := [ideograph, emojiBase, emojiModifier]

/-- Hangul syllables and their parts. -/
def hangul : List BreakClass := [hangulLead, hangulVowel, hangulTrail, hangulPair, hangulTriple]

/-- Classes of neighbours that stay on one line: any on the left with any on the right. -/
def tied : List (List BreakClass × List BreakClass) :=
  [([slash], [hebrew]), (letters, [numeric]), ([numeric], letters), ([sign], pictures),
    (pictures, [unit]), ([sign, unit], letters), (letters, [sign, unit]),
    ([closing, closingParenthesis, numeric], [sign, unit]), ([sign, unit], [opening, numeric]),
    ([hyphen, separator, numeric, slash], [numeric]),
    ([hangulLead], [hangulLead, hangulVowel, hangulPair, hangulTriple]),
    ([hangulVowel, hangulPair], [hangulVowel, hangulTrail]),
    ([hangulTrail, hangulTriple], [hangulTrail]), (hangul, [unit]), ([sign], hangul),
    (letters, letters), ([separator], letters), (numeric :: letters, [opening]),
    ([closingParenthesis], numeric :: letters), ([emojiBase], [emojiModifier])]

/-- Tells whether two neighbours stay on one line. -/
def isTied (left right : BreakClass) : Bool :=
  tied.any fun e => e.1.contains left && e.2.contains right

/-- Tells whether a class does not begin a line, even behind spaces. -/
def closes : BreakClass → Bool
  | closing | closingParenthesis | exclamation | separator | slash => true
  | _ => false

end BreakClass

/-- What is known of a text that ends at a place. -/
structure LineContext where
  /-- The class of the last character that is neither a space nor a mark. -/
  last : BreakClass
  /-- Spaces stand behind that character. -/
  spaced : Bool := false
  /-- The text ends in a zero width joiner. -/
  joined : Bool := false
  /-- That character completes a pair: a hyphen or dash behind a Hebrew letter, or the second letter
  of a flag. -/
  paired : Bool := false
  deriving DecidableEq, Repr

namespace LineContext

open BreakClass

/-- Tells whether a character of a class joins the last one as a mark. -/
def attaches (x : LineContext) (next : BreakClass) : Bool :=
  next.isMark && !x.spaced && x.last.takesMarks

/-- The context behind the first character of a text. -/
def first (k : BreakClass) : LineContext :=
  ⟨if k.isMark then ordinary else k, k == space, k == joiner, false⟩

/-- The context behind one more character. -/
def push (x : LineContext) (k : BreakClass) : LineContext :=
  if x.attaches k then { x with joined := k == joiner }
  else if k == space then { x with spaced := true, joined := false }
  else
    let pair := !x.spaced && ((x.last == hebrew && (k == hyphen || k == breakAfter)) ||
      (x.last == regional && k == regional && !x.paired))
    ⟨if k.isMark then ordinary else k, false, k == joiner, pair⟩

/-- Tells whether two neighbours without a space between them stay on one line. -/
def holds (x : LineContext) (next : BreakClass) : Bool :=
  next == breakAfter || next == hyphen || next == nonStarter || next == inseparable ||
    x.last == breakBefore || (x.paired && (x.last == hyphen || x.last == breakAfter)) ||
    (x.last == regional && next == regional && !x.paired) || x.last.isTied next

/-- Tells whether the line may end before a character of a class that is no mark. -/
def mayEndBefore (x : LineContext) (next : BreakClass) : Bool :=
  if x.last.isHard && !x.spaced then !(x.last == carriageReturn && next == lineFeed)
  else if next.isHard || next == space || next == zeroWidthSpace then false
  else if x.last == zeroWidthSpace then true
  else if x.joined || next == wordJoiner then false
  else if !x.spaced && (x.last == wordJoiner || x.last == glue) then false
  else if next == glue && !x.spaced && !(x.last == hyphen || x.last == breakAfter) then false
  else if next.closes || x.last == opening then false
  else if x.last == quotation && next == opening then false
  else if (x.last == closing || x.last == closingParenthesis) && next == nonStarter then false
  else if x.last == bothSides && next == bothSides then false
  else if x.spaced then true
  else if x.last == quotation || next == quotation then false
  else if x.last == contingent || next == contingent then true
  else !x.holds next

/-- Tells whether the line may end before a character of a class. -/
def mayEnd (x : LineContext) (next : BreakClass) : Bool :=
  if x.attaches next then false
  else x.mayEndBefore (if next.isMark then ordinary else next)

/-- The line never ends between letters. -/
theorem mayEnd_ordinary {x : LineContext} (hx : x.last = ordinary) (hs : x.spaced = false) :
    x.mayEnd ordinary = false := by
  simp [mayEnd, attaches, isMark, mayEndBefore, hx, hs, isHard, closes, holds, isTied, tied,
    letters]

/-- The line may end between ideographs. -/
theorem mayEnd_ideograph {x : LineContext} (hx : x.last = ideograph) (hj : x.joined = false) :
    x.mayEnd ideograph = true := by
  simp [mayEnd, attaches, isMark, mayEndBefore, hx, hj, isHard, closes, holds, isTied, tied,
    letters, pictures, hangul]

end LineContext

end TimeLimit
