import TimeLimit.Text.Alphanumeric
import TimeLimit.Text.ControlSequence
import TimeLimit.Text.LineBreak

/-!
# Chunks of a line

The chunks of a line are the parts that are set on one line whatever the width, each with the spaces
behind it. A line is cut where a line may end (`segments`), a word also behind a hyphen between two
letters or numbers (`hyphenParts`), and what is still wider than the line, at that width
(`cutParts`). None of the cuts loses a character: `text_ofLine` gives the line back.
-/

namespace TimeLimit

namespace Text

/-- The parts of a text with one more character in front of the first. -/
def onFirst (c : Char) : List Text → List Text
  | [] => [[c]]
  | p :: ps => (c :: p) :: ps

@[simp] theorem onFirst_ne_nil (c : Char) (ps : List Text) : onFirst c ps ≠ [] := by
  cases ps <;> simp [onFirst]

@[simp] theorem flatten_onFirst (c : Char) (ps : List Text) :
    (onFirst c ps).flatten = c :: ps.flatten := by
  cases ps <;> rfl

/-! ## Where a line may end -/

/-- Tells whether a character is a hyphen, shown or soft; the cuts behind hyphens have a rule of
their own. -/
def isHyphen (c : Char) : Bool :=
  c == '-' || c == '\u00AD'

/-- Tells whether a cut comes behind a character that shows, given the context behind it and what
follows. -/
def cutsAfter (x : LineContext) (c : Char) (rest : List (Char × Bool)) : Bool :=
  match rest.find? Prod.snd with
  | some (d, _) => !isHyphen c && x.mayEnd (.of d)
  | none => false

/-- The segments of a marked text behind a context; there is no context at its start. -/
def segmentsFrom : Option LineContext → List (Char × Bool) → List Text
  | _, [] => [[]]
  | x, (c, false) :: rest => onFirst c (segmentsFrom x rest)
  | x, (c, true) :: rest =>
    let y := match x with
      | none => .first (.of c)
      | some x => x.push (.of c)
    if cutsAfter y c rest then [c] :: segmentsFrom (some y) rest
    else onFirst c (segmentsFrom (some y) rest)

/-- Parts with the last two in one. -/
def rejoinLast : List Text → List Text
  | [p, q] => [p ++ q]
  | p :: ps => p :: rejoinLast ps
  | [] => []

/-- The segments of a line. When the line ends in a hyphen, the last place where it may end does not
count. -/
def segments (line : Text) : List Text :=
  let parts := segmentsFrom none (marked line)
  match ((marked line).filter Prod.snd).getLast? with
  | some (c, _) => if isHyphen c then rejoinLast parts else parts
  | none => parts

theorem flatten_segmentsFrom (x : Option LineContext) (m : List (Char × Bool)) :
    (segmentsFrom x m).flatten = m.map Prod.fst := by
  fun_induction segmentsFrom x m with
  | case1 => rfl
  | case2 x c rest ih => simp [ih]
  | case3 x c rest y h ih => simpa using ih
  | case4 x c rest y h ih => simp [ih]

theorem flatten_rejoinLast (ps : List Text) : (rejoinLast ps).flatten = ps.flatten := by
  fun_induction rejoinLast ps with
  | case1 => simp
  | case2 p ps h ih => simp [ih]
  | case3 => rfl

/-- The segments are the line, cut. -/
theorem flatten_segments (line : Text) : (segments line).flatten = line := by
  have h : (segmentsFrom none (marked line)).flatten = line := by
    rw [flatten_segmentsFrom, marked_fst]
  simp only [segments]
  split
  · split
    · rw [flatten_rejoinLast, h]
    · exact h
  · exact h

/-! ## Cuts inside a word -/

/-- The parts of a word that end in a hyphen between two letters or numbers, and what is left; the
character before the word's rest is given. -/
def hyphenPartsFrom (before : Option Char) : Text → List Text
  | [] => [[]]
  | c :: t =>
    if c = '-' ∧ before.any isAlphanumeric ∧ t.head?.any isAlphanumeric then
      [c] :: hyphenPartsFrom (some c) t
    else onFirst c (hyphenPartsFrom (some c) t)

/-- The parts of a word behind whose hyphens a line may end. -/
def hyphenParts (word : Text) : List Text :=
  hyphenPartsFrom none word

/-- The parts of a marked text that fill a width, behind some columns of the first part. -/
def cutPartsFrom (width used : Nat) : List (Char × Bool) → List Text
  | [] => [[]]
  | m :: rest =>
    if m.2 = true ∧ 0 < used ∧ width < used + markedColumns m then
      [] :: onFirst m.1 (cutPartsFrom width (markedColumns m) rest)
    else onFirst m.1 (cutPartsFrom width (used + markedColumns m) rest)

/-- The parts of a word that fill a width. -/
def cutParts (width : Nat) (word : Text) : List Text :=
  cutPartsFrom width 0 (marked word)

theorem flatten_hyphenPartsFrom (before : Option Char) (t : Text) :
    (hyphenPartsFrom before t).flatten = t := by
  induction t generalizing before with
  | nil => rfl
  | cons c t ih =>
    rw [hyphenPartsFrom]
    split <;> simp [ih]

theorem hyphenParts_ne_nil (word : Text) : hyphenParts word ≠ [] := by
  rw [hyphenParts]
  cases word with
  | nil => simp [hyphenPartsFrom]
  | cons c t => rw [hyphenPartsFrom]; split <;> simp

@[simp] theorem flatten_hyphenParts (word : Text) : (hyphenParts word).flatten = word :=
  flatten_hyphenPartsFrom none word

theorem flatten_cutPartsFrom (width used : Nat) (m : List (Char × Bool)) :
    (cutPartsFrom width used m).flatten = m.map Prod.fst := by
  induction m generalizing used with
  | nil => rfl
  | cons m rest ih =>
    rw [cutPartsFrom]
    split <;> simp [ih]

theorem cutParts_ne_nil (width : Nat) (word : Text) : cutParts width word ≠ [] := by
  rw [cutParts]
  cases marked word with
  | nil => simp [cutPartsFrom]
  | cons m rest => rw [cutPartsFrom]; split <;> simp

@[simp] theorem flatten_cutParts (width : Nat) (word : Text) :
    (cutParts width word).flatten = word := by
  rw [cutParts, flatten_cutPartsFrom, marked_fst]

end Text

/-! ## Chunks -/

/-- A part of a line that is not cut any more, and the number of spaces behind it. -/
structure Chunk where
  body : Text
  gap : Nat
  deriving DecidableEq, Repr

namespace Chunk

open Text

/-- A chunk with its spaces. -/
def text (c : Chunk) : Text :=
  c.body ++ List.replicate c.gap ' '

/-- The text of chunks on one line: no space stands at its end. -/
def lineText : List Chunk → Text
  | [] => []
  | [c] => c.body
  | c :: cs => c.text ++ lineText cs

/-- The chunk of a segment. -/
def ofSegment (s : Text) : Chunk :=
  ⟨(s.reverse.dropWhile (· == ' ')).reverse, (s.reverse.takeWhile (· == ' ')).length⟩

/-- The chunks of the parts of one: the spaces stand behind the last part. -/
def spread (gap : Nat) : List Text → List Chunk
  | [] => []
  | [b] => [⟨b, gap⟩]
  | b :: bs => ⟨b, 0⟩ :: spread gap bs

/-- The chunks of a line that is set in lines of a width. -/
def ofLine (width : Nat) (line : Text) : List Chunk :=
  let words := (segments line).map ofSegment
  let parts := words.flatMap fun c => spread c.gap (hyphenParts c.body)
  parts.flatMap fun c => spread c.gap (cutParts width c.body)

theorem text_ofSegment (s : Text) : (ofSegment s).text = s := by
  have h : List.replicate (s.reverse.takeWhile (· == ' ')).length ' '
      = (s.reverse.takeWhile (· == ' ')).reverse := by
    symm
    rw [List.eq_replicate_iff]
    refine ⟨by simp, fun c hc => ?_⟩
    have := List.all_eq_true.1 (List.all_takeWhile (p := (· == ' ')) (l := s.reverse)) c
      (List.mem_reverse.1 hc)
    simpa using this
  rw [text, ofSegment, h, ← List.reverse_append, List.takeWhile_append_dropWhile,
    List.reverse_reverse]

theorem text_spread (gap : Nat) {parts : List Text} (h : parts ≠ []) :
    (spread gap parts).flatMap text = parts.flatten ++ List.replicate gap ' ' := by
  fun_induction spread gap parts with
  | case1 => exact absurd rfl h
  | case2 b => simp [text]
  | case3 b bs hb ih =>
    have hbs : bs ≠ [] := fun he => hb he
    simp [text, ih hbs]

/-- The chunks of a line with their spaces are the line. -/
theorem text_ofLine (width : Nat) (line : Text) : (ofLine width line).flatMap text = line := by
  have h (f : Chunk → List Text) (hf : ∀ c, f c ≠ [] ∧ (f c).flatten = c.body) (cs : List Chunk) :
      (cs.flatMap fun c => spread c.gap (f c)).flatMap text = cs.flatMap text := by
    induction cs with
    | nil => rfl
    | cons c cs ih =>
      rw [List.flatMap_cons, List.flatMap_append, ih, text_spread c.gap (hf c).1, (hf c).2]
      rfl
  rw [ofLine, h _ fun c => ⟨cutParts_ne_nil width c.body, flatten_cutParts width c.body⟩,
    h _ fun c => ⟨hyphenParts_ne_nil c.body, flatten_hyphenParts c.body⟩, List.flatMap_map]
  simp only [text_ofSegment, List.flatMap_id', flatten_segments]

end Chunk

end TimeLimit
