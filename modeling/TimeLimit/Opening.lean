import TimeLimit.Header

/-!
# The first header of a text

`Opening.first?` walks a text to the first place where a header stands free, that is, where it
does not continue a word. The parts it returns put the text together again
(`Opening.text_of_first?`), and what it leaves behind the brace is shorter than the text, so a walk
over all headers ends (`Opening.length_rest_lt`). `Mark` says where a header
stands in a source, in bytes.
-/

namespace TimeLimit

/-- A text cut at its first header: what stands before, the header, and what follows its brace. -/
structure Opening where
  before : Text
  header : Header
  rest : Text

namespace Opening

/-- The text that was cut. -/
def text (o : Opening) : Text :=
  o.before ++ o.header.text ++ '{' :: o.rest

/-- Walks to the first free-standing header; `previous` is the character directly before the text
and `seen` holds what was passed, last character first. -/
def walk (previous : Option Char) (seen : Text) : Text → Option Opening
  | [] => none
  | c :: t =>
    match if Text.standsFree previous then Header.read? (c :: t) else none with
    | some (h, r) => some ⟨seen.reverse, h, r⟩
    | none => walk (some c) (c :: seen) t

/-- The first free-standing header of a text that follows the character `previous`. -/
def first? (previous : Option Char) (t : Text) : Option Opening :=
  walk previous [] t

theorem text_of_walk {previous : Option Char} {seen t : Text} {o : Opening}
    (h : walk previous seen t = some o) : o.text = seen.reverse ++ t := by
  induction t generalizing previous seen with
  | nil => simp [walk] at h
  | cons c t ih =>
    rw [walk] at h
    split at h
    · next hd r hr =>
      obtain rfl := Option.some.inj h
      rw [Option.ite_none_right_eq_some] at hr
      rw [(Header.eq_of_read? hr.2).2, text, List.append_assoc]
    · simpa using ih h

/-- The parts of a cut put the text together again. -/
theorem text_of_first? {previous : Option Char} {t : Text} {o : Opening}
    (h : first? previous t = some o) : o.text = t := by
  simpa using text_of_walk h

/-- What follows a header is shorter than the text. -/
theorem length_rest_lt {previous : Option Char} {t : Text} {o : Opening}
    (h : first? previous t = some o) : o.rest.length < t.length := by
  rw [← text_of_first? h, text]
  simp only [List.length_append, List.length_cons]
  omega

end Opening

/-- Where a header stands in a source, in bytes: its keyword and its body's brace. -/
structure Mark where
  start : Nat
  brace : Nat
  deriving DecidableEq, Repr

namespace Mark

/-- The first header that starts at or after an offset. The character before the offset still
decides whether a keyword right there stands free. -/
def find? (source : Text) (offset : Nat) : Option Mark :=
  let before := Text.takeBytes offset source
  (Opening.first? before.getLast? (Text.dropBytes offset source)).map fun o =>
    let start := Text.size before + Text.size o.before
    ⟨start, start + Text.size o.header.text⟩

/-- The text of the header, from its keyword up to the brace. -/
def headerText (source : Text) (m : Mark) : Text :=
  Text.slice m.start m.brace source

end Mark

end TimeLimit
