import TimeLimit.Text.Basic

/-!
# Lexemes of a call

How the arguments of a call read as program text: string literals, comments and single characters of
code (`Lexeme`). A literal stands between single or double quotes, one on each side or three, and an
`r` in front of them makes it raw. In a literal that is not raw a backslash takes the next character
with it. Only a literal between three quotes may hold line ends. A comment starts with `//` outside
all literals and runs to the end of its line; everything else is code. Block comments are not read.

`lex` reads a whole text from the front and fails on one that ends inside a literal. It answers with
the lexemes that the text is made of (`lex_eq_some_iff`), where `Lexed` says, lexeme by lexeme, what
may stand in front of what.
-/

namespace TimeLimit

/-- Whether a text that is long enough starts with a word does not depend on what follows it. -/
theorem Text.after?_append {w t : Text} (h : w.length ≤ t.length) (r : Text) :
    Text.after? w (t ++ r) = (Text.after? w t).map (· ++ r) := by
  fun_induction Text.after? w t with
  | case1 t => simp [Text.after?]
  | case2 => simp at h
  | case3 ws c t ih =>
    rw [List.cons_append, Text.after?, if_pos rfl, ih (Nat.le_of_succ_le_succ h)]
  | case4 w ws c t hne => rw [List.cons_append, Text.after?, if_neg hne, Option.map_none]

/-- The first line of a text, and what follows it: nothing, or a line end and further lines. -/
def Text.firstLine (t : Text) : Text × Text :=
  (t.takeWhile (· != '\n'), t.dropWhile (· != '\n'))

theorem Text.firstLine_eq_iff {t line rest : Text} :
    Text.firstLine t = (line, rest) ↔
      t = line ++ rest ∧ '\n' ∉ line ∧ (rest = [] ∨ ∃ r, rest = '\n' :: r) := by
  constructor
  · rintro h
    cases h
    refine ⟨List.takeWhile_append_dropWhile.symm, fun hmem => ?_, ?_⟩
    · exact absurd (List.all_eq_true.1 List.all_takeWhile _ hmem) (by decide)
    · have hhead := List.head?_dropWhile_not (· != '\n') t
      cases hdrop : t.dropWhile (· != '\n') with
      | nil => exact .inl rfl
      | cons c r =>
        rw [hdrop] at hhead
        exact .inr ⟨r, by simpa using hhead⟩
  · rintro ⟨rfl, hline, hrest⟩
    have hcode (c : Char) (hc : c ∈ line) : (c != '\n') = true := by
      rw [bne_iff_ne]
      rintro rfl
      exact hline hc
    have hend : rest.takeWhile (· != '\n') = [] ∧ rest.dropWhile (· != '\n') = rest := by
      rcases hrest with rfl | ⟨r, rfl⟩ <;> exact ⟨rfl, rfl⟩
    rw [Text.firstLine, List.takeWhile_append_of_pos hcode, List.dropWhile_append_of_pos hcode,
      hend.1, hend.2, List.append_nil]

/-- A string literal. -/
structure Literal where
  /-- An `r` stands in front of it, and a backslash is a character like any other. -/
  raw : Bool
  /-- It has three quotes on each side. -/
  triple : Bool
  quote : Char
  /-- What stands between the quotes. -/
  content : Text
  deriving DecidableEq, Repr

namespace Literal

/-- The quotes on one side of a literal. -/
def delimiterOf (triple : Bool) (quote : Char) : Text :=
  if triple then [quote, quote, quote] else [quote]

/-- The literal as it is written. -/
def text (l : Literal) : Text :=
  (if l.raw then ['r'] else []) ++ delimiterOf l.triple l.quote ++ l.content ++
    delimiterOf l.triple l.quote

/-- Tells whether a character can quote a literal. -/
def isQuote (c : Char) : Bool :=
  c == '\x27' || c == '\x22'

/-- The content of a literal whose opening quotes were read, and what follows its closing ones.
`escaped` tells whether a backslash was just read that takes the next character with it. -/
def readContent? (raw triple : Bool) (quote : Char) : Bool → Text → Option (Text × Text)
  | _, [] => none
  | true, c :: t =>
    if c = '\n' ∧ triple = false then none
    else (readContent? raw triple quote false t).map fun x => (c :: x.1, x.2)
  | false, c :: t =>
    match Text.after? (delimiterOf triple quote) (c :: t) with
    | none =>
      if c = '\n' ∧ triple = false then none
      else (readContent? raw triple quote (c == '\\' && !raw) t).map fun x => (c :: x.1, x.2)
    | some rest => some ([], rest)

/-- The first quote of a literal that starts a text, whether the literal is raw, and what follows
the quote. In the middle of a name an `r` does not start a literal. -/
def opening? (inName : Bool) : Text → Option (Bool × Char × Text)
  | [] => none
  | c :: t =>
    if isQuote c then some (false, c, t)
    else match t with
      | q :: u => if c = 'r' ∧ inName = false ∧ isQuote q = true then some (true, q, u) else none
      | [] => none

/-- The literal whose first quote was read, and what follows it. -/
def read? (raw : Bool) (quote : Char) (t : Text) : Option (Literal × Text) :=
  match Text.after? [quote, quote] t with
  | none => (readContent? raw false quote false t).map fun x => (⟨raw, false, quote, x.1⟩, x.2)
  | some t => (readContent? raw true quote false t).map fun x => (⟨raw, true, quote, x.1⟩, x.2)

/-- What is read is the content, the closing quotes and what follows. -/
theorem text_of_readContent? {raw triple escaped : Bool} {quote : Char} {t content rest : Text}
    (h : readContent? raw triple quote escaped t = some (content, rest)) :
    t = content ++ delimiterOf triple quote ++ rest := by
  fun_induction readContent? raw triple quote escaped t generalizing content with
  | case1 => cases h
  | case2 => cases h
  | case3 c t hline ih =>
    obtain ⟨⟨content, rest⟩, hread, he⟩ := Option.map_eq_some_iff.1 h
    cases he
    rw [ih hread]
    rfl
  | case4 => cases h
  | case5 c t hclose hline ih =>
    obtain ⟨⟨content, rest⟩, hread, he⟩ := Option.map_eq_some_iff.1 h
    cases he
    rw [ih hread]
    rfl
  | case6 c t rest' hclose =>
    cases h
    exact Text.after?_eq_some_iff.1 hclose

/-- The closing quotes end a content. -/
theorem readContent?_close (raw triple : Bool) (quote : Char) (rest : Text) :
    readContent? raw triple quote false (delimiterOf triple quote ++ rest) = some ([], rest) := by
  have hclose : Text.after? (delimiterOf triple quote) (delimiterOf triple quote ++ rest) =
      some rest := Text.after?_eq_some_iff.2 rfl
  obtain ⟨c, t, hct⟩ : ∃ c t, delimiterOf triple quote ++ rest = c :: t := by
    cases triple <;> exact ⟨_, _, rfl⟩
  rw [hct] at hclose ⊢
  rw [readContent?, hclose]

/-- How a content is read does not depend on what follows the literal. -/
theorem readContent?_of_rest {raw triple escaped : Bool} {quote : Char} {t content rest : Text}
    (h : readContent? raw triple quote escaped t = some (content, rest)) (rest' : Text) :
    readContent? raw triple quote escaped (content ++ delimiterOf triple quote ++ rest') =
      some (content, rest') := by
  fun_induction readContent? raw triple quote escaped t generalizing content with
  | case1 => cases h
  | case2 => cases h
  | case3 c t hline ih =>
    obtain ⟨⟨content, rest⟩, hread, he⟩ := Option.map_eq_some_iff.1 h
    cases he
    rw [List.cons_append, List.cons_append, readContent?, if_neg hline, ih hread]
    rfl
  | case4 => cases h
  | case5 c t hclose hline ih =>
    obtain ⟨⟨content, rest⟩, hread, he⟩ := Option.map_eq_some_iff.1 h
    cases he
    -- the closing quotes would end before what follows them
    have hlong : (delimiterOf triple quote).length ≤
        (c :: (content ++ delimiterOf triple quote)).length := by
      rw [List.length_cons, List.length_append]
      omega
    rw [text_of_readContent? hread, ← List.cons_append, Text.after?_append hlong,
      Option.map_eq_none_iff] at hclose
    have hclose' := Text.after?_append hlong rest'
    rw [hclose, Option.map_none, List.cons_append] at hclose'
    rw [List.cons_append, List.cons_append, readContent?, hclose']
    dsimp only
    rw [if_neg hline, ih hread]
    rfl
  | case6 c t rest' hclose =>
    cases h
    exact readContent?_close raw triple quote _

/-- Only a literal between three quotes holds line ends. -/
theorem not_mem_of_readContent? {raw escaped : Bool} {quote : Char} {t content rest : Text}
    (h : readContent? raw false quote escaped t = some (content, rest)) : '\n' ∉ content := by
  fun_induction readContent? raw false quote escaped t generalizing content with
  | case1 => cases h
  | case2 => cases h
  | case3 c t hline ih =>
    obtain ⟨⟨content, rest⟩, hread, he⟩ := Option.map_eq_some_iff.1 h
    cases he
    rw [List.mem_cons, not_or]
    exact ⟨fun hc => hline ⟨hc.symm, rfl⟩, ih hread⟩
  | case4 => cases h
  | case5 c t hclose hline ih =>
    obtain ⟨⟨content, rest⟩, hread, he⟩ := Option.map_eq_some_iff.1 h
    cases he
    rw [List.mem_cons, not_or]
    exact ⟨fun hc => hline ⟨hc.symm, rfl⟩, ih hread⟩
  | case6 =>
    cases h
    exact List.not_mem_nil

theorem opening?_eq_some_iff {inName raw : Bool} {quote : Char} {t u : Text} :
    opening? inName t = some (raw, quote, u) ↔
      t = (if raw then ['r'] else []) ++ quote :: u ∧ isQuote quote = true ∧
        (raw = true → inName = false) := by
  fun_cases opening? inName t with
  | case1 =>
    constructor
    · intro h
      cases h
    · rintro ⟨h, -⟩
      cases raw <;> cases h
  | case2 c t hc =>
    constructor
    · intro h
      cases h
      exact ⟨rfl, hc, nofun⟩
    · rintro ⟨h, hq, hname⟩
      cases raw with
      | false =>
        cases h
        rfl
      | true =>
        cases h
        exact absurd hc (by decide)
  | case3 c hc q u hr =>
    constructor
    · intro h
      cases h
      exact ⟨by rw [hr.1]; rfl, hr.2.2, fun _ => hr.2.1⟩
    · rintro ⟨h, hq, hname⟩
      cases raw with
      | false =>
        cases h
        exact absurd hq hc
      | true =>
        cases h
        rfl
  | case4 c hc q u hr =>
    constructor
    · intro h
      cases h
    · rintro ⟨h, hq, hname⟩
      cases raw with
      | false =>
        cases h
        exact absurd hq hc
      | true =>
        cases h
        exact absurd ⟨rfl, hname rfl, hq⟩ hr
  | case5 c hc =>
    constructor
    · intro h
      cases h
    · rintro ⟨h, hq, hname⟩
      cases raw with
      | false =>
        cases h
        exact absurd hq hc
      | true => cases h

/-- No literal starts with a character that is no quote, unless it is an `r` of its own and a quote
follows. -/
theorem opening?_eq_none_iff {inName : Bool} {c : Char} {t : Text} :
    opening? inName (c :: t) = none ↔ isQuote c = false ∧
      (c = 'r' → inName = false → ∀ q, t.head? = some q → isQuote q = false) := by
  cases hc : isQuote c with
  | true => simp [opening?, hc]
  | false => cases t <;> simp [opening?, hc]

/-- A literal can stand in front of the rest of a text. -/
structure Stands (inName : Bool) (l : Literal) (rest : Text) : Prop where
  quote : isQuote l.quote = true
  /-- The `r` of a raw literal does not belong to a name. -/
  raw : l.raw = true → inName = false
  /-- The first closing quotes end it. -/
  content : readContent? l.raw l.triple l.quote false
    (l.content ++ delimiterOf l.triple l.quote ++ rest) = some (l.content, rest)
  /-- An empty literal is not followed by a third quote. -/
  empty : l.triple = false → l.content = [] → rest.head? ≠ some l.quote

theorem isQuote_iff {c : Char} : isQuote c = true ↔ c = '\x27' ∨ c = '\x22' := by
  simp [isQuote]

theorem ne_of_isQuote {c x : Char} (h : isQuote c = true) (hx : isQuote x = false) : c ≠ x := by
  rintro rfl
  rw [h] at hx
  cases hx

/-- A literal starts with a quote or with its `r`. -/
theorem Stands.exists_cons {inName : Bool} {l : Literal} {rest : Text} (h : l.Stands inName rest)
    {x : Char} (hr : x ≠ 'r') (hx : isQuote x = false) : ∃ c t, l.text = c :: t ∧ c ≠ x := by
  obtain ⟨raw, triple, quote, content⟩ := l
  have hquote := ne_of_isQuote h.quote hx
  cases raw with
  | true => exact ⟨'r', _, rfl, hr.symm⟩
  | false => cases triple <;> exact ⟨quote, _, rfl, hquote⟩

theorem stands_of_read? {inName raw : Bool} {quote : Char} {t rest : Text} {l : Literal}
    (hquote : isQuote quote = true) (hraw : raw = true → inName = false)
    (h : read? raw quote t = some (l, rest)) :
    (if raw then ['r'] else []) ++ quote :: t = l.text ++ rest ∧ l.Stands inName rest := by
  rw [read?] at h
  split at h
  · next hnone =>
    obtain ⟨⟨content, rest⟩, hread, he⟩ := Option.map_eq_some_iff.1 h
    cases he
    have htext := text_of_readContent? hread
    refine ⟨?_, hquote, hraw, htext ▸ hread, ?_⟩
    · rw [htext]
      simp [text, delimiterOf]
    · rintro - hempty hhead
      obtain ⟨v, hv⟩ := List.head?_eq_some_iff.1 hhead
      dsimp only at hempty hv
      rw [htext, hempty, hv] at hnone
      exact absurd hnone (by simp [delimiterOf, Text.after?])
  · next u hu =>
    obtain ⟨⟨content, rest⟩, hread, he⟩ := Option.map_eq_some_iff.1 h
    cases he
    have htext := text_of_readContent? hread
    refine ⟨?_, hquote, hraw, htext ▸ hread, nofun⟩
    rw [Text.after?_eq_some_iff.1 hu, htext]
    simp [text, delimiterOf]

/-- A literal that can stand in front of a text is read there. -/
theorem Stands.read? {inName : Bool} {rest : Text} {l : Literal} (h : l.Stands inName rest) :
    ∃ t, l.text ++ rest = (if l.raw then ['r'] else []) ++ l.quote :: t ∧
      read? l.raw l.quote t = some (l, rest) := by
  obtain ⟨raw, triple, quote, content⟩ := l
  have hread := h.content
  dsimp only at hread ⊢
  cases triple with
  | true =>
    refine ⟨[quote, quote] ++ (content ++ delimiterOf true quote ++ rest), ?_, ?_⟩
    · simp [text, delimiterOf]
    · rw [Literal.read?, Text.after?_eq_some_iff.2 rfl]
      dsimp only
      rw [hread]
      rfl
  | false =>
    refine ⟨content ++ delimiterOf false quote ++ rest, ?_, ?_⟩
    · simp [text, delimiterOf]
    · have hnone :
          Text.after? [quote, quote] (content ++ delimiterOf false quote ++ rest) = none := by
        rw [Option.eq_none_iff_forall_ne_some]
        intro u hu
        rw [Text.after?_eq_some_iff] at hu
        cases content with
        | nil =>
          have hrest : rest = quote :: u := (List.cons.inj hu).2
          exact h.empty rfl rfl (by rw [hrest]; rfl)
        | cons c content =>
          obtain ⟨rfl, -⟩ := List.cons.inj hu
          rw [List.cons_append, List.cons_append, readContent?] at hread
          simp [delimiterOf, Text.after?] at hread
      rw [Literal.read?, hnone]
      dsimp only
      rw [hread]
      rfl

end Literal

/-- A part of a text that is read at once. -/
inductive Lexeme where
  /-- A character of code. -/
  | code (c : Char)
  | literal (l : Literal)
  /-- A comment, with its slashes and without the line end. -/
  | comment (t : Text)
  deriving DecidableEq, Repr

namespace Lexeme

/-- The lexeme as it is written. -/
def text : Lexeme → Text
  | code c => [c]
  | literal l => l.text
  | comment t => t

/-- Lexemes as they are written, one behind the other. -/
def textOf (ls : List Lexeme) : Text :=
  ls.flatMap text

/-- Tells whether a name may go on behind a lexeme. An `r` there belongs to the name. -/
def inName : Lexeme → Bool
  | code c => c.isAlphanum || c == '_' || c == '$'
  | _ => false

/-- The first lexeme of a text, and what follows it. -/
def next? (inName : Bool) : Text → Option (Lexeme × Text)
  | [] => none
  | c :: t =>
    if c = '/' ∧ t.head? = some '/' then
      some (.comment (Text.firstLine (c :: t)).1, (Text.firstLine (c :: t)).2)
    else match Literal.opening? inName (c :: t) with
      | some (raw, quote, u) => (Literal.read? raw quote u).map fun x => (.literal x.1, x.2)
      | none => some (.code c, t)

/-- A lexeme can stand in front of the rest of a text. -/
inductive Stands (inName : Bool) : Lexeme → Text → Prop where
  | code {c : Char} {rest : Text} (hcomment : ¬ (c = '/' ∧ rest.head? = some '/'))
      (hquote : Literal.isQuote c = false)
      (hraw : c = 'r' → inName = false → ∀ q, rest.head? = some q → Literal.isQuote q = false) :
      Stands inName (code c) rest
  | literal {l : Literal} {rest : Text} (h : l.Stands inName rest) : Stands inName (literal l) rest
  | comment {t rest : Text} (hstart : ['/', '/'] <+: t) (hline : '\n' ∉ t)
      (hrest : rest = [] ∨ ∃ r, rest = '\n' :: r) : Stands inName (comment t) rest

/-- A lexeme is read where it can stand. -/
theorem next?_eq_some_iff {inName : Bool} {t rest : Text} {l : Lexeme} :
    next? inName t = some (l, rest) ↔ t = l.text ++ rest ∧ Stands inName l rest := by
  constructor
  · intro h
    fun_cases next? inName t with
    | case1 => cases h
    | case2 c t hcomment =>
      rw [next?, if_pos hcomment] at h
      cases h
      obtain ⟨rfl, ht⟩ := hcomment
      obtain ⟨u, rfl⟩ := List.head?_eq_some_iff.1 ht
      obtain ⟨htext, hline, hrest⟩ := (Text.firstLine_eq_iff (t := '/' :: '/' :: u)).1 rfl
      exact ⟨htext, .comment ⟨(Text.firstLine u).1, rfl⟩ hline hrest⟩
    | case3 c t hcomment raw quote u hopening =>
      rw [next?, if_neg hcomment, hopening] at h
      obtain ⟨⟨l, rest⟩, hread, he⟩ := Option.map_eq_some_iff.1 h
      cases he
      obtain ⟨htext, hquote, hraw⟩ := Literal.opening?_eq_some_iff.1 hopening
      obtain ⟨hl, hstands⟩ := Literal.stands_of_read? hquote hraw hread
      exact ⟨htext.trans hl, .literal hstands⟩
    | case4 c t hcomment hopening =>
      rw [next?, if_neg hcomment, hopening] at h
      cases h
      obtain ⟨hquote, hraw⟩ := Literal.opening?_eq_none_iff.1 hopening
      exact ⟨rfl, .code hcomment hquote hraw⟩
  · rintro ⟨rfl, hstands⟩
    cases hstands with
    | code hcomment hquote hraw =>
      show next? inName (_ :: rest) = _
      rw [next?, if_neg hcomment, Literal.opening?_eq_none_iff.2 ⟨hquote, hraw⟩]
    | @literal l _ h =>
      obtain ⟨t, htext, hread⟩ := h.read?
      have hopening := Literal.opening?_eq_some_iff.2 ⟨htext, h.quote, h.raw⟩
      obtain ⟨c, u, hcu, hc⟩ := h.exists_cons (x := '/') (by decide) (by decide)
      rw [hcu, List.cons_append] at hopening
      rw [text, hcu, List.cons_append, next?, if_neg fun hslash => hc hslash.1, hopening]
      dsimp only
      rw [hread]
      rfl
    | @comment t _ hstart hline hrest =>
      obtain ⟨u, rfl⟩ := hstart
      have hcut := Text.firstLine_eq_iff.2 ⟨rfl, hline, hrest⟩
      show next? inName ('/' :: ('/' :: u ++ rest)) = _
      rw [next?, if_pos ⟨rfl, rfl⟩]
      exact congrArg (fun x => some (comment x.1, x.2)) hcut

theorem Stands.text_ne_nil {inName : Bool} {l : Lexeme} {rest : Text} (h : Stands inName l rest) :
    l.text ≠ [] := by
  cases h with
  | code => exact List.cons_ne_nil _ _
  | @literal l _ h =>
    obtain ⟨c, t, hct, -⟩ := h.exists_cons (x := '/') (by decide) (by decide)
    rw [text, hct]
    exact List.cons_ne_nil c t
  | comment hstart =>
    rintro rfl
    exact absurd hstart (by simp)

theorem length_rest_lt {inName : Bool} {t rest : Text} {l : Lexeme}
    (h : next? inName t = some (l, rest)) : rest.length < t.length := by
  obtain ⟨rfl, hstands⟩ := next?_eq_some_iff.1 h
  have hpos := List.length_pos_iff.2 hstands.text_ne_nil
  rw [List.length_append]
  omega

/-- The lexemes of a text, if it reads as lexemes to its end. -/
def lexFrom (inName : Bool) (t : Text) : Option (List Lexeme) :=
  if t = [] then some []
  else match _h : next? inName t with
    | none => none
    | some (l, rest) => (lexFrom l.inName rest).map (l :: ·)
termination_by t.length
decreasing_by exact length_rest_lt _h

/-- The lexemes of a text. -/
def lex (t : Text) : Option (List Lexeme) :=
  lexFrom false t

/-- Lexemes can stand one in front of the other, and the last one in front of the rest of a text. -/
inductive Lexed : Bool → List Lexeme → Text → Prop where
  | nil {inName : Bool} {rest : Text} : Lexed inName [] rest
  | cons {inName : Bool} {l : Lexeme} {ls : List Lexeme} {rest : Text}
      (h : Stands inName l (textOf ls ++ rest)) (hs : Lexed l.inName ls rest) :
      Lexed inName (l :: ls) rest

theorem Lexed.tail {inName : Bool} {l : Lexeme} {ls : List Lexeme} {rest : Text}
    (h : Lexed inName (l :: ls) rest) : Lexed l.inName ls rest := by
  cases h with
  | cons _ hs => exact hs

@[simp] theorem textOf_nil : textOf [] = [] := rfl

@[simp] theorem textOf_cons (l : Lexeme) (ls : List Lexeme) :
    textOf (l :: ls) = l.text ++ textOf ls := List.flatMap_cons

@[simp] theorem textOf_append (ls ls' : List Lexeme) :
    textOf (ls ++ ls') = textOf ls ++ textOf ls' := List.flatMap_append

theorem lexFrom_eq_some_iff {inName : Bool} {t : Text} {ls : List Lexeme} :
    lexFrom inName t = some ls ↔ t = textOf ls ∧ Lexed inName ls [] := by
  induction ls generalizing inName t with
  | nil =>
    rw [lexFrom.eq_def]
    constructor
    · intro h
      split at h
      · next hnil => exact ⟨hnil, .nil⟩
      · split at h
        · cases h
        · obtain ⟨ls, -, he⟩ := Option.map_eq_some_iff.1 h
          cases he
    · rintro ⟨rfl, -⟩
      rfl
  | cons l ls ih =>
    rw [lexFrom.eq_def]
    constructor
    · intro h
      split at h
      · cases h
      · split at h
        · cases h
        · next l' rest hnext =>
          obtain ⟨ls', hrest, he⟩ := Option.map_eq_some_iff.1 h
          cases he
          obtain ⟨rfl, hstands⟩ := next?_eq_some_iff.1 hnext
          obtain ⟨rfl, hlexed⟩ := ih.1 hrest
          rw [← List.append_nil (textOf ls)] at hstands
          exact ⟨textOf_cons l ls, .cons hstands hlexed⟩
    · rintro ⟨rfl, hlexed⟩
      cases hlexed with
      | cons hstands hlexed =>
        rw [List.append_nil] at hstands
        have hnext := next?_eq_some_iff.2 ⟨textOf_cons l ls, hstands⟩
        split
        · next hnil =>
          rw [hnil] at hnext
          cases hnext
        · split
          · next hnone =>
            rw [hnext] at hnone
            cases hnone
          · next l' rest hsome =>
            rw [hnext] at hsome
            cases hsome
            rw [ih.2 ⟨rfl, hlexed⟩, Option.map_some]

/-- A text reads as the lexemes that it is made of, each where it can stand. -/
theorem lex_eq_some_iff {t : Text} {ls : List Lexeme} :
    lex t = some ls ↔ t = textOf ls ∧ Lexed false ls [] :=
  lexFrom_eq_some_iff

/-! ## Parts of a text -/

/-- Tells whether a name may go on behind some lexemes, when this is known before them. -/
def nameBehind (inName : Bool) : List Lexeme → Bool
  | [] => inName
  | l :: ls => nameBehind l.inName ls

/-- Lexemes and further ones behind them. -/
theorem lexed_append_iff {inName : Bool} {ls ls' : List Lexeme} {rest : Text} :
    Lexed inName (ls ++ ls') rest ↔
      Lexed inName ls (textOf ls' ++ rest) ∧ Lexed (nameBehind inName ls) ls' rest := by
  induction ls generalizing inName with
  | nil => exact ⟨fun h => ⟨.nil, h⟩, fun h => h.2⟩
  | cons l ls ih =>
    constructor
    · intro h
      rw [List.cons_append] at h
      cases h with
      | cons hl hs =>
        rw [textOf_append, List.append_assoc] at hl
        exact ⟨.cons hl (ih.1 hs).1, (ih.1 hs).2⟩
    · rintro ⟨h, h'⟩
      cases h with
      | cons hl hs =>
        rw [← List.append_assoc, ← textOf_append] at hl
        exact .cons hl (ih.2 ⟨hs, h'⟩)

end Lexeme

end TimeLimit
