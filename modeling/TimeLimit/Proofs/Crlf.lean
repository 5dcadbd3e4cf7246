import TimeLimit.Proofs.Outline

/-!
# Carriage returns before line feeds

`Text.crlf` puts a carriage return before every line feed. Both are blanks, and neither belongs to a
word, to a bracket or to a keyword, so all that is looked for in a source is found at the same
places: headers (`Opening.first?_crlf`), the brackets that close a test (`Closing.of_crlf`) and
words without line feeds (`Text.mentions_crlf`). The pieces of the new source are the pieces of the
old one, each with carriage returns of its own (`outline_crlf`), and a test is limited in the one
when it is in the other (`TestCase.isLimited_crlf`).
-/

namespace TimeLimit

/-! ## Texts -/

namespace Text

/-- The text with a carriage return before every line feed. -/
def crlf (t : Text) : Text :=
  t.flatMap fun c => if c = '\n' then ['\r', '\n'] else [c]

@[simp] theorem crlf_nil : crlf [] = [] := rfl

@[simp] theorem crlf_append (s t : Text) : crlf (s ++ t) = crlf s ++ crlf t :=
  List.flatMap_append

@[simp] theorem crlf_lineEnd (t : Text) : crlf ('\n' :: t) = '\r' :: '\n' :: crlf t := rfl

theorem crlf_cons {c : Char} (hc : c ≠ '\n') (t : Text) : crlf (c :: t) = c :: crlf t := by
  rw [crlf, List.flatMap_cons, if_neg hc]
  rfl

/-- A text without line feeds stays as it is. -/
theorem crlf_eq_self {t : Text} (h : '\n' ∉ t) : crlf t = t := by
  induction t with
  | nil => rfl
  | cons c t ih =>
    rw [List.mem_cons, not_or] at h
    rw [crlf_cons (Ne.symm h.1), ih h.2]

/-- Nothing but carriage returns is put in. -/
theorem count_crlf {x : Char} (hx : x ≠ '\r') (t : Text) : (crlf t).count x = t.count x := by
  induction t with
  | nil => rfl
  | cons c t ih =>
    by_cases hc : c = '\n'
    · subst hc
      rw [crlf_lineEnd, List.count_cons_of_ne hx.symm, List.count_cons, List.count_cons, ih]
    · rw [crlf_cons hc, List.count_cons, List.count_cons, ih]

theorem lineEnds_crlf (t : Text) : lineEnds (crlf t) = lineEnds t :=
  count_crlf (by decide) t

/-- There is one more byte for every line feed. -/
theorem size_crlf (t : Text) : size (crlf t) = size t + lineEnds t := by
  induction t with
  | nil => rfl
  | cons c t ih =>
    by_cases hc : c = '\n'
    · subst hc
      have hr : ('\r').utf8Size = 1 := rfl
      rw [crlf_lineEnd, size_cons, size_cons, size_cons, ih, lineEnds, lineEnds,
        List.count_cons_self, hr]
      omega
    · rw [crlf_cons hc, size_cons, size_cons, ih, lineEnds, lineEnds, List.count_cons_of_ne hc,
        Nat.add_assoc]

/-! ### Parts of texts -/

section
variable {p : Char → Bool} (hp : p '\r' = p '\n')
include hp

/-- A run of characters that does not tell the two characters apart ends at the same place. -/
theorem takeWhile_crlf (t : Text) : (crlf t).takeWhile p = crlf (t.takeWhile p) := by
  induction t with
  | nil => rfl
  | cons c t ih =>
    by_cases hc : c = '\n'
    · subst hc
      rw [crlf_lineEnd, List.takeWhile_cons, List.takeWhile_cons, List.takeWhile_cons, hp, ih]
      cases p '\n' <;> rfl
    · rw [crlf_cons hc, List.takeWhile_cons, List.takeWhile_cons, ih]
      cases p c
      · rfl
      · exact (crlf_cons hc _).symm

theorem dropWhile_crlf (t : Text) : (crlf t).dropWhile p = crlf (t.dropWhile p) := by
  have hcrlf : crlf (t.takeWhile p) ++ crlf (t.dropWhile p) = crlf t := by
    rw [← crlf_append, List.takeWhile_append_dropWhile]
  have hcut := List.takeWhile_append_dropWhile (p := p) (l := crlf t)
  rw [takeWhile_crlf hp] at hcut
  exact List.append_cancel_left (hcut.trans hcrlf.symm)

end

/-- A word without line ends is read off as before. -/
theorem after?_crlf {w : Text} (hr : '\r' ∉ w) (hn : '\n' ∉ w) (t : Text) :
    after? w (crlf t) = (after? w t).map crlf := by
  induction w generalizing t with
  | nil => rfl
  | cons x w ih =>
    rw [List.mem_cons, not_or] at hr hn
    cases t with
    | nil => rfl
    | cons c t =>
      by_cases hc : c = '\n'
      · subst hc
        rw [crlf_lineEnd, after?, after?, if_neg (Ne.symm hr.1), if_neg (Ne.symm hn.1)]
        rfl
      · rw [crlf_cons hc, after?, after?, ih hr.2 hn.2]
        split <;> rfl

/-- A word without line ends is mentioned where it was. -/
theorem mentions_crlf {w : Text} (hne : w ≠ []) (hr : '\r' ∉ w) (hn : '\n' ∉ w) (t : Text) :
    mentions w (crlf t) = mentions w t := by
  obtain ⟨x, w, rfl⟩ := List.exists_cons_of_ne_nil hne
  induction t with
  | nil => rfl
  | cons c t ih =>
    have hafter := after?_crlf hr hn (c :: t)
    by_cases hc : c = '\n'
    · subst hc
      rw [List.mem_cons, not_or] at hr hn
      have hlineEnd (u : Text) : after? (x :: w) ('\n' :: u) = none := if_neg (Ne.symm hn.1)
      have hreturn (u : Text) : after? (x :: w) ('\r' :: u) = none := if_neg (Ne.symm hr.1)
      rw [crlf_lineEnd, mentions, mentions, mentions, hlineEnd, hlineEnd, hreturn, ih]
      rfl
    · rw [crlf_cons hc] at hafter
      rw [crlf_cons hc, mentions, mentions, hafter, Option.isSome_map, ih]

end Text

/-! ## Headers -/

namespace Header

/-- The header with carriage returns. -/
def crlf (h : Header) : Header :=
  ⟨h.gap.crlf, h.arguments.crlf, h.asyncGap.crlf, h.bodyGap.crlf⟩

theorem text_crlf (h : Header) : h.crlf.text = Text.crlf h.text := by
  have hwords : Text.crlf testWord = testWord ∧ Text.crlf asyncWord = asyncWord := by decide
  simp [text, crlf, hwords, Text.crlf_cons]

theorem readArguments?_crlf (t : Text) :
    readArguments? (Text.crlf t) =
      (readArguments? t).map fun x => (Text.crlf x.1, Text.crlf x.2) := by
  have hempty (u : Text) : (Text.crlf u).isEmpty = u.isEmpty := by
    cases u with
    | nil => rfl
    | cons c u => by_cases hc : c = '\n' <;> simp [hc, Text.crlf_cons]
  rw [readArguments?, readArguments?, Text.takeWhile_crlf (by decide),
    Text.dropWhile_crlf (by decide), hempty, Text.after?_crlf (by decide) (by decide)]
  split
  · rfl
  · rw [Option.map_map, Option.map_map]
    rfl

/-- The same header is read, with its carriage returns. -/
theorem read?_crlf (t : Text) :
    read? (Text.crlf t) = (read? t).map fun x => (x.1.crlf, Text.crlf x.2) := by
  have hblank : Text.isBlank '\r' = Text.isBlank '\n' := by decide
  have htest := Text.after?_crlf (w := testWord) (by decide) (by decide)
  have hopener := Text.after?_crlf (w := ['(']) (by decide) (by decide)
  have hasync := Text.after?_crlf (w := asyncWord) (by decide) (by decide)
  have hbrace := Text.after?_crlf (w := ['\x7b']) (by decide) (by decide)
  -- every step of the reading takes the carriage returns along
  simp only [read?, Option.bind_eq_bind, htest, hopener, hasync, hbrace, readArguments?_crlf,
    Text.dropWhile_crlf hblank, Text.takeWhile_crlf hblank, Option.bind_map, Option.map_bind,
    Function.comp_def, crlf]
  rfl

end Header

/-! ## The search for a header -/

/-- No header starts with another character than the keyword does. -/
theorem Header.read?_cons_of_ne {c : Char} (hc : c ≠ 't') (t : Text) : read? (c :: t) = none := by
  rw [read?, testWord, Text.after?, if_neg (Ne.symm hc)]
  rfl

namespace Opening

/-- The cut with carriage returns. -/
def crlf (o : Opening) : Opening :=
  ⟨o.before.crlf, o.header.crlf, o.rest.crlf⟩

/-- The first header is found where it was. -/
theorem first?_crlf (previous : Option Char) (t : Text) :
    first? previous (Text.crlf t) = (first? previous t).map crlf := by
  induction t generalizing previous with
  | nil => rfl
  | cons c t ih =>
    by_cases hc : c = '\n'
    · subst hc
      rw [Text.crlf_lineEnd, first?_cons_of_none fun _ => Header.read?_cons_of_ne (by decide) _,
        first?_cons_of_none fun _ => Header.read?_cons_of_ne (by decide) _, ih,
        first?_cons_of_none fun _ => Header.read?_cons_of_ne (by decide) _]
      cases first? (some '\n') t <;> rfl
    · have hread := Header.read?_crlf (c :: t)
      rw [Text.crlf_cons hc] at hread ⊢
      rcases start_cases previous (c :: t) with ⟨h, r, hfree, hr⟩ | hnone
      · rw [hr] at hread
        rw [first?_of_read? hfree hread, first?_of_read? hfree hr]
        rfl
      · rw [first?_cons_of_none fun hfree => by rw [hread, hnone hfree]; rfl, ih,
          first?_cons_of_none hnone, Option.map_map, Option.map_map]
        refine congrArg (Option.map · _) (funext fun o => ?_)
        simp [crlf, behind, Text.crlf_cons hc]

end Opening

/-! ## Closing brackets -/

namespace Bracket

variable {opener closer : Char}

/-- A search for a bracket passes the carriage returns. -/
theorem closingFrom_crlf (hne : opener ≠ closer) (ho : opener ∉ ['\r', '\n'])
    (hc : closer ∉ ['\r', '\n']) {extra : Nat} {seen seen' : Text} (t : Text)
    (hseen : seen'.reverse = Text.crlf seen.reverse) :
    closingFrom opener closer extra seen' (Text.crlf t) =
      (closingFrom opener closer extra seen t).map fun x => (Text.crlf x.1, Text.crlf x.2) := by
  have hpass {x : Char} (hx : x ≠ '\n') {seen seen' : Text}
      (hseen : seen'.reverse = Text.crlf seen.reverse) :
      (x :: seen').reverse = Text.crlf (x :: seen).reverse := by
    rw [List.reverse_cons, List.reverse_cons, Text.crlf_append, hseen, Text.crlf_cons hx]
    rfl
  simp only [List.mem_cons, List.not_mem_nil, or_false, not_or] at ho hc
  induction t generalizing extra seen seen' with
  | nil => rfl
  | cons c t ih =>
    by_cases hn : c = '\n'
    · subst hn
      rw [Text.crlf_lineEnd, closingFrom_other (Ne.symm ho.1) (Ne.symm hc.1),
        closingFrom_other (Ne.symm ho.2) (Ne.symm hc.2),
        closingFrom_other (Ne.symm ho.2) (Ne.symm hc.2)]
      refine ih ?_
      rw [List.reverse_cons, List.reverse_cons, List.reverse_cons, Text.crlf_append, hseen,
        List.append_assoc]
      rfl
    rw [Text.crlf_cons hn]
    by_cases hco : c = opener
    · subst hco
      rw [closingFrom_opener, closingFrom_opener]
      exact ih (hpass hn hseen)
    by_cases hcc : c = closer
    · subst hcc
      cases extra with
      | zero =>
        rw [closingFrom_closer_zero hne, closingFrom_closer_zero hne, hseen]
        rfl
      | succ extra =>
        rw [closingFrom_closer_succ hne, closingFrom_closer_succ hne]
        exact ih (hpass hn hseen)
    · rw [closingFrom_other hco hcc, closingFrom_other hco hcc]
      exact ih (hpass hn hseen)

/-- The closing bracket is found where it was. -/
theorem closing_crlf (hne : opener ≠ closer) (ho : opener ∉ ['\r', '\n'])
    (hc : closer ∉ ['\r', '\n']) (t : Text) : closing opener closer (Text.crlf t) =
      (closing opener closer t).map fun x => (Text.crlf x.1, Text.crlf x.2) :=
  closingFrom_crlf hne ho hc t rfl

end Bracket

namespace Closing

/-- The closing with carriage returns. -/
def crlf (k : Closing) : Closing :=
  ⟨k.inside.crlf, k.tail.crlf, k.rest.crlf⟩

/-- A test is closed where it was, or it lacks the same bracket. -/
theorem of_crlf (t : Text) : of (Text.crlf t) = (of t).map crlf := by
  have hbraces (s : Text) : Bracket.closing '{' '}' s.crlf =
      (Bracket.closing '{' '}' s).map fun x => (x.1.crlf, x.2.crlf) :=
    Bracket.closing_crlf (by decide) (by decide) (by decide) s
  have hparentheses (s : Text) : Bracket.closing '(' ')' s.crlf =
      (Bracket.closing '(' ')' s).map fun x => (x.1.crlf, x.2.crlf) :=
    Bracket.closing_crlf (by decide) (by decide) (by decide) s
  rw [of, of, hbraces]
  cases Bracket.closing '{' '}' t with
  | none => rfl
  | some body =>
    simp only [Option.map_some, hparentheses]
    cases Bracket.closing '(' ')' body.2 <;> rfl

end Closing

/-! ## Pieces -/

namespace TestCase

/-- The test with carriage returns. -/
def crlf (c : TestCase) : TestCase :=
  ⟨c.header.crlf, c.body.crlf, c.tail.crlf⟩

theorem text_crlf (c : TestCase) : c.crlf.text = Text.crlf c.text := by
  have hcloser : Text.crlf [')'] = [')'] := by decide
  simp [text, crlf, Header.text_crlf, hcloser]

theorem ofClosing_crlf (h : Header) (k : Closing) :
    ofClosing h.crlf k.crlf = (ofClosing h k).crlf := by
  have hcloser : Text.crlf ['\x7d'] = ['\x7d'] := by decide
  simp [ofClosing, crlf, Closing.crlf, Text.crlf_cons, hcloser]

/-- A test is limited when it was. -/
theorem isLimited_crlf (c : TestCase) : c.crlf.isLimited = c.isLimited := by
  have hname := Text.mentions_crlf (w := Limit.name) (by decide) (by decide) (by decide)
  have hvalue := Text.mentions_crlf (w := Limit.constructor) (by decide) (by decide) (by decide)
  have hset (t : Text) : Limit.isSetIn (Text.crlf t) = Limit.isSetIn t := by
    simp [Limit.isSetIn, Limit.marks, hname, hvalue]
  rw [isLimited, isLimited, crlf, Header.text_crlf, hset, hset]

end TestCase

namespace Piece

/-- The piece with carriage returns. -/
def crlf : Piece → Piece
  | plain t => plain t.crlf
  | stray h u => stray h.crlf u
  | test c => test c.crlf

theorem text_crlf (p : Piece) : p.crlf.text = Text.crlf p.text := by
  have hbrace : Text.crlf ['\x7b'] = ['\x7b'] := by decide
  cases p with
  | plain t => rfl
  | stray h u => simp [crlf, text, Header.text_crlf, hbrace]
  | test c => exact c.text_crlf

end Piece

theorem outlined_crlf (t : Text) : Outlined (Text.crlf t) ((outline t).map Piece.crlf) := by
  have hfirst {t : Text} {o : Opening} (h : Opening.first? none t = some o) :
      Opening.first? none (Text.crlf t) = some o.crlf := by
    rw [Opening.first?_crlf, h]
    rfl
  fun_induction outline t with
  | case1 t h =>
    refine .plain ?_
    rw [Opening.first?_crlf, h]
    rfl
  | case2 t o h u hc ih =>
    have hc' : Closing.of o.crlf.rest = .error u := by
      rw [Opening.crlf, Closing.of_crlf, hc]
      rfl
    have := Outlined.stray (Opening.leads_of_first? (hfirst h)) hc' ih
    rwa [← Opening.text, Opening.text_of_first? (hfirst h)] at this
  | case3 t o h k hc ih =>
    have hc' : Closing.of o.crlf.rest = .ok k.crlf := by
      rw [Opening.crlf, Closing.of_crlf, hc]
      rfl
    have hclosed := TestCase.closed_ofClosing o.crlf.header hc'
    have : Outlined (o.crlf.before ++ (TestCase.ofClosing o.crlf.header k.crlf).text ++ k.crlf.rest)
        _ := .test (Opening.leads_of_first? (hfirst h)) hclosed ih
    rw [List.append_assoc, TestCase.text_ofClosing, ← (Closing.of_eq_ok_iff.1 hc').1,
      ← List.append_assoc, ← Opening.text, Opening.text_of_first? (hfirst h)] at this
    rw [List.map_cons, List.map_cons, Piece.crlf, Piece.crlf, ← TestCase.ofClosing_crlf]
    exact this

/-- **Carriage returns leave the outline as it is.** The pieces of the new source are the old ones
with carriage returns. -/
theorem outline_crlf (t : Text) : outline (Text.crlf t) = (outline t).map Piece.crlf :=
  (outlined_crlf t).outline_eq

end TimeLimit
