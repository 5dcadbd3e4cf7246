import TimeLimit.Proofs.Cut
import TimeLimit.Proofs.Lexeme

/-!
# Where a tail of lexemes is cut

A tail is cut line by line, and on each line quotes open and close as if the line stood alone; its
lexemes are read from the front, across lines. Both agree on a literal that is plain
(`Literal.IsPlain`): what is cut off a line does not start before the end of its lexemes
(`Lexeme.splitComment_textOf`). So a tail is cut behind its last lexeme that is more than a blank or
a comment, when the literals from some line start on are plain or no two slashes follow there
(`Lexeme.exists_cut_of_lexed`).
-/

namespace TimeLimit

open Tail

/-! ## Lines that are read past -/

namespace Tail

/-- No comment starts on a text that is read with the first quotes open, whatever follows, and
behind it the second quotes are open. -/
def Passes (quote : Option Char) (t : Text) (quote' : Option Char) : Prop :=
  ∀ rest, splitComment quote (t ++ rest) =
    (t ++ (splitComment quote' rest).1, (splitComment quote' rest).2)

namespace Passes

theorem trans {quote quote' quote'' : Option Char} {t u : Text} (ht : Passes quote t quote')
    (hu : Passes quote' u quote'') : Passes quote (t ++ u) quote'' := by
  intro rest
  rw [List.append_assoc, ht, hu, List.append_assoc]

/-- A quote is opened. -/
theorem opens {q : Char} (h : Literal.isQuote q = true) : Passes none [q] (some q) := by
  intro rest
  have hslash : ¬ (q = '/' ∧ rest.head? = some '/') :=
    fun hs => Literal.ne_of_isQuote h (by decide) hs.1
  rw [List.singleton_append, splitComment, if_neg hslash, if_pos (Literal.isQuote_iff.1 h)]
  rfl

/-- Between quotes, a character other than the backslash is passed; it closes them, or not. -/
theorem inside {q c : Char} (h : c ≠ '\\') :
    Passes (some q) [c] (if c = q then none else some q) := by
  intro rest
  exact splitComment_quoted h rest

/-- Between quotes, a backslash and the character that it takes are passed. -/
theorem escape (q c : Char) : Passes (some q) ['\\', c] (some q) := by
  intro rest
  rfl

/-- A character that is neither quote nor slash is passed outside quotes. -/
theorem outside {c : Char} (hslash : c ≠ '/') (hquote : Literal.isQuote c = false) :
    Passes none [c] none := by
  intro rest
  have hq : ¬ (c = '\x27' ∨ c = '\x22') := by simp [← Literal.isQuote_iff, hquote]
  rw [List.singleton_append, splitComment, if_neg fun hs => hslash hs.1, if_neg hq]
  rfl

/-- A content and a closing quote are passed in an ordinary literal. -/
theorem of_readContent? {q : Char} (hq : q ≠ '\\') {escaped : Bool} {t content rest : Text}
    (h : Literal.readContent? false false q escaped t = some (content, rest)) :
    Passes (some q) ((if escaped then ['\\'] else []) ++ (content ++ [q])) none := by
  fun_induction Literal.readContent? false false q escaped t generalizing content with
  | case1 => cases h
  | case2 => cases h
  | case3 c t hline ih =>
    obtain ⟨⟨content, rest⟩, hread, he⟩ := Option.map_eq_some_iff.1 h
    cases he
    exact (escape q c).trans (ih hread)
  | case4 => cases h
  | case5 c t hclose hline ih =>
    obtain ⟨⟨content, rest⟩, hread, he⟩ := Option.map_eq_some_iff.1 h
    cases he
    have ih := ih hread
    by_cases hc : c = '\\'
    · rw [hc] at ih ⊢
      exact ih
    · have hopen : c ≠ q := by
        rintro rfl
        exact absurd hclose (by simp [Literal.delimiterOf, Text.after?])
      have hpass := inside (q := q) hc
      rw [if_neg hopen] at hpass
      rw [beq_eq_false_iff_ne.2 hc] at ih
      exact hpass.trans ih
  | case6 c t rest' hclose =>
    cases h
    have h := inside (q := q) hq
    rwa [if_pos rfl] at h

end Passes

end Tail

namespace Literal

/-- A literal that can be read line by line: an ordinary one, or one whose content stands just as
well in an ordinary one. That content ends no line, its own quote stands in it only behind a
backslash that takes it, and no backslash at its end takes the closing quote. -/
def IsPlain (l : Literal) : Prop :=
  (l.raw = false ∧ l.triple = false) ∨
    readContent? false false l.quote false (l.content ++ [l.quote]) = some (l.content, [])

instance (l : Literal) : Decidable l.IsPlain :=
  inferInstanceAs (Decidable (_ ∨ _))

variable {inName : Bool} {l : Literal} {rest : Text}

/-- The content of a plain literal is read like that of an ordinary one. -/
theorem Stands.readContent?_of_isPlain (h : l.Stands inName rest) (hplain : l.IsPlain) :
    readContent? false false l.quote false (l.content ++ [l.quote]) = some (l.content, []) := by
  rcases hplain with ⟨hraw, htriple⟩ | hplain
  · have hread := readContent?_of_rest h.content []
    rw [hraw, htriple, List.append_nil] at hread
    exact hread
  · exact hplain

/-- A plain literal ends no line. -/
theorem Stands.not_mem_text (h : l.Stands inName rest) (hplain : l.IsPlain) : '\n' ∉ l.text := by
  have hcontent := not_mem_of_readContent? (h.readContent?_of_isPlain hplain)
  have hdelimiter : '\n' ∉ delimiterOf l.triple l.quote := by
    have hne := ne_of_isQuote h.quote (x := '\n') (by decide)
    cases l.triple <;> simp [delimiterOf, hne.symm]
  have hraw : '\n' ∉ if l.raw then ['r'] else [] := by cases l.raw <;> decide
  simp only [text, List.mem_append, not_or]
  exact ⟨⟨⟨hraw, hdelimiter⟩, hcontent⟩, hdelimiter⟩

/-- No comment starts on a plain literal. -/
theorem Stands.passes_text (h : l.Stands inName rest) (hplain : l.IsPlain) :
    Passes none l.text none := by
  have hescape : l.quote ≠ '\\' := ne_of_isQuote h.quote (by decide)
  have hopens := Passes.opens h.quote
  have hcloses := Passes.inside (q := l.quote) hescape
  rw [if_pos rfl] at hcloses
  have hraw : Passes none (if l.raw then ['r'] else []) none := by
    cases l.raw with
    | true => exact .outside (by decide) (by decide)
    | false => exact fun rest => rfl
  have hcontent := Passes.of_readContent? hescape (h.readContent?_of_isPlain hplain)
  have hempty := hopens.trans hcloses
  rw [text]
  cases l.triple with
  | false => simpa [delimiterOf] using hraw.trans (hopens.trans hcontent)
  | true =>
    simpa [delimiterOf] using hraw.trans (hempty.trans (hopens.trans (hcontent.trans hempty)))

end Literal

namespace Lexeme

/-- A lexeme other than a literal that is not plain. -/
def IsPlain : Lexeme → Prop
  | literal l => l.IsPlain
  | _ => True

instance : (l : Lexeme) → Decidable l.IsPlain
  | literal l => inferInstanceAs (Decidable l.IsPlain)
  | code _ | comment _ => isTrue trivial

/-! ## Lexemes of one line -/

/-- Lexemes on one line: none of them is a comment, and their literals are plain. -/
structure OnLine (ls : List Lexeme) : Prop where
  no_lineEnd : code '\n' ∉ ls
  no_comment : ∀ t, comment t ∉ ls
  plain : ∀ l ∈ ls, l.IsPlain

theorem OnLine.nil : OnLine [] :=
  ⟨List.not_mem_nil, fun _ => List.not_mem_nil, nofun⟩

theorem OnLine.tail {l : Lexeme} {ls : List Lexeme} (h : OnLine (l :: ls)) : OnLine ls where
  no_lineEnd hc := h.no_lineEnd (List.mem_cons_of_mem l hc)
  no_comment t ht := h.no_comment t (List.mem_cons_of_mem l ht)
  plain k hk := h.plain k (List.mem_cons_of_mem l hk)

theorem OnLine.concat {ls : List Lexeme} {c : Char} (h : OnLine ls) (hc : c ≠ '\n') :
    OnLine (ls ++ [code c]) where
  no_lineEnd := by simp [h.no_lineEnd, hc.symm]
  no_comment := by simp [h.no_comment]
  plain := by
    intro l hl
    rcases List.mem_append.1 hl with hl | hl
    · exact h.plain l hl
    · rw [List.mem_singleton.1 hl]
      trivial

variable {inName : Bool} {ls back : List Lexeme} {rest : Text}

/-- A line is not cut before the end of its lexemes. -/
theorem splitComment_textOf (h : Lexed inName ls rest) (hline : OnLine ls) :
    splitComment none (textOf ls ++ rest) =
      (textOf ls ++ (splitComment none rest).1, (splitComment none rest).2) := by
  induction h with
  | nil => rfl
  | @cons inName l ls rest hl hs ih =>
    have ih := ih hline.tail
    rw [textOf_cons, List.append_assoc]
    cases hl with
    | @code c _ hcomment hquote hraw =>
      have hq : ¬ (c = '\x27' ∨ c = '\x22') := by simp [← Literal.isQuote_iff, hquote]
      rw [text, List.singleton_append, splitComment, if_neg hcomment, if_neg hq, ih]
      rfl
    | @literal l _ hl =>
      rw [text, hl.passes_text (hline.plain _ List.mem_cons_self), ih, List.append_assoc]
    | comment => exact absurd List.mem_cons_self (hline.no_comment _)

theorem noComment_textOf (h : Lexed inName ls rest) (hline : OnLine ls) :
    NoComment (textOf ls) := by
  have hcode := noComment_splitComment (textOf ls ++ rest)
  rw [splitComment_textOf h hline] at hcode
  exact hcode.of_append

/-- Lexemes on one line end no line. -/
theorem not_mem_textOf (h : Lexed inName ls rest) (hline : OnLine ls) : '\n' ∉ textOf ls := by
  induction h with
  | nil => exact List.not_mem_nil
  | @cons inName l ls rest hl hs ih =>
    rw [textOf_cons, List.mem_append, not_or]
    refine ⟨?_, ih hline.tail⟩
    cases hl with
    | code =>
      rintro hc
      rw [text, List.mem_singleton] at hc
      exact hline.no_lineEnd (hc ▸ List.mem_cons_self)
    | literal hl => exact hl.not_mem_text (hline.plain _ List.mem_cons_self)
    | comment => exact absurd List.mem_cons_self (hline.no_comment _)

/-- A comment behind lexemes of one line is the first of that line. -/
theorem firstComment_textOf {t : Text} (h : Lexed inName (ls ++ comment t :: back) rest)
    (hline : OnLine ls) : FirstComment (textOf ls) t := by
  obtain ⟨hls, hcomment⟩ := lexed_append_iff.1 h
  cases hcomment with
  | cons hstands =>
    cases hstands with
    | comment hstart =>
      obtain ⟨u, rfl⟩ := hstart
      have hsplit := splitComment_textOf hls hline
      rw [textOf_cons, text, List.append_assoc] at hsplit
      have hfirst := firstComment_of_splitComment (by
        rw [hsplit]
        exact List.cons_ne_nil _ _)
      rw [hsplit] at hfirst
      have hcode : textOf ls ++ [] = textOf ls := List.append_nil _
      exact (hcode ▸ hfirst).of_append ⟨u, rfl⟩

/-! ## The end of a tail -/

/-- Tells whether a lexeme is more than a blank or a comment. -/
def isSolid : Lexeme → Bool
  | code c => !Text.isBlank c
  | literal _ => true
  | comment _ => false

/-- Behind a comment stands the end of its line, if there is anything. -/
theorem Lexed.behind_comment {t : Text} (h : Lexed inName (comment t :: ls) []) :
    ls = [] ∨ ∃ ls', ls = code '\n' :: ls' := by
  cases h with
  | cons hcomment hs =>
    cases hcomment with
    | comment _ _ hrest =>
      cases hs with
      | nil => exact .inl rfl
      | @cons _ l ls _ hl hs =>
        right
        rw [List.append_nil, textOf_cons] at hrest
        obtain ⟨r, hr⟩ := hrest.resolve_left fun hnil =>
          hl.text_ne_nil (List.append_eq_nil_iff.1 hnil).1
        refine ⟨ls, congrArg (· :: ls) ?_⟩
        cases hl with
        | code => rw [(List.cons.inj hr).1]
        | literal hl =>
          obtain ⟨c, u, hcu, hc⟩ := hl.exists_cons (x := '\n') (by decide) (by decide)
          rw [text, hcu] at hr
          exact absurd (List.cons.inj hr).1 hc
        | comment hstart =>
          obtain ⟨u, rfl⟩ := hstart
          exact absurd (List.cons.inj hr).1 (by decide)

/-- Blanks and comments behind the lexemes of a line. -/
theorem trailing_textOf (h : Lexed inName (ls ++ back) []) (hline : OnLine ls)
    (hback : ∀ l ∈ back, l.isSolid = false) : Trailing (textOf ls) (textOf back) := by
  induction back generalizing ls inName with
  | nil => exact .nil _
  | cons l back ih =>
    have hl := hback l List.mem_cons_self
    have hback' (k : Lexeme) (hk : k ∈ back) := hback k (List.mem_cons_of_mem l hk)
    have hbehind : Trailing [] (textOf back) := by
      rw [List.append_cons] at h
      exact ih (lexed_append_iff.1 h).2 .nil hback'
    rw [textOf_cons]
    cases l with
    | code c =>
      have hblank : Text.isBlank c = true := by simpa [isSolid] using hl
      by_cases hc : c = '\n'
      · rw [hc]
        exact .lineEnd hbehind
      · refine .blank hblank hc ?_
        have hcode : textOf ls ++ [c] = textOf (ls ++ [code c]) := by simp [text]
        rw [hcode]
        rw [List.append_cons] at h
        exact ih h (hline.concat hc) hback'
    | literal => cases hl
    | comment t =>
      have hcomment := (lexed_append_iff.1 h).2
      have hnext := hcomment.behind_comment
      cases hcomment with
      | cons hstands =>
        cases hstands with
        | comment _ hc hrest =>
          rw [List.append_nil] at hrest
          refine .comment (firstComment_textOf h hline) hc hrest ?_
          rcases hnext with rfl | ⟨ls', rfl⟩
          · exact .nil _
          · exact .lineEnd hbehind.of_lineEnd

/-- A list is cut behind the last member that a test holds of. -/
theorem exists_cut_behind {α : Type} (p : α → Bool) (xs : List α) :
    ∃ front back, xs = front ++ back ∧ (front = [] ∨ ∃ f x, front = f ++ [x] ∧ p x = true) ∧
      ∀ x ∈ back, p x = false := by
  induction xs with
  | nil => exact ⟨[], [], rfl, .inl rfl, nofun⟩
  | cons x xs ih =>
    obtain ⟨front, back, rfl, hfront, hback⟩ := ih
    rcases hfront with rfl | ⟨f, y, rfl, hy⟩
    · cases hx : p x with
      | true => exact ⟨[x], back, rfl, .inr ⟨[], x, rfl, hx⟩, hback⟩
      | false =>
        refine ⟨[], x :: back, rfl, .inl rfl, ?_⟩
        rintro y (_ | ⟨_, hy⟩)
        · exact hx
        · exact hback y hy
    · exact ⟨x :: (f ++ [y]), back, rfl, .inr ⟨x :: f, y, rfl, hy⟩, hback⟩

/-- A solid lexeme does not end in a blank. -/
theorem Stands.isBlank_getLast {l : Lexeme} (h : Stands inName l rest) (hl : l.isSolid = true) :
    ∃ t c, l.text = t ++ [c] ∧ Text.isBlank c = false := by
  cases h with
  | @code c => exact ⟨[], c, rfl, by simpa [isSolid] using hl⟩
  | @literal l _ hl =>
    have hblank : Text.isBlank l.quote = false := by
      rcases Literal.isQuote_iff.1 hl.quote with hq | hq <;> rw [hq] <;> decide
    obtain ⟨t, ht⟩ : ∃ t, Literal.delimiterOf l.triple l.quote = t ++ [l.quote] := by
      cases l.triple with
      | false => exact ⟨[], rfl⟩
      | true => exact ⟨[l.quote, l.quote], rfl⟩
    rw [text, Literal.text, ht, ← List.append_assoc]
    exact ⟨_, _, rfl, hblank⟩
  | comment => cases hl

/-- Between the last line end and the last solid lexeme no comment stands. -/
theorem no_comment_before_solid {l : Lexeme} (h : Lexed inName (ls ++ l :: back) [])
    (hl : l.isSolid = true) (hline : code '\n' ∉ ls) (t : Text) : comment t ∉ ls := by
  intro hmem
  obtain ⟨front, ls', rfl⟩ := List.append_of_mem hmem
  rw [List.append_assoc, lexed_append_iff] at h
  rcases h.2.behind_comment with hnil | ⟨ls'', hcons⟩
  · exact absurd hnil (by simp)
  · cases ls' with
    | nil =>
      obtain ⟨rfl, -⟩ := List.cons.inj hcons
      exact absurd hl (by decide)
    | cons k ls' =>
      obtain ⟨rfl, -⟩ := List.cons.inj hcons
      exact hline (by simp)

/-- Blanks and comments alone are cut in front. -/
theorem cut_blank (h : Lexed inName back []) (hback : ∀ l ∈ back, l.isSolid = false) :
    Cut (textOf back) [] (textOf back) where
  append := rfl
  not_blank := nofun
  last_line := ⟨[], [], rfl, ⟨.inl rfl, List.not_mem_nil⟩, noComment_nil,
    @trailing_textOf inName [] back h .nil hback⟩

/-- What ends in a solid lexeme does not end in a blank. -/
theorem isBlank_getLast_textOf {l : Lexeme} {c : Char} (h : Lexed inName (ls ++ l :: back) rest)
    (hl : l.isSolid = true) (hc : (textOf (ls ++ [l])).getLast? = some c) :
    Text.isBlank c = false := by
  cases (lexed_append_iff.1 h).2 with
  | cons hstands =>
    obtain ⟨t, x, ht, hx⟩ := hstands.isBlank_getLast hl
    rw [textOf_append, textOf_cons, textOf_nil, List.append_nil, ht, ← List.append_assoc,
      List.getLast?_concat] at hc
    exact Option.some.inj hc ▸ hx

/-- Lexemes up to the start of a line. -/
def EndsLine (ls : List Lexeme) : Prop :=
  ls = [] ∨ ∃ f, ls = f ++ [code '\n']

theorem EndsLine.textOf (h : EndsLine ls) : textOf ls = [] ∨ ∃ t, textOf ls = t ++ ['\n'] := by
  rcases h with rfl | ⟨f, rfl⟩
  · exact .inl rfl
  · exact .inr ⟨Lexeme.textOf f, textOf_append f [code '\n']⟩

/-- The cut behind the last solid lexeme, when the lexemes of its line are plain. -/
theorem cut_behind_solid {front line : List Lexeme} {l : Lexeme}
    (h : Lexed inName (front ++ (line ++ l :: back)) []) (hfront : EndsLine front)
    (hline : OnLine (line ++ [l])) (hl : l.isSolid = true) (hback : ∀ l ∈ back, l.isSolid = false) :
    Cut (textOf (front ++ (line ++ l :: back))) (textOf (front ++ (line ++ [l])))
      (textOf back) := by
  have hbehind := (lexed_append_iff.1 h).2
  rw [List.append_cons] at hbehind
  have hlexed := (lexed_append_iff.1 hbehind).1
  refine ⟨by simp, ?_, textOf front, textOf (line ++ [l]), textOf_append _ _,
    ⟨hfront.textOf, not_mem_textOf hlexed hline⟩, noComment_textOf hlexed hline,
    trailing_textOf hbehind hline hback⟩
  intro c hc
  rw [← List.append_assoc] at h hc
  exact isBlank_getLast_textOf h hl hc

/-- Blanks and comments without two slashes are blanks. -/
theorem isBlank_of_mem_textOf (h : Lexed inName ls rest) (hls : ∀ l ∈ ls, l.isSolid = false)
    (hslashes : ¬ ['/', '/'] <:+: textOf ls) : ∀ c ∈ textOf ls, Text.isBlank c = true := by
  induction h with
  | nil => exact nofun
  | @cons inName l ls rest hl hs ih =>
    rw [textOf_cons] at hslashes ⊢
    have hsolid := hls l List.mem_cons_self
    have hrest := ih (fun k hk => hls k (List.mem_cons_of_mem l hk)) fun hs =>
      hslashes (hs.trans (List.suffix_append _ _).isInfix)
    cases hl with
    | @code c =>
      rintro x (_ | ⟨_, hx⟩)
      · simpa [isSolid] using hsolid
      · exact hrest x hx
    | literal => cases hsolid
    | comment hstart =>
      exact absurd (hstart.trans (List.prefix_append _ _)).isInfix hslashes

/-- The cut behind the last solid lexeme, when no two slashes stand behind some line start. -/
theorem cut_without_slashes {front mid : List Lexeme} {l : Lexeme}
    (h : Lexed inName (front ++ (mid ++ l :: back)) []) (hfront : EndsLine front)
    (hslashes : ¬ ['/', '/'] <:+: textOf (mid ++ l :: back)) (hl : l.isSolid = true)
    (hback : ∀ l ∈ back, l.isSolid = false) :
    Cut (textOf (front ++ (mid ++ l :: back))) (textOf (front ++ (mid ++ [l]))) (textOf back) := by
  rw [List.append_cons, textOf_append] at hslashes
  obtain ⟨lines, line, hlines, hlast⟩ := exists_lastLine (textOf (mid ++ [l]))
  refine ⟨by simp, ?_, textOf front ++ lines, line, ?_, ⟨?_, hlast.not_mem⟩, ?_, .of_isBlank ?_⟩
  · intro c hc
    rw [← List.append_assoc] at h hc
    exact isBlank_getLast_textOf h hl hc
  · rw [textOf_append, hlines, List.append_assoc]
  · rcases hlast.front_ends with rfl | ⟨f, rfl⟩
    · rw [List.append_nil]
      exact hfront.textOf
    · exact .inr ⟨textOf front ++ f, (List.append_assoc _ f _).symm⟩
  · rintro a b rfl ⟨-, hslash⟩
    refine hslashes (hslash.isInfix.trans ?_)
    rw [hlines]
    exact ⟨lines ++ a, textOf back, by simp⟩
  · refine isBlank_of_mem_textOf (lexed_append_iff.1 (lexed_append_iff.1 h).2).2.tail
      (fun l => hback l) fun hs => hslashes ?_
    exact hs.trans (List.suffix_append _ _).isInfix

/-- What stands between the last line end and the last solid lexeme is on one line. -/
theorem onLine_of_lexed {line : List Lexeme} {l : Lexeme}
    (h : Lexed inName (line ++ l :: back) []) (hl : l.isSolid = true) (hline : code '\n' ∉ line)
    (hplain : ∀ k ∈ line ++ [l], k.IsPlain) : OnLine (line ++ [l]) where
  no_lineEnd := by
    rw [List.mem_append, List.mem_singleton, not_or]
    refine ⟨hline, ?_⟩
    rintro rfl
    exact absurd hl (by decide)
  no_comment := by
    intro t ht
    rcases List.mem_append.1 ht with ht | ht
    · exact no_comment_before_solid h hl hline t ht
    · rw [← List.mem_singleton.1 ht] at hl
      cases hl
  plain := hplain

/-- A tail is cut behind its last solid lexeme. The lexemes that stand before the start of a line
may be any; the others must be plain, or there must be no two slashes among them. -/
theorem exists_cut_of_lexed {earlier later : List Lexeme} (h : Lexed inName (earlier ++ later) [])
    (hline : EndsLine earlier) (hsolid : earlier = [] ∨ ∃ l ∈ later, l.isSolid = true)
    (hplain : (∀ l ∈ later, l.IsPlain) ∨ ¬ ['/', '/'] <:+: textOf later) :
    ∃ front back, earlier ++ later = front ++ back ∧
      Cut (textOf (earlier ++ later)) (textOf front) (textOf back) ∧
      (∀ t, front.getLast? ≠ some (comment t)) ∧ ∀ l ∈ back, l.isSolid = false := by
  obtain ⟨mid, back, rfl, hmid, hback⟩ := exists_cut_behind isSolid later
  rcases hmid with rfl | ⟨mid, l, rfl, hl⟩
  · -- no solid lexeme, so nothing stands before the line
    rcases hsolid with rfl | ⟨l, hmem, hl⟩
    · exact ⟨[], back, rfl, cut_blank h hback, nofun, hback⟩
    · rw [hback l hmem] at hl
      cases hl
  · rw [← List.append_cons] at h hplain ⊢
    refine ⟨earlier ++ (mid ++ [l]), back, by simp, ?_, fun t ht => ?_, hback⟩
    · rcases hplain with hplain | hslashes
      · obtain ⟨lines, line, rfl, hlines, hcode⟩ := exists_cut_behind (· == code '\n') mid
        have hfront : EndsLine (earlier ++ lines) := by
          rcases hlines with rfl | ⟨f, x, rfl, hx⟩
          · rw [List.append_nil]
            exact hline
          · rw [eq_of_beq hx]
            exact .inr ⟨earlier ++ f, (List.append_assoc earlier f _).symm⟩
        have hkept : earlier ++ (lines ++ line ++ [l]) =
            earlier ++ lines ++ (line ++ [l]) := by simp
        have htail : earlier ++ (lines ++ line ++ l :: back) =
            earlier ++ lines ++ (line ++ l :: back) := by simp
        rw [htail] at h ⊢
        rw [hkept]
        refine cut_behind_solid h hfront
          (onLine_of_lexed (lexed_append_iff.1 h).2 hl ?_ ?_) hl hback
        · exact fun hc => absurd (hcode _ hc) (by decide)
        · intro k hk
          refine hplain k ?_
          rw [List.append_assoc, List.append_cons]
          exact List.mem_append_right lines (List.mem_append_left back hk)
      · exact cut_without_slashes h hline hslashes hl hback
    · rw [← List.append_assoc, List.getLast?_concat] at ht
      rw [Option.some.inj ht] at hl
      cases hl

end Lexeme

end TimeLimit
