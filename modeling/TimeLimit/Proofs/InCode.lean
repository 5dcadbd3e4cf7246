import Mathlib
import TimeLimit.Proofs.LexedCut
import TimeLimit.Proofs.Tail

/-!
# A time limit among lexemes

A time limit goes between two lexemes of a tail, not behind a comment, and it is read there as code;
the lexemes around it are those of the tail (`limit_stands_in_code`). This holds when the literals
from some line start on are plain, and also when no two slashes follow there. It does not hold of
all tails: a raw literal that ends in a backslash, a literal of several lines, or one with its own
quote inside three quotes lets the limit fall into a comment or into a literal
(`limit_lands_outside_code`).
-/

namespace TimeLimit

open Tail

namespace Lexeme

variable {inName : Bool} {ls : List Lexeme} {rest : Text}

/-! ## The new argument -/

/-- A lexeme looks at no more than the next character. -/
theorem Stands.of_head {l : Lexeme} {rest' : Text} (h : Stands inName l rest)
    (hrest : rest'.head? = rest.head?) : Stands inName l rest' := by
  cases h with
  | code hcomment hquote hraw =>
    rw [← hrest] at hcomment hraw
    exact .code hcomment hquote hraw
  | literal h =>
    have hempty := h.empty
    rw [← hrest] at hempty
    exact .literal ⟨h.quote, h.raw, Literal.readContent?_of_rest h.content rest', hempty⟩
  | comment hstart hline hnext =>
    refine .comment hstart hline ?_
    rcases hnext with rfl | ⟨r, rfl⟩
    · exact .inl (List.head?_eq_none_iff.1 hrest)
    · exact .inr (List.head?_eq_some_iff.1 hrest)

/-- A lexeme other than a comment can stand in front of any character with which neither a literal
nor a comment starts. -/
theorem Stands.before_plain {l : Lexeme} {c : Char} (h : Stands inName l rest)
    (hl : ∀ t, l ≠ .comment t) (hslash : c ≠ '/') (hquote : Literal.isQuote c = false) (t : Text) :
    Stands inName l (c :: t) := by
  cases h with
  | code _ hc =>
    refine .code (fun hs => hslash (Option.some.inj hs.2)) hc ?_
    rintro - - q hq
    rw [← Option.some.inj hq]
    exact hquote
  | literal h =>
    refine .literal ⟨h.quote, h.raw, Literal.readContent?_of_rest h.content _, ?_⟩
    rintro - - hq
    exact Literal.ne_of_isQuote h.quote hquote (Option.some.inj hq).symm
  | comment => exact absurd rfl (hl _)

theorem Lexed.before_plain {c : Char} (h : Lexed inName ls rest)
    (hl : ∀ t, ls.getLast? ≠ some (comment t)) (hslash : c ≠ '/')
    (hquote : Literal.isQuote c = false) (t : Text) : Lexed inName ls (c :: t) := by
  induction h with
  | nil => exact .nil
  | @cons inName l ls rest hstands hs ih =>
    cases hs with
    | nil =>
      refine .cons (hstands.before_plain (fun t ht => hl t ?_) hslash hquote t) .nil
      rw [ht]
      rfl
    | @cons _ k ls _ hk hs =>
      rw [List.getLast?_cons_cons] at hl
      refine .cons (hstands.of_head ?_) (ih hl)
      obtain ⟨x, u, hx⟩ := List.exists_cons_of_ne_nil hk.text_ne_nil
      rw [textOf_cons, hx]
      rfl

/-- Whether a blank or a comment stands behind a name does not matter. -/
theorem Lexed.of_not_solid {inName' : Bool} (h : Lexed inName ls rest)
    (hls : ∀ l ∈ ls, l.isSolid = false) : Lexed inName' ls rest := by
  cases h with
  | nil => exact .nil
  | @cons _ l ls _ hstands hs =>
    refine .cons ?_ hs
    have hl := hls l List.mem_cons_self
    cases hstands with
    | code hcomment hquote =>
      refine .code hcomment hquote ?_
      rintro rfl
      exact absurd hl (by decide)
    | literal => cases hl
    | comment hstart hline hrest => exact .comment hstart hline hrest

/-- A text without quotes and slashes is code. -/
theorem lexed_map_code {t : Text} (ht : ∀ c ∈ t, c ≠ '/' ∧ Literal.isQuote c = false)
    (hrest : ∀ q, rest.head? = some q → Literal.isQuote q = false) :
    Lexed inName (t.map code) rest := by
  induction t generalizing inName with
  | nil => exact .nil
  | cons c t ih =>
    obtain ⟨hslash, hquote⟩ := ht c List.mem_cons_self
    have ht' (x : Char) (hx : x ∈ t) := ht x (List.mem_cons_of_mem c hx)
    refine .cons (.code (fun hs => hslash hs.1) hquote ?_) (ih ht')
    rintro - - q hq
    cases t with
    | nil => exact hrest q hq
    | cons x t => exact Option.some.inj hq ▸ (ht' x List.mem_cons_self).2

@[simp] theorem textOf_map_code (t : Text) : textOf (t.map code) = t := by
  induction t with
  | nil => rfl
  | cons c t ih =>
    rw [List.map_cons, textOf_cons, ih]
    rfl

/-- Blanks and comments do not start with a quote. -/
theorem isQuote_head_of_not_solid (h : Lexed inName ls []) (hls : ∀ l ∈ ls, l.isSolid = false)
    {q : Char} (hq : (textOf ls).head? = some q) : Literal.isQuote q = false := by
  cases h with
  | nil => cases hq
  | @cons _ l ls _ hstands hs =>
    have hl := hls l List.mem_cons_self
    rw [textOf_cons] at hq
    cases hstands with
    | code _ hquote => exact Option.some.inj hq ▸ hquote
    | literal => cases hl
    | comment hstart =>
      obtain ⟨u, rfl⟩ := hstart
      exact Option.some.inj hq ▸ by decide

/-- A time limit behind lexemes is read as code, and all else as it was. -/
theorem lex_insertion {front back : List Lexeme} (h : Lexed false (front ++ back) [])
    (hfront : ∀ t, front.getLast? ≠ some (comment t)) (hback : ∀ l ∈ back, l.isSolid = false)
    (kept : Text) (seconds : UInt64) :
    lex (textOf front ++ insertion kept seconds ++ textOf back) =
      some (front ++ (insertion kept seconds).map code ++ back) := by
  have hplain (c : Char) (hc : c ∈ insertion kept seconds) :
      c ≠ '/' ∧ Literal.isQuote c = false := by
    refine ⟨?_, Bool.eq_false_iff.2 fun hquote => ?_⟩
    · rintro rfl
      exact not_mem_insertion (by decide) (by decide) kept seconds hc
    · rcases Literal.isQuote_iff.1 hquote with rfl | rfl
      · exact not_mem_insertion (by decide) (by decide) kept seconds hc
      · exact not_mem_insertion (by decide) (by decide) kept seconds hc
  obtain ⟨c, t, hinsertion⟩ : ∃ c t, insertion kept seconds = c :: t := by
    unfold insertion
    split <;> exact ⟨_, _, rfl⟩
  obtain ⟨hfrontLexed, hbackLexed⟩ := lexed_append_iff.1 h
  have hcode : Lexed (nameBehind false front) ((insertion kept seconds).map code)
      (textOf back ++ []) := by
    refine lexed_map_code hplain fun q hq => ?_
    rw [List.append_nil] at hq
    exact isQuote_head_of_not_solid hbackLexed hback hq
  have hbefore : Lexed false front (insertion kept seconds ++ (textOf back ++ [])) := by
    obtain ⟨hslash, hquote⟩ := hplain c (hinsertion ▸ List.mem_cons_self)
    rw [hinsertion]
    exact hfrontLexed.before_plain hfront hslash hquote _
  rw [lex_eq_some_iff, textOf_append, textOf_append, textOf_map_code]
  refine ⟨rfl, lexed_append_iff.2 ⟨lexed_append_iff.2 ⟨?_, hcode⟩, hbackLexed.of_not_solid hback⟩⟩
  rw [textOf_map_code]
  exact hbefore

/-! ## The place of a limit -/

/-- Tells whether a lexeme is a comment. -/
def isComment : Lexeme → Bool
  | comment _ => true
  | _ => false

/-- The place behind the kept part of a text lies in code: it is between two of the text's lexemes,
or at an end of them, and not behind a comment. -/
def InCode (ls : List Lexeme) (kept : Text) : Prop :=
  ∃ front back, ls = front ++ back ∧ textOf front = kept ∧
    ∀ l ∈ front.getLast?, l.isComment = false

theorem inCode_iff {kept : Text} :
    InCode ls kept ↔ ∃ n ∈ List.range (ls.length + 1),
      textOf (ls.take n) = kept ∧ ∀ l ∈ (ls.take n).getLast?, l.isComment = false := by
  constructor
  · rintro ⟨front, back, rfl, hkept, hlast⟩
    refine ⟨front.length, ?_, ?_⟩
    · rw [List.mem_range, List.length_append]
      omega
    · rw [List.take_left]
      exact ⟨hkept, hlast⟩
  · rintro ⟨n, -, hkept, hlast⟩
    exact ⟨ls.take n, ls.drop n, (List.take_append_drop n ls).symm, hkept, hlast⟩

instance (kept : Text) : Decidable (InCode ls kept) :=
  decidable_of_iff' _ inCode_iff

end Lexeme

open Lexeme

/-- A time limit stands in code: behind a whole lexeme that is no comment, where it is read as code
between the lexemes that were there. This is so when, from the start of the tail or of some line
with code on it or below it, each literal is plain, or no two slashes follow. -/
theorem limit_stands_in_code {tail : Text} {earlier later : List Lexeme}
    (h : lex tail = some (earlier ++ later)) (hline : EndsLine earlier)
    (hsolid : earlier = [] ∨ ∃ l ∈ later, l.isSolid = true)
    (hplain : (∀ l ∈ later, l.IsPlain) ∨ ¬ ['/', '/'] <:+: textOf later) (seconds : UInt64) :
    InCode (earlier ++ later) (split tail).1 ∧
      ∃ front back, earlier ++ later = front ++ back ∧ split tail = (textOf front, textOf back) ∧
        lex (withLimit seconds tail) =
          some (front ++ (insertion (textOf front) seconds).map .code ++ back) := by
  obtain ⟨rfl, hlexed⟩ := lex_eq_some_iff.1 h
  obtain ⟨front, back, heq, hcut, hfront, hback⟩ := exists_cut_of_lexed hlexed hline hsolid hplain
  have hsplit := (cut_iff.1 hcut).symm
  rw [heq] at hlexed hsplit ⊢
  refine ⟨⟨front, back, rfl, congrArg Prod.fst hsplit.symm, fun l hl => ?_⟩, front, back, rfl,
    hsplit, ?_⟩
  · cases l with
    | comment t => exact absurd hl (hfront t)
    | _ => rfl
  · rw [withLimit, hsplit]
    exact lex_insertion hlexed hfront hback _ seconds

/-- A limit stands behind the last argument, although the lines before it are inside a literal. -/
theorem limit_stands_behind_long_literal :
    ∃ earlier later,
      lex ", skip: '''\n//''',\n tags: [r\"a\"] // it's\n".toList = some (earlier ++ later) ∧
      EndsLine earlier ∧ (∃ l ∈ later, l.isSolid = true) ∧ (∀ l ∈ later, l.IsPlain) ∧
      InCode (earlier ++ later)
        (split ", skip: '''\n//''',\n tags: [r\"a\"] // it's\n".toList).1 := by
  have h : lex ", skip: '''\n//''',\n tags: [r\"a\"] // it's\n".toList = some
      ((", skip: ".toList.map code ++ [literal ⟨false, true, '\x27', "\n//".toList⟩, code ','] ++
          [code '\n']) ++
        (" tags: [".toList.map code ++ [literal ⟨true, false, '\x22', ['a']⟩, code ']',
          code ' ', comment "// it's".toList, code '\n'])) := by
    cbv
  exact ⟨_, _, h, .inr ⟨_, rfl⟩, by decide, by decide,
    (limit_stands_in_code h (.inr ⟨_, rfl⟩) (.inr (by decide)) (.inl (by decide)) 5).1⟩

/-- A tail without block comments that reads as lexemes, and is cut at a place outside code. -/
def LeavesCode (tail : Text) : Prop :=
  Text.mentions "/*".toList tail = false ∧ ∃ ls, lex tail = some ls ∧ ¬ InCode ls (split tail).1

/-- A limit does not always stand in code. The backslash that ends a raw literal, a line end in a
literal and a quote of its own between three quotes each let a limit fall into a comment or into a
literal. -/
theorem limit_lands_outside_code :
    LeavesCode ", skip: r'\\' // it's\n".toList ∧ LeavesCode ", skip: '''\n//'''".toList ∧
      LeavesCode ", skip: '''it's // x'''".toList := by
  have hraw : lex ", skip: r'\\' // it's\n".toList = some (", skip: ".toList.map code ++
      [literal ⟨true, false, '\x27', ['\\']⟩, code ' ', comment "// it's".toList,
        code '\n']) := by
    cbv
  have hlong : lex ", skip: '''\n//'''".toList = some (", skip: ".toList.map code ++
      [literal ⟨false, true, '\x27', "\n//".toList⟩]) := by
    cbv
  have hquote : lex ", skip: '''it's // x'''".toList = some (", skip: ".toList.map code ++
      [literal ⟨false, true, '\x27', "it's // x".toList⟩]) := by
    cbv
  have hrawCut : (split ", skip: r'\\' // it's\n".toList).1 = ", skip: r'\\' // it's".toList := by
    cbv
  have hlongCut : (split ", skip: '''\n//'''".toList).1 = ", skip: '''".toList := by
    cbv
  have hquoteCut : (split ", skip: '''it's // x'''".toList).1 = ", skip: '''it's".toList := by
    cbv
  rw [LeavesCode, LeavesCode, LeavesCode, hrawCut, hlongCut, hquoteCut]
  exact ⟨⟨by decide, _, hraw, by decide⟩, ⟨by decide, _, hlong, by decide⟩, by decide, _, hquote,
    by decide⟩

end TimeLimit
