import Mathlib.Data.List.Forall2
import TimeLimit.Revision
import TimeLimit.Proofs.Opening
import TimeLimit.Proofs.Tail

/-!
# Outlines as a relation

`Outlined t pieces` says by rules how a text is cut into pieces: each rule has the front of the text
in its written form, and what is found there depends on nothing but that front and, for a header
whose test never closes, on the brackets behind it. It is the relation that `outline` computes
(`outlined_iff`), and it is what a second text with pieces of the same form has to meet.

Two such texts are treated here. Tests may be given a limit: the pieces of the new text are the new
pieces (`Outlined.gain`). And a text may be cut behind a test: the pieces of the part behind the cut
are those that stood there, and the pieces of the part before it are those that stood there but for
the bracket that a header without an end is reported for (`Outlined.cut`).
-/

namespace TimeLimit

open TimeLimit.Bracket

/-! ## Tests that close -/

namespace TestCase

/-- The body of a test is a pair of braces around a balanced text, and its tail is balanced too. -/
def Closed (c : TestCase) : Prop :=
  ∃ inside, c.body = '{' :: inside ++ ['}'] ∧ Balanced '{' '}' inside ∧ Balanced '(' ')' c.tail

theorem closed_ofClosing {t : Text} {k : Closing} (h : Header) (hk : Closing.of t = .ok k) :
    (ofClosing h k).Closed := by
  obtain ⟨-, hb, hs, hp, hq⟩ := Closing.of_eq_ok_iff.1 hk
  exact ⟨k.inside, rfl, ⟨hb, hs⟩, ⟨hp, hq⟩⟩

/-- Behind its header, a test closes where it ends, whatever follows. -/
theorem Closed.exists_closing {c : TestCase} (hc : c.Closed) (rest : Text) :
    ∃ k, Closing.of k.text = .ok k ∧ ofClosing c.header k = c ∧ k.rest = rest := by
  obtain ⟨inside, hbody, hb, hp⟩ := hc
  refine ⟨⟨inside, c.tail, rest⟩, ?_, by rw [ofClosing, ← hbody], rfl⟩
  exact Closing.of_eq_ok_iff.2 ⟨rfl, hb.count_eq, hb.staysOpen, hp.count_eq, hp.staysOpen⟩

end TestCase

/-- A closing that is found in a text is found in every text that goes on from there. -/
theorem Closing.of_append {t : Text} {k : Closing} (h : of t = .ok k) (u : Text) :
    of (t ++ u) = .ok { k with rest := k.rest ++ u } := by
  obtain ⟨rfl, hk⟩ := of_eq_ok_iff.1 h
  exact of_eq_ok_iff.2 ⟨by simp [text], hk⟩

/-! ## The relation -/

/-- The pieces of a text. -/
inductive Outlined : Text → List Piece → Prop where
  | plain {t : Text} (h : Opening.first? none t = none) : Outlined t [.plain t]
  | stray {before : Text} {h : Header} {rest : Text} {u : Unclosed} {pieces : List Piece}
      (hl : Opening.Leads before h) (hc : Closing.of rest = .error u)
      (ho : Outlined rest pieces) :
      Outlined (before ++ h.text ++ '{' :: rest) (.plain before :: .stray h u :: pieces)
  | test {before : Text} {c : TestCase} {rest : Text} {pieces : List Piece}
      (hl : Opening.Leads before c.header) (hc : c.Closed) (ho : Outlined rest pieces) :
      Outlined (before ++ c.text ++ rest) (.plain before :: .test c :: pieces)

theorem outlined_outline (t : Text) : Outlined t (outline t) := by
  fun_induction outline t with
  | case1 t h => exact .plain h
  | case2 t o h u hc ih =>
    have ht := Opening.text_of_first? h
    have := Outlined.stray (Opening.leads_of_first? h) hc ih
    rwa [← Opening.text, ht] at this
  | case3 t o h k hc ih =>
    have ht := Opening.text_of_first? h
    have := Outlined.test (c := .ofClosing o.header k) (Opening.leads_of_first? h)
      (TestCase.closed_ofClosing o.header hc) ih
    rwa [List.append_assoc, TestCase.text_ofClosing, ← (Closing.of_eq_ok_iff.1 hc).1,
      ← List.append_assoc, ← Opening.text, ht] at this

theorem Outlined.outline_eq {t : Text} {pieces : List Piece} (h : Outlined t pieces) :
    outline t = pieces := by
  induction h with
  | plain h =>
    rw [outline]
    split
    · rfl
    · next o ho =>
      rw [h] at ho
      cases ho
  | @stray before h rest u pieces hl hc _ ih =>
    rw [outline]
    split
    · next hn =>
      rw [hl rest] at hn
      cases hn
    · next o ho =>
      rw [hl rest] at ho
      cases ho
      split
      · next u' hu =>
        rw [hc] at hu
        cases hu
        rw [ih]
      · next k hk =>
        rw [hc] at hk
        cases hk
  | @test before c rest pieces hl hc _ ih =>
    obtain ⟨k, hk, hof, rfl⟩ := hc.exists_closing rest
    have htext := TestCase.text_ofClosing c.header k
    rw [hof] at htext
    rw [List.append_assoc, htext, ← List.append_assoc, outline]
    split
    · next hn =>
      rw [hl k.text] at hn
      cases hn
    · next o ho =>
      rw [hl k.text] at ho
      cases ho
      split
      · next u hu =>
        rw [hk] at hu
        cases hu
      · next k' hk' =>
        rw [hk] at hk'
        cases hk'
        rw [ih, hof]

/-- The rules give the outline of a text and nothing else. -/
theorem outlined_iff {t : Text} {pieces : List Piece} : Outlined t pieces ↔ outline t = pieces :=
  ⟨Outlined.outline_eq, fun h => h ▸ outlined_outline t⟩

theorem Outlined.flatMap_text {t : Text} {pieces : List Piece} (h : Outlined t pieces) :
    pieces.flatMap Piece.text = t := by
  rw [← h.outline_eq, flatMap_text_outline]

/-! ## Tests that gain a limit -/

namespace Piece

/-- The second piece is the first one, perhaps with a limit added. -/
def Gains (p q : Piece) : Prop :=
  q = p ∨ ∃ seconds, q = p.withLimit seconds

theorem gains_withLimit (p : Piece) (seconds : UInt64) : Gains p (p.withLimit seconds) :=
  .inr ⟨seconds, rfl⟩

theorem Gains.eq_plain {t : Text} {q : Piece} (h : Gains (.plain t) q) : q = .plain t := by
  rcases h with rfl | ⟨seconds, rfl⟩ <;> rfl

theorem Gains.eq_stray {h : Header} {u : Unclosed} {q : Piece} (hg : Gains (.stray h u) q) :
    q = .stray h u := by
  rcases hg with rfl | ⟨seconds, rfl⟩ <;> rfl

/-- A test gains something in its tail only, and closes if it did before. -/
theorem Gains.exists_test {c : TestCase} {q : Piece} (h : Gains (.test c) q) :
    ∃ tail, q = .test { c with tail } ∧ Padded c.tail tail ∧
      (c.Closed → TestCase.Closed { c with tail }) := by
  rcases h with rfl | ⟨seconds, rfl⟩
  · exact ⟨c.tail, rfl, .refl _, id⟩
  by_cases hl : c.isLimited = true
  · exact ⟨c.tail, if_pos hl, .refl _, id⟩
  · refine ⟨_, if_neg hl, Tail.padded_withLimit seconds c.tail, ?_⟩
    rintro ⟨inside, hbody, hb, hp⟩
    exact ⟨inside, hbody, hb, Tail.balanced_withLimit hp seconds⟩

theorem Gains.padded {p q : Piece} (h : Gains p q) : Padded p.text q.text := by
  cases p with
  | plain t =>
    rw [h.eq_plain]
    exact .refl _
  | stray hd u =>
    rw [h.eq_stray]
    exact .refl _
  | test c =>
    obtain ⟨tail, rfl, hpad, -⟩ := h.exists_test
    exact ((Padded.refl _).append hpad).append (.refl _)

theorem padded_flatMap {ps qs : List Piece} (h : List.Forall₂ Gains ps qs) :
    Padded (ps.flatMap text) (qs.flatMap text) := by
  induction h with
  | nil => exact .nil
  | cons hp _ ih =>
    rw [List.flatMap_cons, List.flatMap_cons]
    exact hp.padded.append ih

end Piece

/-- The pieces of a text in which tests gained a limit are the old pieces with those limits: no
header is made or hidden, and every test and every header without an end stays what it was. -/
theorem Outlined.gain {t : Text} {ps qs : List Piece} (h : Outlined t ps)
    (hg : List.Forall₂ Piece.Gains ps qs) : Outlined (qs.flatMap Piece.text) qs := by
  induction h generalizing qs with
  | plain h =>
    obtain _ | ⟨hp, _ | _⟩ := hg
    obtain rfl := hp.eq_plain
    simpa [Piece.text] using Outlined.plain h
  | stray hl hc ho ih =>
    obtain _ | ⟨hp, _ | ⟨hs, hg⟩⟩ := hg
    obtain rfl := hp.eq_plain
    obtain rfl := hs.eq_stray
    have hpad := Piece.padded_flatMap hg
    rw [ho.flatMap_text] at hpad
    simpa [Piece.text] using Outlined.stray hl (hpad.closing_of_error hc) (ih hg)
  | @test before c rest pieces hl hc ho ih =>
    obtain _ | ⟨hp, _ | ⟨hs, hg⟩⟩ := hg
    obtain rfl := hp.eq_plain
    obtain ⟨tail, rfl, -, hclosed⟩ := hs.exists_test
    simpa [Piece.text] using Outlined.test (c := { c with tail }) hl (hclosed hc) (ih hg)

/-! ## The part before and the part behind a test -/

/-- The second piece is the first one, perhaps reported for another bracket. -/
inductive Piece.Alike : Piece → Piece → Prop where
  | refl (p : Piece) : Alike p p
  | stray (h : Header) (u u' : Unclosed) : Alike (.stray h u) (.stray h u')

/-- A text may be cut behind a test. Behind the cut nothing changes; before it, a header that never
closes in the whole text may lack another bracket, because the body it opens may end behind the
cut. -/
theorem Outlined.cut {t : Text} {ys zs : List Piece} {c : TestCase}
    (h : Outlined t (ys ++ .test c :: zs)) :
    Outlined (zs.flatMap Piece.text) zs ∧
      ∃ xs, List.Forall₂ Piece.Alike (ys ++ [Piece.test c]) xs ∧
        Outlined ((ys ++ [Piece.test c]).flatMap Piece.text) (xs ++ [.plain []]) := by
  generalize hps : ys ++ Piece.test c :: zs = ps at h
  induction h generalizing ys with
  | plain h => obtain _ | ⟨y, _ | ⟨z, ys⟩⟩ := ys <;> simp at hps
  | @stray before hd rest u pieces hl hc ho ih =>
    obtain _ | ⟨y, _ | ⟨z, ys⟩⟩ := ys <;>
      simp only [List.nil_append, List.cons_append, List.cons.injEq, reduceCtorEq, false_and,
        and_false] at hps
    obtain ⟨rfl, rfl, rfl⟩ := hps
    obtain ⟨hsuffix, xs, hxs, hfront⟩ := ih rfl
    -- what does not close in the whole rest does not close in its front
    have hrest := ho.flatMap_text
    rw [List.append_cons, List.flatMap_append] at hrest
    obtain ⟨u', hu'⟩ :
        ∃ u', Closing.of ((ys ++ [Piece.test c]).flatMap Piece.text) = .error u' := by
      cases hk : Closing.of ((ys ++ [Piece.test c]).flatMap Piece.text) with
      | error u' => exact ⟨u', rfl⟩
      | ok k =>
        have := Closing.of_append hk (zs.flatMap Piece.text)
        rw [hrest, hc] at this
        cases this
    refine ⟨hsuffix, _, .cons (.refl _) (.cons (.stray hd u u') hxs), ?_⟩
    simpa [Piece.text] using Outlined.stray hl hu' hfront
  | @test before c' rest pieces hl hc ho ih =>
    obtain _ | ⟨y, _ | ⟨z, ys⟩⟩ := ys <;>
      simp only [List.nil_append, List.cons_append, List.cons.injEq, reduceCtorEq,
        false_and] at hps
    · -- the cut is behind this test
      obtain ⟨rfl, hc', rfl⟩ := hps
      cases hc'
      have hnil : Outlined [] [.plain []] := .plain rfl
      refine ⟨ho.flatMap_text.symm ▸ ho, _, .cons (.refl _) (.cons (.refl _) .nil), ?_⟩
      simpa [Piece.text] using Outlined.test hl hc hnil
    · obtain ⟨rfl, rfl, rfl⟩ := hps
      obtain ⟨hsuffix, xs, hxs, hfront⟩ := ih rfl
      refine ⟨hsuffix, _, .cons (.refl _) (.cons (.refl _) hxs), ?_⟩
      simpa [Piece.text] using Outlined.test hl hc hfront

end TimeLimit
