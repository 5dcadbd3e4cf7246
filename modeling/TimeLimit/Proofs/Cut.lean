import TimeLimit.Proofs.Comment

/-!
# Where the tail of a call is cut

`Cut tail kept rest` says how a tail is cut behind its last argument: the kept part does not end in
a blank and its last line has no comment, and the rest is made of blanks and comments only
(`Trailing`), each of these comments the first one of its line. Every tail has such a cut
(`exists_cut`), it has no other one, and `Tail.split` finds it (`cut_iff`). So it is settled where a
time limit goes and which form it takes (`limit_goes_behind_last_argument`).
-/

namespace TimeLimit

open Tail

/-- Blanks and comments that follow a part of a line. A comment is the first one of its line and
runs to the end of the line. -/
inductive Trailing : Text → Text → Prop where
  | nil (line : Text) : Trailing line []
  | lineEnd {line rest : Text} (h : Trailing [] rest) : Trailing line ('\n' :: rest)
  | blank {line rest : Text} {c : Char} (hb : Text.isBlank c = true) (hc : c ≠ '\n')
      (h : Trailing (line ++ [c]) rest) : Trailing line (c :: rest)
  | comment {line comment rest : Text} (hf : FirstComment line comment) (hc : '\n' ∉ comment)
      (hr : rest = [] ∨ ∃ r, rest = '\n' :: r) (h : Trailing (line ++ comment) rest) :
      Trailing line (comment ++ rest)

/-- A tail is cut in two: nothing but blanks and comments stands behind the cut, and what stands
before it ends in neither. -/
structure Cut (tail kept rest : Text) : Prop where
  append : kept ++ rest = tail
  not_blank : ∀ c, kept.getLast? = some c → Text.isBlank c = false
  last_line : ∃ front line, kept = front ++ line ∧ LastLine front line ∧ NoComment line ∧
    Trailing line rest

namespace Trailing

/-- Blanks may stand in front. -/
theorem blanks {line blanks rest : Text} (hb : ∀ c ∈ blanks, Text.isBlank c = true)
    (hc : '\n' ∉ blanks) (h : Trailing (line ++ blanks) rest) : Trailing line (blanks ++ rest) := by
  induction blanks generalizing line with
  | nil => rwa [List.append_nil] at h
  | cons c blanks ih =>
    rw [List.mem_cons, not_or] at hc
    rw [List.append_cons] at h
    exact .blank (hb c List.mem_cons_self) (Ne.symm hc.1)
      (ih (fun x hx => hb x (List.mem_cons_of_mem c hx)) hc.2 h)

/-- Blanks may follow, on this line and on others. -/
theorem of_isBlank {line rest : Text} (h : ∀ c ∈ rest, Text.isBlank c = true) :
    Trailing line rest := by
  induction rest generalizing line with
  | nil => exact .nil line
  | cons c rest ih =>
    have hrest (x : Char) (hx : x ∈ rest) := h x (List.mem_cons_of_mem c hx)
    by_cases hc : c = '\n'
    · rw [hc]
      exact .lineEnd (ih hrest)
    · exact .blank (h c List.mem_cons_self) hc (ih hrest)

/-- Behind a line end stand lines of their own. -/
theorem of_lineEnd {line rest : Text} (h : Trailing line ('\n' :: rest)) : Trailing [] rest := by
  generalize ht : '\n' :: rest = t at h
  cases h with
  | nil => cases ht
  | lineEnd h =>
    cases ht
    exact h
  | blank hb hc h =>
    cases ht
    exact absurd rfl hc
  | comment hf hc hr h =>
    obtain ⟨u, hu⟩ := hf.starts.2
    rw [← hu] at ht
    exact absurd (List.cons.inj ht).1 (by decide)

/-- Further lines of blanks and comments may follow. -/
theorem append_line {line s t : Text} (hs : Trailing line s) (ht : Trailing [] t) :
    Trailing line (s ++ '\n' :: t) := by
  induction hs with
  | nil line => exact .lineEnd ht
  | lineEnd _ ih => exact .lineEnd ih
  | blank hb hc _ ih => exact .blank hb hc ih
  | comment hf hc hr _ ih =>
    rw [List.append_assoc]
    refine .comment hf hc (.inr ?_) ih
    rcases hr with rfl | ⟨r, rfl⟩
    · exact ⟨t, rfl⟩
    · exact ⟨_, rfl⟩

/-- What follows the last code of a line. -/
theorem of_line {line : Text} (hline : '\n' ∉ line) :
    Trailing (splitLine line).1 (splitLine line).2 := by
  have hcode := Text.splitTrailing_append (splitComment none line).1
  have happend := splitComment_append none line
  have hmem : '\n' ∉ (splitComment none line).1 ++ (splitComment none line).2 := by rwa [happend]
  rw [List.mem_append, not_or] at hmem
  rw [← hcode, List.mem_append, not_or] at hmem
  refine blanks (fun c => Text.isBlank_of_mem_splitTrailing) hmem.1.2 ?_
  show Trailing ((Text.splitTrailing _).1 ++ (Text.splitTrailing _).2) _
  rw [hcode]
  by_cases hnil : (splitComment none line).2 = []
  · rw [hnil]
    exact .nil _
  · have hcomment := firstComment_of_splitComment hnil
    rw [← List.append_nil (splitComment none line).2]
    exact .comment hcomment hmem.2 (.inl rfl) (.nil _)

/-- Blanks and comments behind a text do not change what is kept of it. -/
theorem split_eq {line rest : Text} (h : Trailing line rest) {front : Text}
    (hlast : LastLine front line) :
    (split (front ++ line ++ rest)).1 = (split (front ++ line)).1 := by
  induction h generalizing front with
  | nil line => rw [List.append_nil]
  | @lineEnd line rest h ih =>
    have hlast' : LastLine (front ++ line ++ ['\n']) [] := ⟨.inr ⟨_, rfl⟩, List.not_mem_nil⟩
    have := ih hlast'
    rw [List.append_nil, split_append_blank _ (by decide)] at this
    rw [List.append_cons]
    exact this
  | @blank line rest c hb hc h ih =>
    have hlast' : LastLine front (line ++ [c]) :=
      ⟨hlast.front_ends, by simp [hlast.not_mem, Ne.symm hc]⟩
    have := ih hlast'
    rw [← List.append_assoc, split_append_blank _ hb] at this
    rw [List.append_cons]
    exact this
  | @comment line comment rest hf hc hr h ih =>
    have hlast' : LastLine front (line ++ comment) :=
      ⟨hlast.front_ends, by simp [hlast.not_mem, hc]⟩
    have hcode := hlast'.split_code
    rw [splitComment_of_firstComment hf] at hcode
    rw [← List.append_assoc, hcode, ← ih hlast', List.append_assoc front line comment]

end Trailing

namespace Cut

/-- A tail has one cut. -/
theorem kept_eq {tail kept rest : Text} (h : Cut tail kept rest) : kept = (split tail).1 := by
  obtain ⟨rfl, hblank, front, line, rfl, hlast, hcomment, htrailing⟩ := h
  rw [htrailing.split_eq hlast]
  exact (hlast.split_of_code (congrArg Prod.snd (splitComment_of_noComment hcomment)) hblank).symm

theorem rest_eq {tail kept rest : Text} (h : Cut tail kept rest) : rest = (split tail).2 := by
  have happend := h.append
  rw [← split_append tail, ← h.kept_eq] at happend
  exact List.append_cancel_left happend

end Cut

/-- Every tail has a cut. It is looked for from the last line up: a line without code is left
behind, and any other is cut behind its code. -/
theorem exists_cut (tail : Text) : ∃ kept rest, Cut tail kept rest := by
  induction hn : tail.length using Nat.strongRecOn generalizing tail with
  | _ n ih =>
    obtain ⟨front, line, rfl, hlast⟩ := exists_lastLine tail
    have happend := splitLine_append line
    have htrailing := Trailing.of_line hlast.not_mem
    by_cases hcode : (splitLine line).1 = []
    · rw [hcode, List.nil_append] at happend
      rw [hcode, happend] at htrailing
      rcases hlast.front_ends with rfl | ⟨f, rfl⟩
      · exact ⟨[], line, rfl, nofun, [], [], rfl, ⟨.inl rfl, List.not_mem_nil⟩, noComment_nil,
          htrailing⟩
      · obtain ⟨kept, rest, happend', hblank, front, l, hkept, hl, hcomment, hrest⟩ :=
          ih f.length (by simp at hn; omega) f rfl
        refine ⟨kept, rest ++ '\n' :: line, ?_, hblank, front, l, hkept, hl, hcomment,
          hrest.append_line htrailing⟩
        rw [← happend']
        simp
    · have hcomment := noComment_splitComment line
      rw [← Text.splitTrailing_append (splitComment none line).1] at hcomment
      have hline : '\n' ∉ (splitLine line).1 := fun h =>
        hlast.not_mem (happend ▸ List.mem_append_left _ h)
      refine ⟨front ++ (splitLine line).1, (splitLine line).2, ?_, ?_, front, _, rfl,
        ⟨hlast.front_ends, hline⟩, hcomment.of_append, htrailing⟩
      · rw [List.append_assoc, happend]
      · intro c hc
        obtain ⟨x, k, hk⟩ := List.exists_cons_of_ne_nil hcode
        rw [List.getLast?_append, hk, List.getLast?_cons, Option.some_or, ← List.getLast?_cons,
          ← hk] at hc
        exact Text.isBlank_getLast_splitTrailing hc

/-- The cut that is made is the cut of the tail. -/
theorem cut_iff {tail kept rest : Text} : Cut tail kept rest ↔ (kept, rest) = split tail := by
  constructor
  · intro h
    exact Prod.ext h.kept_eq h.rest_eq
  · intro h
    obtain ⟨kept', rest', h'⟩ := exists_cut tail
    have heq : (kept, rest) = (kept', rest') := h.trans (Prod.ext h'.kept_eq h'.rest_eq).symm
    obtain ⟨rfl, rfl⟩ := Prod.mk.inj heq
    exact h'

/-- A time limit goes behind the last argument of a tail. The tail has exactly one cut: in front of
it stands nothing, or what ends in no blank and has no comment on its last line, and behind it stand
blanks and comments only. The new argument goes there, followed by a comma where the kept part ends
in one, and behind a comma where it does not. -/
theorem limit_goes_behind_last_argument (tail : Text) (seconds : UInt64) :
    ∃ kept rest, Cut tail kept rest ∧
      (∀ kept' rest', Cut tail kept' rest' → kept' = kept ∧ rest' = rest) ∧
      withLimit seconds tail = kept ++
        (if kept.getLast? = some ',' then [' '] ++ Limit.argument seconds ++ [',']
          else [',', ' '] ++ Limit.argument seconds) ++ rest := by
  obtain ⟨kept, rest, h⟩ := exists_cut tail
  refine ⟨kept, rest, h, ?_, ?_⟩
  · intro kept' rest' h'
    exact ⟨h'.kept_eq.trans h.kept_eq.symm, h'.rest_eq.trans h.rest_eq.symm⟩
  · rw [withLimit, ← h.kept_eq, ← h.rest_eq]
    rfl

end TimeLimit
