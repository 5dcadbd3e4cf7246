import Mathlib.Computability.Language
import TimeLimit.Proofs.Opening

/-!
# The pattern of a header

The call shape of a header as a regular language: `Header.pattern` spells out
`test\s*\([^)]+\)\s*async\s*\{`, and its words are the headers with their brace
(`Header.mem_pattern_iff`). A place of a source matches the pattern when a word of it stands there
behind a word boundary (`Mark.Matches`). These are the places where a header fits
(`Mark.matches_iff_fits`), and `Mark.Reads` says in words what stands there
(`Mark.reads_iff_fits`). The search from an offset on finds the leftmost of them
(`find?_eq_leftmost_match`).
-/

namespace TimeLimit

open scoped Computability

namespace Text

/-! ## Words of a pattern -/

/-- The language of a single word. -/
def just (w : Text) : Language Char :=
  {w}

/-- The words that are one character of a class. -/
def oneOf (p : Char → Bool) : Language Char :=
  {w | ∃ c, p c = true ∧ w = [c]}

/-- A class repeated any number of times. -/
def manyOf (p : Char → Bool) : Language Char :=
  (oneOf p)∗

/-- A class repeated at least once. -/
def someOf (p : Char → Bool) : Language Char :=
  oneOf p * manyOf p

/-- A word boundary: on one side of the place stands a word character, and on the other side there
is none. -/
def Boundary (before after : Text) : Prop :=
  before.getLast?.any isWord ≠ after.head?.any isWord

theorem mem_just_iff {w v : Text} : v ∈ just w ↔ v = w :=
  Iff.rfl

/-- The words that repeat a class are those of its characters. -/
theorem mem_manyOf_iff {p : Char → Bool} {w : Text} : w ∈ manyOf p ↔ ∀ c ∈ w, p c = true := by
  rw [manyOf, Language.mem_kstar]
  constructor
  · rintro ⟨words, rfl, hwords⟩ c hc
    obtain ⟨v, hv, hcv⟩ := List.mem_flatten.1 hc
    obtain ⟨d, hd, rfl⟩ := hwords v hv
    rwa [List.mem_singleton.1 hcv]
  · intro h
    refine ⟨w.map fun c => [c], ?_, ?_⟩
    · rw [← List.flatMap_def, List.flatMap_singleton']
    · intro v hv
      obtain ⟨c, hc, rfl⟩ := List.mem_map.1 hv
      exact ⟨c, h c hc, rfl⟩

theorem mem_someOf_iff {p : Char → Bool} {w : Text} :
    w ∈ someOf p ↔ w ≠ [] ∧ ∀ c ∈ w, p c = true := by
  rw [someOf, Language.mem_mul]
  constructor
  · rintro ⟨v, ⟨c, hc, rfl⟩, u, hu, rfl⟩
    exact ⟨List.cons_ne_nil c u, List.forall_mem_cons.2 ⟨hc, mem_manyOf_iff.1 hu⟩⟩
  · rintro ⟨hne, hw⟩
    obtain ⟨c, u, rfl⟩ := List.exists_cons_of_ne_nil hne
    obtain ⟨hc, hu⟩ := List.forall_mem_cons.1 hw
    exact ⟨[c], ⟨c, hc, rfl⟩, u, mem_manyOf_iff.2 hu, rfl⟩

/-- In front of a word character, a word boundary is a place where a word may start. -/
theorem boundary_iff_standsFree {before after : Text} {c : Char} (hc : isWord c = true) :
    Boundary before (c :: after) ↔ standsFree before.getLast? = true := by
  rw [Boundary, List.head?_cons, Option.any_some, hc]
  cases before.getLast? with
  | none => simp [standsFree]
  | some d => simp [standsFree]

end Text

namespace Header

open Text

/-- The regular language `test\s*\([^)]+\)\s*async\s*\{`. -/
def pattern : Language Char :=
  just testWord * manyOf isBlank * just ['('] * someOf (· != ')') * just [')'] *
    manyOf isBlank * just asyncWord * manyOf isBlank * just ['{']

/-- The words of the pattern are the headers in their written form, with the brace. -/
theorem mem_pattern_iff {w : Text} :
    w ∈ pattern ↔ ∃ h : Header, h.WellFormed ∧ w = h.text ++ ['{'] := by
  have hclass (a : Text) : (∀ c ∈ a, (c != ')') = true) ↔ ')' ∉ a := by
    constructor
    · intro h hmem
      exact absurd (h ')' hmem) (by simp)
    · intro h c hc
      rw [bne_iff_ne]
      rintro rfl
      exact h hc
  simp only [pattern, Language.mem_mul, mem_just_iff, mem_manyOf_iff, mem_someOf_iff, hclass]
  constructor
  · rintro ⟨_, ⟨_, ⟨_, ⟨_, ⟨_, ⟨_, ⟨_, ⟨_, rfl, gap, hgap, rfl⟩, _, rfl, rfl⟩,
      arguments, ⟨hne, hopen⟩, rfl⟩, _, rfl, rfl⟩, asyncGap, hasync, rfl⟩, _, rfl, rfl⟩,
      bodyGap, hbody, rfl⟩, _, rfl, rfl⟩
    exact ⟨⟨gap, arguments, asyncGap, bodyGap⟩, ⟨hgap, hne, hopen, hasync, hbody⟩, by simp [text]⟩
  · rintro ⟨h, ⟨hgap, hne, hopen, hasync, hbody⟩, rfl⟩
    refine ⟨_, ⟨_, ⟨_, ⟨_, ⟨_, ⟨_, ⟨_, ⟨_, rfl, h.gap, hgap, rfl⟩, _, rfl, rfl⟩,
      h.arguments, ⟨hne, hopen⟩, rfl⟩, _, rfl, rfl⟩, h.asyncGap, hasync, rfl⟩, _, rfl, rfl⟩,
      h.bodyGap, hbody, rfl⟩, _, rfl, ?_⟩
    simp [text]

end Header

namespace Mark

/-- The places of a source where the pattern `\btest\s*\([^)]+\)\s*async\s*\{` matches: a word of
the pattern stands there behind a word boundary, and it ends with the brace. -/
def Matches (source : Text) (m : Mark) : Prop :=
  ∃ before word after : Text,
    source = before ++ word ++ after ∧ word ∈ Header.pattern ∧
      Text.Boundary before (word ++ after) ∧
      m.start = Text.size before ∧ m.brace + 1 = Text.size (before ++ word)

/-- The pattern matches where a header fits. -/
theorem matches_iff_fits {source : Text} {m : Mark} : m.Matches source ↔ m.Fits source := by
  have hbrace : ('{').utf8Size = 1 := rfl
  have hboundary (before : Text) (h : Header) (t : Text) :
      Text.Boundary before (h.text ++ t) ↔ Text.standsFree before.getLast? = true :=
    Text.boundary_iff_standsFree (c := 't') (by decide)
  constructor
  · rintro ⟨before, word, after, rfl, hword, hb, hstart, hend⟩
    obtain ⟨h, hw, rfl⟩ := Header.mem_pattern_iff.1 hword
    rw [List.append_assoc, hboundary] at hb
    refine ⟨before, h, after, by simp, hw, hb, hstart, ?_⟩
    simp only [Text.size_append, Text.size_cons, Text.size_nil] at hend
    omega
  · rintro ⟨before, h, after, rfl, hw, hb, hstart, hend⟩
    refine ⟨before, h.text ++ ['{'], after, by simp, Header.mem_pattern_iff.2 ⟨h, hw, rfl⟩, ?_,
      hstart, ?_⟩
    · rw [List.append_assoc, hboundary]
      exact hb
    · simp only [Text.size_append, Text.size_cons, Text.size_nil]
      omega

/-- The same in words. At the start stands `test`, which continues no word; blanks, `(`, characters
other than `)`, at least one, `)`, blanks, `async` and blanks follow, and then the brace. -/
def Reads (source : Text) (m : Mark) : Prop :=
  ∃ before gap arguments asyncGap bodyGap after : Text,
    source = before ++ (Header.testWord ++ gap ++ ['('] ++ arguments ++ [')'] ++ asyncGap ++
      Header.asyncWord ++ bodyGap) ++ '{' :: after ∧
    (∀ c, before.getLast? = some c → Text.isWord c = false) ∧
    (∀ c ∈ gap, Text.isBlank c = true) ∧
    arguments ≠ [] ∧ (∀ c ∈ arguments, c ≠ ')') ∧
    (∀ c ∈ asyncGap, Text.isBlank c = true) ∧
    (∀ c ∈ bodyGap, Text.isBlank c = true) ∧
    m.start = Text.size before ∧
    m.brace = m.start + Text.size (Header.testWord ++ gap ++ ['('] ++ arguments ++ [')'] ++
      asyncGap ++ Header.asyncWord ++ bodyGap)

theorem reads_iff_fits {source : Text} {m : Mark} : m.Reads source ↔ m.Fits source := by
  have htext (h : Header) : Header.testWord ++ h.gap ++ ['('] ++ h.arguments ++ [')'] ++
      h.asyncGap ++ Header.asyncWord ++ h.bodyGap = h.text := by
    simp [Header.text]
  have hopen (a : Text) : (∀ c ∈ a, c ≠ ')') ↔ ')' ∉ a :=
    ⟨fun h hmem => h ')' hmem rfl, fun h c hc he => h (he ▸ hc)⟩
  have hfree (before : Text) : (∀ c, before.getLast? = some c → Text.isWord c = false) ↔
      Text.standsFree before.getLast? = true := by
    cases before.getLast? with
    | none => simp [Text.standsFree]
    | some d => simp [Text.standsFree]
  constructor
  · rintro ⟨before, gap, arguments, asyncGap, bodyGap, after, hs, hb, hgap, hne, hargs, hasync,
      hbody, hstart, hend⟩
    rw [htext ⟨gap, arguments, asyncGap, bodyGap⟩] at hs hend
    refine ⟨before, _, after, hs, ⟨hgap, hne, (hopen _).1 hargs, hasync, hbody⟩,
      (hfree before).1 hb, hstart, ?_⟩
    rw [hend, hstart]
  · rintro ⟨before, h, after, hs, ⟨hgap, hne, hargs, hasync, hbody⟩, hb, hstart, hend⟩
    refine ⟨before, h.gap, h.arguments, h.asyncGap, h.bodyGap, after, ?_, (hfree before).2 hb, hgap,
      hne, (hopen _).2 hargs, hasync, hbody, hstart, ?_⟩
    · rw [htext, hs]
    · rw [htext, hend, hstart]

/-- Of the headers of a source, one that starts at a place has one brace. -/
theorem Fits.eq_of_start_eq {source : Text} {m k : Mark} (hm : m.Fits source) (hk : k.Fits source)
    (h : m.start = k.start) : m = k := by
  have hlt := hm.start_lt_brace
  have hbrace := hm.brace_eq hk (Nat.le_of_eq h) (by omega)
  obtain ⟨start, brace⟩ := m
  obtain ⟨start', brace'⟩ := k
  cases h
  cases hbrace
  rfl

/-- The search from an offset on finds the first header that starts there or behind. -/
theorem find?_eq_some_iff {source : Text} {offset : Nat} {m : Mark} :
    find? source offset = some m ↔ offset ≤ m.start ∧ m.Fits source ∧
      ∀ k : Mark, k.Fits source → offset ≤ k.start → m.start ≤ k.start := by
  constructor
  · intro h
    refine ⟨le_start_of_find? h, fits_of_find? h, fun k hk hle => ?_⟩
    obtain ⟨m', hm', hle'⟩ := exists_find?_of_fits hk hle
    rw [h] at hm'
    cases hm'
    exact hle'
  · rintro ⟨hle, hm, hfirst⟩
    obtain ⟨k, hk, hkm⟩ := exists_find?_of_fits hm hle
    have hmk := hfirst k (fits_of_find? hk) (le_start_of_find? hk)
    rw [hk, hm.eq_of_start_eq (fits_of_find? hk) (Nat.le_antisymm hmk hkm)]

theorem find?_eq_none_iff {source : Text} {offset : Nat} :
    find? source offset = none ↔ ∀ k : Mark, k.Fits source → k.start < offset := by
  constructor
  · intro h k hk
    refine Nat.lt_of_not_le fun hle => ?_
    obtain ⟨m, hm, -⟩ := exists_find?_of_fits hk hle
    rw [h] at hm
    cases hm
  · intro h
    cases hm : find? source offset with
    | none => rfl
    | some m =>
      have := h m (fits_of_find? hm)
      have := le_start_of_find? hm
      omega

end Mark

/-- The search from an offset on finds the leftmost match of the pattern that starts there or
behind, wherever the offset lies: inside a character or past the end as well. A match has one
brace. -/
theorem find?_eq_leftmost_match (source : Text) (offset : Nat) :
    (∀ m, Mark.find? source offset = some m ↔
      offset ≤ m.start ∧ m.Reads source ∧
        ∀ k : Mark, k.Reads source → offset ≤ k.start → m.start ≤ k.start) ∧
    (Mark.find? source offset = none ↔ ¬ ∃ k : Mark, k.Reads source ∧ offset ≤ k.start) ∧
    (∀ m k : Mark, m.Reads source → k.Reads source → m.start = k.start → m.brace = k.brace) ∧
    ∀ m : Mark, m.Reads source ↔ m.Matches source := by
  refine ⟨fun m => ?_, ?_, fun m k hm hk hstart => ?_,
    fun m => Mark.reads_iff_fits.trans Mark.matches_iff_fits.symm⟩
  · simp only [Mark.reads_iff_fits]
    exact Mark.find?_eq_some_iff
  · simp only [Mark.reads_iff_fits, Mark.find?_eq_none_iff, not_exists, not_and, Nat.not_le]
  · rw [(Mark.reads_iff_fits.1 hm).eq_of_start_eq (Mark.reads_iff_fits.1 hk) hstart]

end TimeLimit
