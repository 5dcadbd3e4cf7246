import TimeLimit.Opening
import TimeLimit.Proofs.Header

/-!
# The search for a header

What `Opening.first?` finds is a well-formed header that stands free (`Opening.header_of_first?`),
and no free-standing header starts before it (`Opening.exists_first?_of_header`). The search looks
no further than the brace of the header it finds: with any other text behind that brace it finds the
same header at the same place (`Opening.leads_of_first?`), because a place in front of it cannot
start a header that swallows it (`Header.overlap`). So a source may be changed or cut behind a brace
and what was found before stays.

`Mark.Fits` says in bytes what the search is for: a header in its written form, whose keyword
continues no word. `Mark.find?` finds the first such place from an offset on
(`Mark.fits_of_find?`, `Mark.le_start_of_find?`, `Mark.exists_find?_of_fits`), and a place that
starts inside the header of another one has its brace (`Mark.Fits.brace_eq`).
-/

namespace TimeLimit

namespace Opening

/-! ## One step of the search -/

/-- The cut of a text with one more character in front. -/
def behind (c : Char) (o : Opening) : Opening :=
  ⟨c :: o.before, o.header, o.rest⟩

/-- What a walk has passed only goes in front of what it finds. -/
theorem walk_eq_map (previous : Option Char) (seen t : Text) :
    walk previous seen t =
      (first? previous t).map fun o => ⟨seen.reverse ++ o.before, o.header, o.rest⟩ := by
  induction t generalizing previous seen with
  | nil => rfl
  | cons c t ih =>
    rw [first?, walk, walk]
    cases if Text.standsFree previous then Header.read? (c :: t) else none with
    | some found => simp
    | none => simp [ih (some c) (c :: seen), ih (some c) [c], Function.comp_def]

/-- A header at the front of a text is the first one. -/
theorem first?_of_read? {previous : Option Char} {t r : Text} {h : Header}
    (hfree : Text.standsFree previous = true) (hr : Header.read? t = some (h, r)) :
    first? previous t = some ⟨[], h, r⟩ := by
  cases t with
  | nil => exact absurd hr (by simp [Header.read?, Header.testWord, Text.after?])
  | cons c t => simp [first?, walk, hfree, hr]

/-- Where no header starts, the search goes on behind the next character. -/
theorem first?_cons_of_none {previous : Option Char} {c : Char} {t : Text}
    (hn : Text.standsFree previous = true → Header.read? (c :: t) = none) :
    first? previous (c :: t) = (first? (some c) t).map (behind c) := by
  have hnone : (if Text.standsFree previous then Header.read? (c :: t) else none) = none := by
    split
    · next hfree => exact hn hfree
    · rfl
  rw [first?, walk, hnone]
  exact walk_eq_map (some c) [c] t

/-- A text starts with a header that stands free, or it does not. -/
theorem start_cases (previous : Option Char) (t : Text) :
    (∃ h r, Text.standsFree previous = true ∧ Header.read? t = some (h, r)) ∨
      (Text.standsFree previous = true → Header.read? t = none) := by
  cases hr : Header.read? t with
  | none => exact .inr fun _ => rfl
  | some found =>
    cases hfree : Text.standsFree previous with
    | true => exact .inl ⟨found.1, found.2, rfl, rfl⟩
    | false => exact .inr nofun

/-- Only whether the character before a text belongs to a word counts. -/
theorem first?_congr {p q : Option Char} (h : Text.standsFree p = Text.standsFree q) (t : Text) :
    first? p t = first? q t := by
  cases t with
  | nil => rfl
  | cons c t => rw [first?, first?, walk, walk, h]

/-- The character before the rest of a text is the last one that was passed. -/
theorem getLast?_cons_or (c : Char) (b : Text) (previous : Option Char) :
    (c :: b).getLast?.or previous = b.getLast?.or (some c) := by
  rw [List.getLast?_cons]
  cases b.getLast? <;> rfl

/-! ## What the search finds -/

/-- What is found is a well-formed header, and it continues no word. -/
theorem header_of_first? {previous : Option Char} {t : Text} {o : Opening}
    (h : first? previous t = some o) :
    o.header.WellFormed ∧ Text.standsFree (o.before.getLast?.or previous) = true := by
  induction t generalizing previous o with
  | nil => cases h
  | cons c t ih =>
    rcases start_cases previous (c :: t) with ⟨hd, r, hfree, hr⟩ | hn
    · rw [first?_of_read? hfree hr] at h
      cases h
      exact ⟨(Header.eq_of_read? hr).1, hfree⟩
    · rw [first?_cons_of_none hn] at h
      obtain ⟨o, ho, rfl⟩ := Option.map_eq_some_iff.1 h
      obtain ⟨hw, hfree⟩ := ih ho
      exact ⟨hw, by rw [behind, getLast?_cons_or]; exact hfree⟩

/-- A free-standing header is found, unless one that starts before it is. -/
theorem exists_first?_of_header {previous : Option Char} {a : Text} {h : Header}
    (hw : h.WellFormed) (hfree : Text.standsFree (a.getLast?.or previous) = true) (r : Text) :
    ∃ o c, first? previous (a ++ h.text ++ '{' :: r) = some o ∧ a = o.before ++ c := by
  induction a generalizing previous with
  | nil => exact ⟨_, [], first?_of_read? hfree (Header.read?_text_append hw r), rfl⟩
  | cons x a ih =>
    rcases start_cases previous (x :: a ++ h.text ++ '{' :: r) with ⟨hd, u, hf, hr⟩ | hn
    · exact ⟨_, x :: a, first?_of_read? hf hr, rfl⟩
    · rw [getLast?_cons_or] at hfree
      obtain ⟨o, c, ho, hc⟩ := ih hfree
      refine ⟨behind x o, c, ?_, by rw [behind, List.cons_append, ← hc]⟩
      rw [List.cons_append, List.cons_append] at hn ⊢
      rw [first?_cons_of_none hn, ho]
      rfl

/-! ## The search stops at the brace -/

/-- A text and a header behind it form an opening of every text that goes on from there. -/
def Leads (before : Text) (h : Header) : Prop :=
  ∀ rest, first? none (before ++ h.text ++ '{' :: rest) = some ⟨before, h, rest⟩

/-- The search does not look behind the brace of the header it finds. -/
theorem first?_of_same_header {previous : Option Char} {b r : Text} {h : Header}
    (hs : first? previous (b ++ h.text ++ '{' :: r) = some ⟨b, h, r⟩) (r' : Text) :
    first? previous (b ++ h.text ++ '{' :: r') = some ⟨b, h, r'⟩ := by
  obtain ⟨hw, -⟩ := header_of_first? hs
  induction b generalizing previous with
  | nil => exact first?_of_read? (header_of_first? hs).2 (Header.read?_text_append hw r')
  | cons x b ih =>
    have hn : Text.standsFree previous = true →
        Header.read? (x :: b ++ h.text ++ '{' :: r) = none := by
      intro hfree
      cases hr : Header.read? (x :: b ++ h.text ++ '{' :: r) with
      | none => rfl
      | some found =>
        rw [first?_of_read? hfree hr] at hs
        simp at hs
    have hn' := fun hfree => Header.read?_eq_none_of_header hw (hn hfree) r'
    rw [List.cons_append, List.cons_append] at hs hn hn' ⊢
    rw [first?_cons_of_none hn] at hs
    obtain ⟨o, ho, he⟩ := Option.map_eq_some_iff.1 hs
    cases he
    rw [first?_cons_of_none hn', ih ho hw]
    rfl

/-- What is found in a text leads every text that has the same beginning through the brace. -/
theorem leads_of_first? {t : Text} {o : Opening} (h : first? none t = some o) :
    Leads o.before o.header := by
  intro rest
  refine first?_of_same_header (r := o.rest) ?_ rest
  rw [← text, text_of_first? h]
  exact h

end Opening

/-! ## Places in bytes -/

namespace Mark

/-- The places where a header stands in a source: the keyword continues no word, and the written
form of a well-formed header and its brace follow. -/
def Fits (source : Text) (m : Mark) : Prop :=
  ∃ (before : Text) (h : Header) (rest : Text),
    source = before ++ h.text ++ '{' :: rest ∧ h.WellFormed ∧
      Text.standsFree before.getLast? = true ∧
      m.start = Text.size before ∧ m.brace = Text.size before + Text.size h.text

theorem Fits.start_lt_brace {source : Text} {m : Mark} (h : m.Fits source) :
    m.start < m.brace := by
  obtain ⟨before, hd, rest, rfl, -, -, hs, hb⟩ := h
  have : 0 < Text.size hd.text := by
    rw [hd.text_eq, Text.size_append, Text.size_cons]
    have := (')').utf8Size_pos
    omega
  omega

theorem Fits.brace_lt_size {source : Text} {m : Mark} (h : m.Fits source) :
    m.brace < Text.size source := by
  obtain ⟨before, hd, rest, rfl, -, -, hs, hb⟩ := h
  have := ('{').utf8Size_pos
  simp only [Text.size_append, Text.size_cons]
  omega

/-- Of two headers that overlap, both have the brace of the first. -/
theorem Fits.brace_eq {source : Text} {m k : Mark} (hm : m.Fits source) (hk : k.Fits source)
    (hstart : m.start ≤ k.start) (hbrace : k.start ≤ m.brace) : k.brace = m.brace := by
  obtain ⟨a, h₁, r₁, rfl, w₁, -, hs₁, hb₁⟩ := hm
  obtain ⟨b, h₂, r₂, e, w₂, -, hs₂, hb₂⟩ := hk
  rw [List.append_assoc, List.append_assoc] at e
  obtain ⟨c, rfl, hc⟩ := Text.exists_append_of_size_le e (by omega)
  rw [← List.append_assoc] at hc
  simp only [Text.size_append] at hs₂ hb₂
  rcases Header.overlap w₁ w₂ hc with ⟨d, rfl⟩ | ⟨htext, -⟩
  · simp only [Text.size_append, Text.size_cons] at hs₂
    have := ('{').utf8Size_pos
    omega
  · rw [htext, Text.size_append] at hb₁
    omega

/-- What is found from an offset on is a header. -/
theorem fits_of_find? {source : Text} {offset : Nat} {m : Mark}
    (h : find? source offset = some m) : m.Fits source := by
  obtain ⟨o, ho, rfl⟩ := Option.map_eq_some_iff.1 h
  obtain ⟨hw, hfree⟩ := Opening.header_of_first? ho
  have htext := Opening.text_of_first? ho
  refine ⟨Text.takeBytes offset source ++ o.before, o.header, o.rest, ?_, hw, ?_, by simp, by simp⟩
  · have hcut := Text.takeBytes_append_dropBytes offset source
    rw [← htext, Opening.text] at hcut
    simpa using hcut.symm
  · rwa [List.getLast?_append]

/-- What is found from an offset on does not start before it. -/
theorem le_start_of_find? {source : Text} {offset : Nat} {m : Mark}
    (h : find? source offset = some m) : offset ≤ m.start := by
  obtain ⟨o, ho, rfl⟩ := Option.map_eq_some_iff.1 h
  have hne : Text.dropBytes offset source ≠ [] := by
    intro hnil
    rw [hnil] at ho
    cases ho
  exact Nat.le_trans (Text.le_size_takeBytes hne) (Nat.le_add_right _ _)

/-- From an offset on, a header is found that starts no later than any other. -/
theorem exists_find?_of_fits {source : Text} {offset : Nat} {m : Mark} (hm : m.Fits source)
    (hle : offset ≤ m.start) : ∃ k, find? source offset = some k ∧ k.start ≤ m.start := by
  obtain ⟨before, h, rest, rfl, hw, hfree, hs, -⟩ := hm
  rw [hs] at hle
  have hcut := Text.takeBytes_append_dropBytes offset before
  rw [← hcut, List.getLast?_append] at hfree
  obtain ⟨o, c, ho, hc⟩ := Opening.exists_first?_of_header hw hfree rest
  rw [find?, List.append_assoc, Text.takeBytes_append_of_le hle, Text.dropBytes_append_of_le hle,
    ← List.append_assoc, ho]
  refine ⟨_, rfl, ?_⟩
  have hsize := congrArg Text.size hcut
  rw [hc, Text.size_append, Text.size_append] at hsize
  show Text.size (Text.takeBytes offset before) + Text.size o.before ≤ m.start
  omega

end Mark

end TimeLimit
