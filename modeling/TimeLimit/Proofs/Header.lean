import TimeLimit.Header

/-!
# Overlapping headers

A header has one `)` (`Header.text_eq`): no `)` stands in its front, and its back holds neither the
brace that ends a header nor the letter that starts one. So two headers of one text overlap in one
way only: the second one starts inside the arguments of the first, and both end at the same brace
(`Header.overlap`). This is what makes a header independent of the text behind its brace: whether a
place before a header starts a header of its own is decided up to that brace
(`Header.read?_eq_none_of_header`).
-/

namespace TimeLimit

namespace Header

/-- The part of a header up to the parenthesis that closes its arguments. -/
def front (h : Header) : Text :=
  testWord ++ h.gap ++ '(' :: h.arguments

/-- The part of a header behind that parenthesis. -/
def back (h : Header) : Text :=
  h.asyncGap ++ asyncWord ++ h.bodyGap

theorem text_eq (h : Header) : h.text = h.front ++ ')' :: h.back := by
  simp [text, front, back]

/-- A header starts with the first letter of its keyword. -/
theorem front_eq_cons (h : Header) : ∃ t, h.front = 't' :: t :=
  ⟨_, rfl⟩

/-- The front of a header closes no parenthesis. -/
theorem WellFormed.closer_not_mem_front {h : Header} (hw : h.WellFormed) : ')' ∉ h.front := by
  have hgap := Text.not_mem_of_isBlank hw.gap_blank (x := ')') (by decide)
  simp [front, testWord, hgap, hw.arguments_open]

/-- A character outside `async` that is not blank does not stand in the back of a header. -/
theorem WellFormed.not_mem_back {h : Header} (hw : h.WellFormed) {x : Char}
    (hx : Text.isBlank x = false) (ha : x ∉ asyncWord) : x ∉ h.back := by
  have h₁ := Text.not_mem_of_isBlank hw.asyncGap_blank hx
  have h₂ := Text.not_mem_of_isBlank hw.bodyGap_blank hx
  simp [back, h₁, h₂, ha]

/-- Of two headers of one text, the first one ends before the second one starts, or the second one
starts inside the first and both share their brace. -/
theorem overlap {h₁ h₂ : Header} (w₁ : h₁.WellFormed) (w₂ : h₂.WellFormed) {b r₁ r₂ : Text}
    (e : h₁.text ++ '{' :: r₁ = b ++ h₂.text ++ '{' :: r₂) :
    (∃ c, b = h₁.text ++ '{' :: c) ∨ (h₁.text = b ++ h₂.text ∧ r₁ = r₂) := by
  have hfront₁ := w₁.closer_not_mem_front
  have hfront₂ := w₂.closer_not_mem_front
  have hbrace₁ := w₁.not_mem_back (x := '{') (by decide) (by decide)
  have hbrace₂ := w₂.not_mem_back (x := '{') (by decide) (by decide)
  rw [text_eq h₁, text_eq h₂] at e ⊢
  simp only [List.append_assoc, List.cons_append] at e
  by_cases hb : ')' ∈ b
  · -- the first `)` of `b` closes the arguments of `h₁`, whose back is too short for `h₂`
    left
    obtain ⟨b₁, b₂, rfl, hb₁⟩ := List.eq_append_cons_of_mem hb
    rw [List.append_assoc, List.cons_append] at e
    obtain ⟨rfl, hrest⟩ := Text.cut_unique hfront₁ hb₁ e
    rcases List.append_eq_append_iff.1 hrest with ⟨c, rfl, hc⟩ | ⟨c, hback, hc⟩
    · cases c with
      | nil =>
        obtain ⟨t, ht⟩ := h₂.front_eq_cons
        simp [ht] at hc
      | cons x c =>
        obtain ⟨rfl, -⟩ := List.cons.inj hc
        exact ⟨c, by simp⟩
    · obtain ⟨t, ht⟩ := h₂.front_eq_cons
      rw [ht] at hc
      cases c with
      | nil => simp at hc
      | cons x c =>
        obtain ⟨rfl, -⟩ := List.cons.inj hc
        have := w₁.not_mem_back (x := 't') (by decide) (by decide)
        exact absurd (by simp [hback]) this
  · -- the arguments of both end at the same `)`
    right
    rw [← List.append_assoc] at e
    obtain ⟨hfront, hrest⟩ := Text.cut_unique hfront₁ (by simp [hb, hfront₂]) e
    obtain ⟨hback, hr⟩ := Text.cut_unique hbrace₁ hbrace₂ hrest
    exact ⟨by simp [hfront, hback], hr⟩

/-- Whether a place before a header starts a header of its own does not depend on what follows the
brace they would share. -/
theorem read?_eq_none_of_header {h : Header} (hw : h.WellFormed) {b r : Text}
    (hn : read? (b ++ h.text ++ '{' :: r) = none) (r' : Text) :
    read? (b ++ h.text ++ '{' :: r') = none := by
  cases hs : read? (b ++ h.text ++ '{' :: r') with
  | none => rfl
  | some found =>
    obtain ⟨h', u⟩ := found
    obtain ⟨hw', e⟩ := eq_of_read? hs
    rcases overlap hw' hw e.symm with ⟨c, rfl⟩ | ⟨htext, -⟩
    · have := read?_text_append hw' (c ++ h.text ++ '{' :: r)
      simp only [List.append_assoc, List.cons_append] at hn this
      rw [hn] at this
      cases this
    · have := read?_text_append hw' r
      rw [htext, hn] at this
      cases this

end Header

end TimeLimit
