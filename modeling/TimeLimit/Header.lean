import TimeLimit.Text.Blank
import TimeLimit.Text.Word

/-!
# Headers of async tests

The one call shape that is understood: the keyword `test`, an opening parenthesis, arguments
without a closing parenthesis, the closing parenthesis of the closure, the keyword `async` and the
brace that opens the body, with blanks allowed around the parentheses and before the brace. A
`Header` holds what varies in that shape and `Header.text` writes it out; `Header.read?` reads it
back, and it accepts exactly the written forms (`Header.read?_eq_some_iff`), so a text starts with
at most one header. The reading is purely textual: a header inside a string or a comment counts.
-/

namespace TimeLimit

/-- What varies in a header. -/
structure Header where
  /-- Blanks between the keyword and its parenthesis. -/
  gap : Text
  /-- Everything between the two parentheses, the closure's own `(` included. -/
  arguments : Text
  /-- Blanks before `async`. -/
  asyncGap : Text
  /-- Blanks before the body's brace. -/
  bodyGap : Text
  deriving DecidableEq, Repr

namespace Header

/-- The keyword of a test call. -/
def testWord : Text := ['t', 'e', 's', 't']

/-- The keyword of an asynchronous closure. -/
def asyncWord : Text := ['a', 's', 'y', 'n', 'c']

/-- The header as it is written, up to the body's brace and without it. -/
def text (h : Header) : Text :=
  testWord ++ h.gap ++ '(' :: (h.arguments ++ ')' :: (h.asyncGap ++ asyncWord ++ h.bodyGap))

/-- The gaps of a header are blank, and its arguments are there and hold no `)`. -/
structure WellFormed (h : Header) : Prop where
  gap_blank : ∀ c ∈ h.gap, Text.isBlank c = true
  arguments_ne_nil : h.arguments ≠ []
  arguments_open : ')' ∉ h.arguments
  asyncGap_blank : ∀ c ∈ h.asyncGap, Text.isBlank c = true
  bodyGap_blank : ∀ c ∈ h.bodyGap, Text.isBlank c = true

/-- The arguments before the first `)`, at least one character of them, and what follows it. -/
def readArguments? (t : Text) : Option (Text × Text) :=
  if (t.takeWhile (· != ')')).isEmpty then none
  else (Text.after? [')'] (t.dropWhile (· != ')'))).map (t.takeWhile (· != ')'), ·)

/-- The header at the front of a text and what follows the brace that ends it. -/
def read? (t : Text) : Option (Header × Text) := do
  let t₁ ← Text.after? testWord t
  let t₂ ← Text.after? ['('] (t₁.dropWhile Text.isBlank)
  let (arguments, t₃) ← readArguments? t₂
  let t₄ ← Text.after? asyncWord (t₃.dropWhile Text.isBlank)
  let rest ← Text.after? ['{'] (t₄.dropWhile Text.isBlank)
  return (⟨t₁.takeWhile Text.isBlank, arguments, t₃.takeWhile Text.isBlank,
    t₄.takeWhile Text.isBlank⟩, rest)

/-! ## Reading and writing -/

/-- A run of characters ends at the first character outside it. -/
theorem takeWhile_run {p : Char → Bool} {b u : Text} {x : Char} (hb : ∀ c ∈ b, p c = true)
    (hx : p x = false) : (b ++ x :: u).takeWhile p = b := by
  rw [List.takeWhile_append_of_pos hb, List.takeWhile_cons_of_neg (by simp [hx]), List.append_nil]

theorem dropWhile_run {p : Char → Bool} {b u : Text} {x : Char} (hb : ∀ c ∈ b, p c = true)
    (hx : p x = false) : (b ++ x :: u).dropWhile p = x :: u := by
  rw [List.dropWhile_append_of_pos hb, List.dropWhile_cons_of_neg (by simp [hx])]

/-- Arguments are read off exactly the texts that put them, without a `)`, before one. -/
theorem readArguments?_eq_some_iff {t a r : Text} :
    readArguments? t = some (a, r) ↔ a ≠ [] ∧ ')' ∉ a ∧ t = a ++ ')' :: r := by
  constructor
  · intro h
    simp only [readArguments?, Option.ite_none_left_eq_some, Option.map_eq_some_iff,
      Text.after?_eq_some_iff, Prod.mk.injEq] at h
    obtain ⟨hne, r', hr, rfl, rfl⟩ := h
    refine ⟨by simpa using hne, fun hc => ?_, ?_⟩
    · have := List.all_eq_true.1 (List.all_takeWhile (p := (· != ')')) (l := t)) ')' hc
      simp at this
    · have := List.takeWhile_append_dropWhile (p := (· != ')')) (l := t)
      rw [hr] at this
      simpa using this.symm
  · rintro ⟨hne, hmem, rfl⟩
    have hargs : ∀ c ∈ a, (c != ')') = true := by
      intro c hc
      simp only [bne_iff_ne, ne_eq]
      rintro rfl
      exact hmem hc
    simp [readArguments?, takeWhile_run hargs, dropWhile_run hargs, hne, Text.after?]

/-- What is written is read back, whatever follows the brace. -/
theorem read?_text_append {h : Header} (hw : h.WellFormed) (r : Text) :
    read? (h.text ++ '{' :: r) = some (h, r) := by
  obtain ⟨h₁, h₂, h₃, h₄, h₅⟩ := hw
  have hopen : Text.isBlank '(' = false := by decide
  have ha : Text.isBlank 'a' = false := by decide
  have hbrace : Text.isBlank '{' = false := by decide
  have hargs (u : Text) : readArguments? (h.arguments ++ ')' :: u) = some (h.arguments, u) :=
    readArguments?_eq_some_iff.2 ⟨h₂, h₃, rfl⟩
  simp [read?, text, testWord, asyncWord, Text.after?, takeWhile_run h₁ hopen,
    dropWhile_run h₁ hopen, hargs, takeWhile_run h₄ ha, dropWhile_run h₄ ha,
    takeWhile_run h₅ hbrace, dropWhile_run h₅ hbrace]

/-- What is read is a well-formed header in its written form. -/
theorem eq_of_read? {t r : Text} {h : Header} (hr : read? t = some (h, r)) :
    h.WellFormed ∧ t = h.text ++ '{' :: r := by
  simp only [read?, Option.bind_eq_bind, Option.bind_eq_some_iff, Text.after?_eq_some_iff,
    Prod.exists, readArguments?_eq_some_iff, pure, Option.some.injEq, Prod.mk.injEq] at hr
  obtain ⟨t₁, rfl, t₂, h₂, a, t₃, ⟨hne, hmem, rfl⟩, t₄, h₄, r', h₅, rfl, rfl⟩ := hr
  have blanks (u : Text) : ∀ c ∈ u.takeWhile Text.isBlank, Text.isBlank c = true :=
    fun c hc => List.all_eq_true.1 List.all_takeWhile c hc
  refine ⟨⟨blanks _, hne, hmem, blanks _, blanks _⟩, ?_⟩
  have e₁ := List.takeWhile_append_dropWhile (p := Text.isBlank) (l := t₁)
  have e₃ := List.takeWhile_append_dropWhile (p := Text.isBlank) (l := t₃)
  have e₄ := List.takeWhile_append_dropWhile (p := Text.isBlank) (l := t₄)
  rw [h₂] at e₁
  rw [h₄] at e₃
  rw [h₅] at e₄
  simp only [text, List.append_assoc, List.cons_append, List.nil_append] at *
  rw [e₄, e₃, e₁]

/-- A text starts with a header exactly when it is that header's written form, a brace and the
rest. -/
theorem read?_eq_some_iff {t r : Text} {h : Header} :
    read? t = some (h, r) ↔ h.WellFormed ∧ t = h.text ++ '{' :: r :=
  ⟨eq_of_read?, fun ⟨hw, ht⟩ => ht ▸ read?_text_append hw r⟩

end Header

end TimeLimit
