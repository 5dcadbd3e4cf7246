import TimeLimit.Text.Bytes

/-!
# Texts from bytes

Bytes are decoded one by one (`Text.decodeFrom`). Behind the first bytes of a character it is known
how many more belong to it and what the next one may be (`Text.Partial`); a byte that cannot stand
where it does makes what was read so far no character. `Text.decode?` gives the text that bytes
encode, and it inverts the encoding: it answers exactly for the bytes of texts
(`Text.decode?_eq_some_iff`). `Text.lossy` puts a replacement character for each part that is none.
-/

namespace TimeLimit

namespace Text

/-- What is known of a character whose first bytes were read. -/
structure Partial where
  /-- How many bytes follow the next one. -/
  missing : Nat
  /-- The digits that were read. -/
  code : Nat
  /-- The least that the next byte may be. -/
  low : Nat
  /-- What the next byte must be less than. -/
  high : Nat

/-- What a first byte is: a character by itself or none, or the start of a longer one. The ranges
leave out longer encodings of what has a shorter one, surrogates, and numbers that are too large. -/
def first (b : Nat) : Option Char ⊕ Partial :=
  if b < 0x80 then .inl (some (Char.ofNat b))
  else if b < 0xC2 then .inl none
  else if b < 0xE0 then .inr ⟨0, b - 0xC0, 0x80, 0xC0⟩
  else if b < 0xF0 then
    .inr ⟨1, b - 0xE0, if b = 0xE0 then 0xA0 else 0x80, if b = 0xED then 0xA0 else 0xC0⟩
  else if b < 0xF5 then
    .inr ⟨2, b - 0xF0, if b = 0xF0 then 0x90 else 0x80, if b = 0xF4 then 0x90 else 0xC0⟩
  else .inl none

/-- Decodes bytes, behind the first bytes of a character or behind whole ones; what is no character
is given as `none`. -/
def decodeFrom : Option Partial → List UInt8 → List (Option Char)
  | none, [] => []
  | some _, [] => [none]
  | none, b :: bs =>
    match first b.toNat with
    | .inl c => c :: decodeFrom none bs
    | .inr p => decodeFrom (some p) bs
  | some p, b :: bs =>
    if p.low ≤ b.toNat ∧ b.toNat < p.high then
      match p.missing with
      | 0 => some (Char.ofNat (p.code * 64 + b.toNat % 64)) :: decodeFrom none bs
      | n + 1 => decodeFrom (some ⟨n, p.code * 64 + b.toNat % 64, 0x80, 0xC0⟩) bs
    else
      none :: match first b.toNat with
        | .inl c => c :: decodeFrom none bs
        | .inr p => decodeFrom (some p) bs

/-- All characters, if none is missing. -/
def whole? : List (Option Char) → Option Text
  | [] => some []
  | none :: _ => none
  | some c :: cs => (whole? cs).map (c :: ·)

/-- The text that bytes encode, if they encode one. -/
def decode? (bs : List UInt8) : Option Text :=
  whole? (decodeFrom none bs)

/-- The text of bytes in which what is no character is replaced. -/
def lossy (bs : List UInt8) : Text :=
  (decodeFrom none bs).map (·.getD '\uFFFD')

theorem whole?_eq_some_iff {cs : List (Option Char)} {t : Text} :
    whole? cs = some t ↔ cs = t.map some := by
  induction cs generalizing t with
  | nil => cases t <;> simp [whole?]
  | cons c cs ih =>
    cases c with
    | none => cases t <;> simp [whole?]
    | some c =>
      rw [whole?, Option.map_eq_some_iff]
      constructor
      · rintro ⟨t, ht, rfl⟩
        rw [ih.1 ht, List.map_cons]
      · intro h
        cases t with
        | nil => cases h
        | cons d t =>
          obtain ⟨hc, ht⟩ := List.cons.inj h
          cases hc
          exact ⟨t, ih.2 ht, rfl⟩

/-! ## First bytes -/

section
variable {b : Nat}

theorem first_one (h : b < 0x80) : first b = .inl (some (Char.ofNat b)) :=
  if_pos h

theorem first_two (h : 0xC2 ≤ b) (h' : b < 0xE0) :
    first b = .inr ⟨0, b - 0xC0, 0x80, 0xC0⟩ := by
  rw [first, if_neg (by omega), if_neg (by omega), if_pos h']

theorem first_three (h : 0xE0 ≤ b) (h' : b < 0xF0) : first b =
    .inr ⟨1, b - 0xE0, if b = 0xE0 then 0xA0 else 0x80, if b = 0xED then 0xA0 else 0xC0⟩ := by
  rw [first, if_neg (by omega), if_neg (by omega), if_neg (by omega), if_pos h']

theorem first_four (h : 0xF0 ≤ b) (h' : b < 0xF5) : first b =
    .inr ⟨2, b - 0xF0, if b = 0xF0 then 0x90 else 0x80, if b = 0xF4 then 0x90 else 0xC0⟩ := by
  rw [first, if_neg (by omega), if_neg (by omega), if_neg (by omega), if_neg (by omega), if_pos h']

/-- A first byte that is no character and starts none. -/
theorem first_none (h : 0x80 ≤ b ∧ b < 0xC2 ∨ 0xF5 ≤ b) : first b = .inl none := by
  rw [first, if_neg (by omega)]
  split
  · rfl
  · rw [if_neg (by omega), if_neg (by omega), if_neg (by omega)]

end

/-! ## Decoding what was encoded -/

theorem toNat_ofNat {n : Nat} (h : n < 256) : (UInt8.ofNat n).toNat = n := by
  rw [UInt8.toNat_ofNat', Nat.mod_eq_of_lt h]

/-- The last byte of a character is read. -/
theorem decodeFrom_last {code low high b : Nat} (h : low ≤ b ∧ b < high) (hb : b < 256)
    (bs : List UInt8) : decodeFrom (some ⟨0, code, low, high⟩) (.ofNat b :: bs) =
      some (Char.ofNat (code * 64 + b % 64)) :: decodeFrom none bs := by
  rw [decodeFrom, toNat_ofNat hb, if_pos h]

/-- A byte inside a character is read. -/
theorem decodeFrom_inner {n code low high b : Nat} (h : low ≤ b ∧ b < high) (hb : b < 256)
    (bs : List UInt8) : decodeFrom (some ⟨n + 1, code, low, high⟩) (.ofNat b :: bs) =
      decodeFrom (some ⟨n, code * 64 + b % 64, 0x80, 0xC0⟩) bs := by
  rw [decodeFrom, toNat_ofNat hb, if_pos h]

theorem decodeFrom_first {b : Nat} {p : Partial} (h : first b = .inr p) (hb : b < 256)
    (bs : List UInt8) : decodeFrom none (.ofNat b :: bs) = decodeFrom (some p) bs := by
  rw [decodeFrom, toNat_ofNat hb, h]

/-- A character is read off the bytes that encode it. -/
theorem decodeFrom_encode (c : Char) (bs : List UInt8) :
    decodeFrom none (String.utf8EncodeChar c ++ bs) = some c :: decodeFrom none bs := by
  have hvalid : c.toNat < 0xd800 ∨ 0xdfff < c.toNat ∧ c.toNat < 0x110000 := c.valid
  have hchar {n : Nat} (hn : n = c.toNat) : Char.ofNat n = c := by rw [hn, Char.ofNat_toNat]
  rcases encode_ranges c with ⟨hc, he⟩ | ⟨hc, hc', he⟩ | ⟨hc, hc', he⟩ | ⟨hc, hc', he⟩ <;> rw [he]
  · rw [List.singleton_append, decodeFrom, toNat_ofNat (by omega), first_one hc, hchar rfl]
  · rw [List.cons_append, List.singleton_append,
      decodeFrom_first (first_two (by omega) (by omega)) (by omega),
      decodeFrom_last (by omega) (by omega), hchar (by omega)]
  · rw [List.cons_append, List.cons_append, List.singleton_append,
      decodeFrom_first (first_three (by omega) (by omega)) (by omega),
      decodeFrom_inner (by split <;> split <;> omega) (by omega),
      decodeFrom_last (by omega) (by omega), hchar (by omega)]
  · rw [List.cons_append, List.cons_append, List.cons_append, List.singleton_append,
      decodeFrom_first (first_four (by omega) (by omega)) (by omega),
      decodeFrom_inner (by split <;> split <;> omega) (by omega),
      decodeFrom_inner (by omega) (by omega), decodeFrom_last (by omega) (by omega),
      hchar (by omega)]

theorem decodeFrom_bytes (t : Text) : decodeFrom none (bytes t) = t.map some := by
  induction t with
  | nil => rfl
  | cons c t ih => rw [bytes_cons, decodeFrom_encode, ih, List.map_cons]

/-! ## What is decoded was encoded -/

/-- Where a character was begun, its last byte follows if a character comes out. -/
theorem exists_of_decodeFrom_zero {code low high : Nat} {bs : List UInt8} {c : Char}
    {cs : List (Option Char)} (h : decodeFrom (some ⟨0, code, low, high⟩) bs = some c :: cs) :
    ∃ b rest, bs = b :: rest ∧ (low ≤ b.toNat ∧ b.toNat < high) ∧
      c = Char.ofNat (code * 64 + b.toNat % 64) ∧ decodeFrom none rest = cs := by
  cases bs with
  | nil => cases h
  | cons b rest =>
    rw [decodeFrom] at h
    split at h
    · next hb =>
      obtain ⟨hc, hcs⟩ := List.cons.inj h
      exact ⟨b, rest, rfl, hb, (Option.some.inj hc).symm, hcs⟩
    · cases (List.cons.inj h).1

/-- Where a character was begun, a further byte follows if a character comes out. -/
theorem exists_of_decodeFrom_succ {n code low high : Nat} {bs : List UInt8} {c : Char}
    {cs : List (Option Char)} (h : decodeFrom (some ⟨n + 1, code, low, high⟩) bs = some c :: cs) :
    ∃ b rest, bs = b :: rest ∧ (low ≤ b.toNat ∧ b.toNat < high) ∧
      decodeFrom (some ⟨n, code * 64 + b.toNat % 64, 0x80, 0xC0⟩) rest = some c :: cs := by
  cases bs with
  | nil => cases h
  | cons b rest =>
    rw [decodeFrom] at h
    split at h
    · next hb => exact ⟨b, rest, rfl, hb, h⟩
    · cases (List.cons.inj h).1

theorem toNat_charOfNat {n : Nat} (h : n < 0xd800 ∨ 0xdfff < n ∧ n < 0x110000) :
    (Char.ofNat n).toNat = n := by
  rw [Char.ofNat, dif_pos h]
  rfl

theorem ofNat_eq {n : Nat} {b : UInt8} (h : n = b.toNat) : UInt8.ofNat n = b := by
  rw [h, UInt8.ofNat_toNat]

section
variable {b b₁ b₂ b₃ : UInt8}

/-- A byte of the ASCII range is the character of its number. -/
theorem encode_one (hb : b.toNat < 0x80) : String.utf8EncodeChar (Char.ofNat b.toNat) = [b] := by
  have hc : (Char.ofNat b.toNat).toNat = b.toNat := toNat_charOfNat (by omega)
  rcases encode_ranges (Char.ofNat b.toNat) with ⟨-, he⟩ | ⟨hr, -⟩ | ⟨hr, -⟩ | ⟨hr, -⟩
  · rw [he, ofNat_eq hc]
  all_goals omega

/-- The digits of two bytes make the character that these bytes encode. -/
theorem encode_two (hb : 0xC2 ≤ b.toNat ∧ b.toNat < 0xE0) (h₁ : 0x80 ≤ b₁.toNat ∧ b₁.toNat < 0xC0) :
    String.utf8EncodeChar (Char.ofNat ((b.toNat - 0xC0) * 64 + b₁.toNat % 64)) = [b, b₁] := by
  generalize hn : (b.toNat - 0xC0) * 64 + b₁.toNat % 64 = n
  have hc : (Char.ofNat n).toNat = n := toNat_charOfNat (by omega)
  rcases encode_ranges (Char.ofNat n) with hr | ⟨-, -, he⟩ | ⟨hr, -⟩ | ⟨hr, -⟩
  · omega
  · rw [he, hc, ofNat_eq (b := b) (by omega), ofNat_eq (b := b₁) (by omega)]
  all_goals omega

/-- So do those of three bytes. The bounds of the second one leave out surrogates and characters
that two bytes encode. -/
theorem encode_three (hb : 0xE0 ≤ b.toNat ∧ b.toNat < 0xF0)
    (h₁ : (if b.toNat = 0xE0 then 0xA0 else 0x80) ≤ b₁.toNat ∧
      b₁.toNat < if b.toNat = 0xED then 0xA0 else 0xC0)
    (h₂ : 0x80 ≤ b₂.toNat ∧ b₂.toNat < 0xC0) : String.utf8EncodeChar
      (Char.ofNat (((b.toNat - 0xE0) * 64 + b₁.toNat % 64) * 64 + b₂.toNat % 64)) =
        [b, b₁, b₂] := by
  generalize hn : ((b.toNat - 0xE0) * 64 + b₁.toNat % 64) * 64 + b₂.toNat % 64 = n
  have hrange : 0x800 ≤ n ∧ n < 0x10000 ∧ (n < 0xd800 ∨ 0xdfff < n) ∧
      0x80 ≤ b₁.toNat ∧ b₁.toNat < 0xC0 := by
    split at h₁ <;> split at h₁ <;> omega
  have hc : (Char.ofNat n).toNat = n := toNat_charOfNat (by omega)
  rcases encode_ranges (Char.ofNat n) with hr | ⟨-, hr, -⟩ | ⟨-, -, he⟩ | ⟨hr, -⟩
  · omega
  · omega
  · rw [he, hc, ofNat_eq (b := b) (by omega), ofNat_eq (b := b₁) (by omega),
      ofNat_eq (b := b₂) (by omega)]
  · omega

/-- So do those of four bytes. The bounds of the second one leave out characters that three bytes
encode and numbers that are too large. -/
theorem encode_four (hb : 0xF0 ≤ b.toNat ∧ b.toNat < 0xF5)
    (h₁ : (if b.toNat = 0xF0 then 0x90 else 0x80) ≤ b₁.toNat ∧
      b₁.toNat < if b.toNat = 0xF4 then 0x90 else 0xC0)
    (h₂ : 0x80 ≤ b₂.toNat ∧ b₂.toNat < 0xC0) (h₃ : 0x80 ≤ b₃.toNat ∧ b₃.toNat < 0xC0) :
    String.utf8EncodeChar (Char.ofNat
      ((((b.toNat - 0xF0) * 64 + b₁.toNat % 64) * 64 + b₂.toNat % 64) * 64 + b₃.toNat % 64)) =
        [b, b₁, b₂, b₃] := by
  generalize hn : (((b.toNat - 0xF0) * 64 + b₁.toNat % 64) * 64 + b₂.toNat % 64) * 64 +
    b₃.toNat % 64 = n
  have hrange : 0x10000 ≤ n ∧ n < 0x110000 ∧ 0x80 ≤ b₁.toNat ∧ b₁.toNat < 0xC0 := by
    split at h₁ <;> split at h₁ <;> omega
  have hc : (Char.ofNat n).toNat = n := toNat_charOfNat (by omega)
  rcases encode_ranges (Char.ofNat n) with hr | ⟨-, hr, -⟩ | ⟨-, hr, -⟩ | ⟨-, -, he⟩
  · omega
  · omega
  · omega
  · rw [he, hc, ofNat_eq (b := b) (by omega), ofNat_eq (b := b₁) (by omega),
      ofNat_eq (b := b₂) (by omega), ofNat_eq (b := b₃) (by omega)]

end

/-- A character that comes out first was encoded by the first bytes. -/
theorem exists_of_decodeFrom {bs : List UInt8} {c : Char} {cs : List (Option Char)}
    (h : decodeFrom none bs = some c :: cs) :
    ∃ rest, bs = String.utf8EncodeChar c ++ rest ∧ decodeFrom none rest = cs := by
  obtain _ | ⟨b, bs⟩ := bs
  · cases h
  have hbyte := b.toNat_lt
  rw [decodeFrom] at h
  rcases (by omega : b.toNat < 0x80 ∨ (0x80 ≤ b.toNat ∧ b.toNat < 0xC2 ∨ 0xF5 ≤ b.toNat) ∨
    (0xC2 ≤ b.toNat ∧ b.toNat < 0xE0) ∨ (0xE0 ≤ b.toNat ∧ b.toNat < 0xF0) ∨
    (0xF0 ≤ b.toNat ∧ b.toNat < 0xF5)) with hb | hb | hb | hb | hb
  · rw [first_one hb] at h
    obtain ⟨hc, hcs⟩ := List.cons.inj h
    cases hc
    exact ⟨bs, by rw [encode_one hb, List.singleton_append], hcs⟩
  · rw [first_none hb] at h
    cases (List.cons.inj h).1
  · rw [first_two hb.1 hb.2] at h
    obtain ⟨b₁, rest, rfl, h₁, rfl, hcs⟩ := exists_of_decodeFrom_zero h
    exact ⟨rest, by rw [encode_two hb h₁]; rfl, hcs⟩
  · rw [first_three hb.1 hb.2] at h
    obtain ⟨b₁, rest, rfl, h₁, h⟩ := exists_of_decodeFrom_succ h
    obtain ⟨b₂, rest, rfl, h₂, rfl, hcs⟩ := exists_of_decodeFrom_zero h
    exact ⟨rest, by rw [encode_three hb h₁ h₂]; rfl, hcs⟩
  · rw [first_four hb.1 hb.2] at h
    obtain ⟨b₁, rest, rfl, h₁, h⟩ := exists_of_decodeFrom_succ h
    obtain ⟨b₂, rest, rfl, h₂, h⟩ := exists_of_decodeFrom_succ h
    obtain ⟨b₃, rest, rfl, h₃, rfl, hcs⟩ := exists_of_decodeFrom_zero h
    exact ⟨rest, by rw [encode_four hb h₁ h₂ h₃]; rfl, hcs⟩

/-- Something comes out where a character was begun. -/
theorem decodeFrom_some_ne_nil (p : Partial) (bs : List UInt8) : decodeFrom (some p) bs ≠ [] := by
  induction bs generalizing p with
  | nil => exact List.cons_ne_nil _ _
  | cons b bs ih =>
    rw [decodeFrom]
    split
    · split
      · exact List.cons_ne_nil _ _
      · exact ih _
    · exact List.cons_ne_nil _ _

theorem decodeFrom_none_eq_nil_iff {bs : List UInt8} : decodeFrom none bs = [] ↔ bs = [] := by
  constructor
  · cases bs with
    | nil => exact fun _ => rfl
    | cons b bs =>
      rw [decodeFrom]
      split
      · exact fun h => absurd h (List.cons_ne_nil _ _)
      · exact fun h => absurd h (decodeFrom_some_ne_nil _ _)
  · rintro rfl
    rfl

/-- **Bytes are decoded as the text that they encode.** There is a text exactly for the bytes of
one, and it is that text. -/
theorem decode?_eq_some_iff {bs : List UInt8} {t : Text} :
    decode? bs = some t ↔ bs = bytes t := by
  rw [decode?, whole?_eq_some_iff]
  constructor
  · intro h
    induction t generalizing bs with
    | nil => exact decodeFrom_none_eq_nil_iff.1 h
    | cons c t ih =>
      obtain ⟨rest, rfl, hrest⟩ := exists_of_decodeFrom h
      rw [ih hrest, bytes_cons]
  · rintro rfl
    exact decodeFrom_bytes t

theorem decode?_bytes (t : Text) : decode? (bytes t) = some t :=
  decode?_eq_some_iff.2 rfl

/-- Different texts have different bytes. -/
theorem bytes_injective {s t : Text} (h : bytes s = bytes t) : s = t :=
  Option.some.inj ((decode?_bytes s).symm.trans (h ▸ decode?_bytes t))

/-- Nothing is replaced in the bytes of a text. -/
theorem lossy_bytes (t : Text) : lossy (bytes t) = t := by
  rw [lossy, decodeFrom_bytes, List.map_map]
  exact List.map_id t

/-- What stands in no character is replaced, and what was read before starts afresh behind it. -/
example : lossy [0x61, 0xE2, 0x82, 0x62, 0xFF] = ['a', '\uFFFD', 'b', '\uFFFD'] := by decide

end Text

end TimeLimit
