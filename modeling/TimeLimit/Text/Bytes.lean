import TimeLimit.Text.Basic

/-!
# Bytes of texts

The encoding of a text. A character of the ASCII range is one byte, and the bytes of any other
character are outside that range (`encode_cases`), so a search of the bytes for an ASCII character
finds that character and nothing else. An offset may lie inside a character; cut there, the bytes
are those of the text cut by characters but for some bytes outside the ASCII range (`bytes_cut`).
-/

namespace TimeLimit

namespace Text

/-- The bytes that encode a text. -/
def bytes (t : Text) : List UInt8 :=
  t.flatMap String.utf8EncodeChar

/-- The byte of an ASCII character. -/
def byte (c : Char) : UInt8 :=
  UInt8.ofNat c.toNat

@[simp] theorem bytes_nil : bytes [] = [] := rfl

theorem bytes_cons (c : Char) (t : Text) : bytes (c :: t) = String.utf8EncodeChar c ++ bytes t :=
  List.flatMap_cons

@[simp] theorem length_bytes (t : Text) : (bytes t).length = size t := by
  induction t with
  | nil => rfl
  | cons c t ih => rw [bytes_cons, List.length_append, ih, String.length_utf8EncodeChar, size_cons]

/-- None of the bytes is an ASCII character. -/
def AllHigh (bs : List UInt8) : Prop :=
  ∀ b ∈ bs, 128 ≤ b.toNat

/-- A character is one ASCII byte, or none of its bytes is ASCII. -/
theorem encode_cases (c : Char) :
    (c.toNat < 128 ∧ c.utf8Size = 1 ∧ String.utf8EncodeChar c = [byte c]) ∨
      128 ≤ c.toNat ∧ AllHigh (String.utf8EncodeChar c) := by
  have hval : c.val.toNat = c.toNat := rfl
  by_cases h : c.toNat < 128
  · left
    have henc : String.utf8EncodeChar c = [byte c] := by
      rw [String.utf8EncodeChar, if_pos (by omega)]
      rfl
    refine ⟨h, ?_, henc⟩
    rw [← String.length_utf8EncodeChar, henc, List.length_singleton]
  · right
    refine ⟨by omega, fun b hb => ?_⟩
    rw [String.utf8EncodeChar, if_neg (by omega)] at hb
    split at hb
    · simp only [List.mem_cons, List.not_mem_nil, or_false] at hb
      rcases hb with rfl | rfl <;> simp <;> omega
    · split at hb
      · simp only [List.mem_cons, List.not_mem_nil, or_false] at hb
        rcases hb with rfl | rfl | rfl <;> simp <;> omega
      · simp only [List.mem_cons, List.not_mem_nil, or_false] at hb
        rcases hb with rfl | rfl | rfl | rfl <;> simp <;> omega

/-- The encoding of a character, by the range it lies in: its digits to the base 64, the first one
behind the mark of the range. -/
theorem encode_ranges (c : Char) :
    (c.toNat < 0x80 ∧ String.utf8EncodeChar c = [.ofNat c.toNat]) ∨
    (0x80 ≤ c.toNat ∧ c.toNat < 0x800 ∧ String.utf8EncodeChar c =
      [.ofNat (c.toNat / 64 % 32 + 192), .ofNat (c.toNat % 64 + 128)]) ∨
    (0x800 ≤ c.toNat ∧ c.toNat < 0x10000 ∧ String.utf8EncodeChar c =
      [.ofNat (c.toNat / 64 / 64 % 16 + 224), .ofNat (c.toNat / 64 % 64 + 128),
        .ofNat (c.toNat % 64 + 128)]) ∨
    (0x10000 ≤ c.toNat ∧ c.toNat < 0x110000 ∧ String.utf8EncodeChar c =
      [.ofNat (c.toNat / 64 / 64 / 64 % 8 + 240), .ofNat (c.toNat / 64 / 64 % 64 + 128),
        .ofNat (c.toNat / 64 % 64 + 128), .ofNat (c.toNat % 64 + 128)]) := by
  have hval : c.val.toNat = c.toNat := rfl
  have hvalid : c.toNat < 0xd800 ∨ 0xdfff < c.toNat ∧ c.toNat < 0x110000 := c.valid
  rw [String.utf8EncodeChar, hval]
  simp only [Nat.div_div_eq_div_mul, Nat.reduceMul]
  split
  · exact .inl ⟨by omega, rfl⟩
  · split
    · exact .inr (.inl ⟨by omega, by omega, rfl⟩)
    · split
      · exact .inr (.inr (.inl ⟨by omega, by omega, rfl⟩))
      · exact .inr (.inr (.inr ⟨by omega, by omega, rfl⟩))

theorem encode_of_ascii {c : Char} (h : c.toNat < 128) :
    String.utf8EncodeChar c = [byte c] ∧ c.utf8Size = 1 := by
  rcases encode_cases c with ⟨-, hsize, henc⟩ | ⟨hc, -⟩
  · exact ⟨henc, hsize⟩
  · omega

/-- Behind its first byte, a character has no ASCII byte. -/
theorem exists_encode_eq_cons (c : Char) :
    ∃ b bs, String.utf8EncodeChar c = b :: bs ∧ AllHigh bs := by
  rcases encode_cases c with ⟨-, -, henc⟩ | ⟨-, hhigh⟩
  · exact ⟨byte c, [], henc, List.forall_mem_nil _⟩
  · obtain ⟨b, bs, henc⟩ := List.exists_cons_of_ne_nil
      (List.ne_nil_of_length_pos (String.length_utf8EncodeChar c ▸ c.utf8Size_pos))
    exact ⟨b, bs, henc, fun x hx => hhigh x (henc ▸ List.mem_cons_of_mem b hx)⟩

/-- An ASCII character is told by its byte. -/
theorem byte_inj {c d : Char} (hc : c.toNat < 128) (hd : d.toNat < 128) :
    byte c = byte d ↔ c = d := by
  refine ⟨fun h => ?_, congrArg byte⟩
  have := congrArg UInt8.toNat h
  simp only [byte, UInt8.toNat_ofNat'] at this
  exact Char.toNat_inj.1 (by omega)

/-- A byte outside the ASCII range is not the byte of an ASCII character. -/
theorem ne_byte_of_high {b : UInt8} {d : Char} (hb : 128 ≤ b.toNat) (hd : d.toNat < 128) :
    b ≠ byte d := by
  rintro rfl
  rw [byte, UInt8.toNat_ofNat'] at hb
  omega

/-- A text starts with an ASCII character when its bytes start with that byte. -/
theorem head?_bytes {d : Char} (hd : d.toNat < 128) (t : Text) :
    (bytes t).head? = some (byte d) ↔ t.head? = some d := by
  cases t with
  | nil => simp
  | cons c t =>
    rw [bytes_cons, List.head?_cons, Option.some.injEq]
    rcases encode_cases c with ⟨hc, -, henc⟩ | ⟨hc, hhigh⟩
    · rw [henc, List.singleton_append, List.head?_cons, Option.some.injEq, byte_inj hc hd]
    · obtain ⟨b, bs, henc, -⟩ := exists_encode_eq_cons c
      rw [henc, List.cons_append, List.head?_cons, Option.some.injEq]
      have hb : b ≠ byte d := ne_byte_of_high (hhigh b (henc ▸ List.mem_cons_self)) hd
      have hne : c ≠ d := by
        rintro rfl
        omega
      exact iff_of_false hb hne

/-- Cut at an offset, the bytes of a text are those of the text cut there, but for the bytes of a
character that the offset lies in. -/
theorem bytes_cut (n : Nat) (t : Text) :
    ∃ conts, AllHigh conts ∧ bytes (takeBytes n t) = (bytes t).take n ++ conts ∧
      (n ≤ size t → (bytes t).drop n = conts ++ bytes (dropBytes n t)) := by
  fun_induction takeBytes n t with
  | case1 t => exact ⟨[], List.forall_mem_nil _, rfl, fun _ => by rw [dropBytes]; rfl⟩
  | case2 n => exact ⟨[], List.forall_mem_nil _, rfl, fun h => absurd h (Nat.not_succ_le_zero n)⟩
  | case3 n c t ih =>
    have hlength := String.length_utf8EncodeChar c
    by_cases hle : c.utf8Size ≤ n + 1
    · -- the cut is behind the character
      obtain ⟨conts, hhigh, htake, hdrop⟩ := ih
      refine ⟨conts, hhigh, ?_, fun h => ?_⟩
      · rw [bytes_cons, bytes_cons, htake, List.take_append, Nat.succ_eq_add_one, hlength,
          List.take_of_length_le (l := String.utf8EncodeChar c) (by omega), List.append_assoc]
      · rw [bytes_cons, dropBytes, List.drop_append, Nat.succ_eq_add_one, hlength,
          List.drop_of_length_le (l := String.utf8EncodeChar c) (by omega), List.nil_append]
        rw [size_cons] at h
        exact hdrop (by omega)
    · -- the cut is inside the character
      have hzero : n + 1 - c.utf8Size = 0 := by omega
      have hhigh : AllHigh (String.utf8EncodeChar c) := by
        rcases encode_cases c with ⟨-, hsize, -⟩ | ⟨-, hhigh⟩
        · omega
        · exact hhigh
      refine ⟨(String.utf8EncodeChar c).drop (n + 1), fun b hb => hhigh b (List.mem_of_mem_drop hb),
        ?_, fun _ => ?_⟩
      · rw [bytes_cons, bytes_cons, List.take_append_of_le_length (by omega), hzero, takeBytes,
          bytes_nil, List.append_nil, List.take_append_drop]
      · rw [bytes_cons, dropBytes, hzero, dropBytes, List.drop_append_of_le_length (by omega)]

end Text

end TimeLimit
