/-!
# Texts

A text is a list of characters; its offsets count the bytes of its encoding, as an editor or a
file system does. `size` measures a text, and `takeBytes` and `dropBytes` cut it at an offset:
together they give the text back (`takeBytes_append_dropBytes`), and an offset inside a character
belongs to the end of that character. `after?` reads a fixed word off the front of a text, and it
answers exactly for the texts that start with the word (`after?_eq_some_iff`).
-/

namespace TimeLimit

/-- A text is a list of characters. -/
abbrev Text := List Char

namespace Text

/-! ## Sizes and offsets -/

/-- The number of bytes a text takes when it is encoded. -/
def size (t : Text) : Nat :=
  t.foldl (fun n c => n + c.utf8Size) 0

/-- The characters of a text that start before a byte offset. -/
def takeBytes : Nat → Text → Text
  | 0, _ => []
  | _ + 1, [] => []
  | n + 1, c :: t => c :: takeBytes (n + 1 - c.utf8Size) t

/-- The rest of a text from the first character that starts at or after a byte offset. -/
def dropBytes : Nat → Text → Text
  | 0, t => t
  | _ + 1, [] => []
  | n + 1, c :: t => dropBytes (n + 1 - c.utf8Size) t

/-- The characters that start at a byte offset or later, and before a second one. -/
def slice (start stop : Nat) (t : Text) : Text :=
  dropBytes start (takeBytes stop t)

theorem foldl_utf8Size (t : Text) (n : Nat) :
    t.foldl (fun n c => n + c.utf8Size) n = n + size t := by
  induction t generalizing n with
  | nil => rfl
  | cons c t ih =>
    rw [size, List.foldl_cons, List.foldl_cons, ih, ih (0 + c.utf8Size)]
    omega

@[simp] theorem size_nil : size [] = 0 := rfl

@[simp] theorem size_cons (c : Char) (t : Text) : size (c :: t) = c.utf8Size + size t := by
  rw [size, List.foldl_cons, foldl_utf8Size]
  omega

@[simp] theorem size_append (s t : Text) : size (s ++ t) = size s + size t := by
  induction s with
  | nil => simp
  | cons c s ih => simp [ih, Nat.add_assoc]

/-- A cut at an offset loses nothing. -/
@[simp] theorem takeBytes_append_dropBytes (n : Nat) (t : Text) :
    takeBytes n t ++ dropBytes n t = t := by
  fun_induction takeBytes n t with
  | case1 => simp [dropBytes]
  | case2 => simp [dropBytes]
  | case3 n c t ih => simpa [dropBytes] using ih

/-- A cut at the size of a text separates it from whatever follows it. -/
@[simp] theorem takeBytes_size_append (s t : Text) : takeBytes (size s) (s ++ t) = s := by
  induction s with
  | nil => simp [takeBytes]
  | cons c s ih =>
    have hc := c.utf8Size_pos
    obtain ⟨n, hn⟩ : ∃ n, size (c :: s) = n + 1 := ⟨size (c :: s) - 1, by simp; omega⟩
    have hs : n + 1 - c.utf8Size = size s := by simp at hn; omega
    rw [hn, List.cons_append, takeBytes, hs, ih]

@[simp] theorem dropBytes_size_append (s t : Text) : dropBytes (size s) (s ++ t) = t := by
  have h := takeBytes_append_dropBytes (size s) (s ++ t)
  rw [takeBytes_size_append] at h
  exact List.append_cancel_left h

/-- A cut behind the end of a part keeps that part whole. -/
theorem takeBytes_append_of_size_le {s : Text} {n : Nat} (h : size s ≤ n) (t : Text) :
    takeBytes n (s ++ t) = s ++ takeBytes (n - size s) t := by
  induction s generalizing n with
  | nil => simp
  | cons c s ih =>
    have hc := c.utf8Size_pos
    simp only [size_cons] at h
    obtain ⟨n, rfl⟩ : ∃ k, n = k + 1 := ⟨n - 1, by omega⟩
    rw [List.cons_append, takeBytes, ih (by omega), List.cons_append, size_cons]
    congr 3
    omega

/-- A cut inside a part does not look behind it. -/
theorem takeBytes_append_of_le {s : Text} {n : Nat} (h : n ≤ size s) (t : Text) :
    takeBytes n (s ++ t) = takeBytes n s := by
  fun_induction takeBytes n s with
  | case1 => simp [takeBytes]
  | case2 => simp at h
  | case3 n c s ih =>
    rw [size_cons] at h
    rw [List.cons_append, takeBytes, ih (by omega)]

theorem dropBytes_append_of_le {s : Text} {n : Nat} (h : n ≤ size s) (t : Text) :
    dropBytes n (s ++ t) = dropBytes n s ++ t := by
  have hcut := takeBytes_append_dropBytes n (s ++ t)
  rw [takeBytes_append_of_le h] at hcut
  rw [← List.append_cancel_left_eq (takeBytes n s), hcut, ← List.append_assoc,
    takeBytes_append_dropBytes]

/-- Where a cut leaves something behind, it is not in front of its offset. -/
theorem le_size_takeBytes {n : Nat} {t : Text} (h : dropBytes n t ≠ []) :
    n ≤ size (takeBytes n t) := by
  fun_induction takeBytes n t with
  | case1 => simp
  | case2 => simp [dropBytes] at h
  | case3 n c t ih =>
    rw [dropBytes] at h
    have := ih h
    rw [size_cons]
    omega

theorem eq_nil_of_size_eq_zero {t : Text} (h : size t = 0) : t = [] := by
  cases t with
  | nil => rfl
  | cons c t =>
    have := c.utf8Size_pos
    rw [size_cons] at h
    omega

/-- Of two parts that start a text, the one that is not larger starts the other. -/
theorem exists_append_of_size_le {a b s t : Text} (h : a ++ s = b ++ t)
    (hle : size a ≤ size b) : ∃ c, b = a ++ c ∧ s = c ++ t := by
  rcases List.append_eq_append_iff.1 h with ⟨c, hb, hs⟩ | ⟨c, rfl, rfl⟩
  · exact ⟨c, hb, hs⟩
  · rw [size_append] at hle
    obtain rfl := eq_nil_of_size_eq_zero (t := c) (by omega)
    exact ⟨[], by simp, rfl⟩

/-- The range between two parts of a text is what stands between them. -/
theorem slice_append (s t u : Text) : slice (size s) (size (s ++ t)) (s ++ t ++ u) = t := by
  rw [slice, takeBytes_size_append, dropBytes_size_append]

/-- A text is cut in one way at the first occurrence of a character. -/
theorem cut_unique {x : Char} {a a' b b' : Text} (ha : x ∉ a) (ha' : x ∉ a')
    (h : a ++ x :: b = a' ++ x :: b') : a = a' ∧ b = b' := by
  rcases List.append_eq_append_iff.1 h with ⟨c, rfl, hc⟩ | ⟨c, rfl, hc⟩
  · cases c with
    | nil => exact ⟨by simp, (List.cons.inj hc).2⟩
    | cons y c => exact absurd (by simp [(List.cons.inj hc).1]) ha'
  · cases c with
    | nil => exact ⟨by simp, (List.cons.inj hc).2.symm⟩
    | cons y c => exact absurd (by simp [(List.cons.inj hc).1]) ha

/-! ## Ranges of characters -/

/-- Tells whether a character lies in one of some ranges of code points, given by their first and
last one. -/
def inRanges (ranges : List (Nat × Nat)) (c : Char) : Bool :=
  ranges.any fun r => decide (r.1 ≤ c.toNat) && decide (c.toNat ≤ r.2)

/-! ## Fixed words -/

/-- The rest of a text after a word that it starts with. -/
def after? : Text → Text → Option Text
  | [], t => some t
  | _ :: _, [] => none
  | w :: ws, c :: t => if w = c then after? ws t else none

/-- A word is read off exactly the texts that start with it. -/
theorem after?_eq_some_iff {w t r : Text} : after? w t = some r ↔ t = w ++ r := by
  fun_induction after? w t with
  | case1 t => simp
  | case2 => simp
  | case3 ws c t ih => simp [ih]
  | case4 w ws c t hne => simp; intro h; exact absurd h.symm hne

/-- Tells whether a word stands anywhere in a text. -/
def mentions (w : Text) : Text → Bool
  | [] => w.isEmpty
  | c :: t => (after? w (c :: t)).isSome || mentions w t

/-- A word is mentioned when the text splits around it. -/
theorem mentions_iff {w t : Text} : mentions w t = true ↔ ∃ a b, t = a ++ w ++ b := by
  induction t with
  | nil =>
    simp only [mentions, List.isEmpty_iff]
    constructor
    · rintro rfl
      exact ⟨[], [], rfl⟩
    · rintro ⟨a, b, h⟩
      have := congrArg List.length h
      simp only [List.length_nil, List.length_append] at this
      exact List.length_eq_zero_iff.1 (by omega)
  | cons c t ih =>
    simp only [mentions, Bool.or_eq_true, Option.isSome_iff_exists, after?_eq_some_iff, ih]
    constructor
    · rintro (⟨b, hb⟩ | ⟨a, b, hb⟩)
      · exact ⟨[], b, hb⟩
      · exact ⟨c :: a, b, by simp [hb]⟩
    · rintro ⟨a, b, hb⟩
      cases a with
      | nil => exact .inl ⟨b, hb⟩
      | cons x a =>
        refine .inr ⟨a, b, ?_⟩
        simp only [List.cons_append, List.cons.injEq] at hb
        exact hb.2

/-! ## Pieces between separators -/

section
variable {α : Type} [DecidableEq α]

/-- The pieces of a list between the occurrences of a separator; a list without one is one piece. -/
def pieces (sep : α) : List α → List (List α)
  | [] => [[]]
  | c :: t =>
    if c = sep then [] :: pieces sep t
    else match pieces sep t with
      | [] => [[c]]
      | p :: ps => (c :: p) :: ps

theorem pieces_ne_nil (sep : α) (t : List α) : pieces sep t ≠ [] := by
  cases t with
  | nil => simp [pieces]
  | cons c t =>
    rw [pieces]
    split
    · simp
    · split <;> simp

/-- The pieces joined by the separator are the list. -/
theorem intercalate_pieces (sep : α) (t : List α) : [sep].intercalate (pieces sep t) = t := by
  induction t with
  | nil => rfl
  | cons c t ih =>
    rw [pieces]
    split
    · next h =>
      obtain ⟨p, ps, hp⟩ := List.exists_cons_of_ne_nil (pieces_ne_nil sep t)
      subst h
      rw [hp] at ih ⊢
      simp [List.intercalate_cons_cons, ih]
    · next h =>
      obtain ⟨p, ps, hp⟩ := List.exists_cons_of_ne_nil (pieces_ne_nil sep t)
      rw [hp] at ih ⊢
      cases ps with
      | nil => simpa using ih
      | cons q qs => simpa [List.intercalate_cons_cons] using ih

/-- A separator ends a piece. -/
theorem pieces_append_sep (sep : α) (s t : List α) :
    pieces sep (s ++ sep :: t) = pieces sep s ++ pieces sep t := by
  induction s with
  | nil => simp [pieces]
  | cons c s ih =>
    obtain ⟨p, ps, hp⟩ := List.exists_cons_of_ne_nil (pieces_ne_nil sep s)
    rw [List.cons_append, pieces, pieces, ih, hp]
    split <;> rfl

/-- A list without a separator is one piece. -/
theorem pieces_of_not_mem {sep : α} {t : List α} (h : sep ∉ t) : pieces sep t = [t] := by
  induction t with
  | nil => rfl
  | cons c t ih =>
    rw [List.mem_cons, not_or] at h
    rw [pieces, if_neg (Ne.symm h.1), ih h.2]

/-- What stands in a piece stands in the list. -/
theorem mem_of_mem_pieces {sep c : α} {p t : List α} (hc : c ∈ p) (hp : p ∈ pieces sep t) :
    c ∈ t := by
  induction t generalizing p with
  | nil =>
    rw [pieces, List.mem_singleton] at hp
    exact hp ▸ hc
  | cons x t ih =>
    obtain ⟨q, qs, hq⟩ := List.exists_cons_of_ne_nil (pieces_ne_nil sep t)
    rw [pieces, hq] at hp
    rw [hq] at ih
    split at hp
    · rcases List.mem_cons.1 hp with rfl | hp
      · cases hc
      · exact List.mem_cons_of_mem _ (ih hc hp)
    · rcases List.mem_cons.1 hp with rfl | hp
      · rcases List.mem_cons.1 hc with rfl | hc
        · exact List.mem_cons_self
        · exact List.mem_cons_of_mem _ (ih hc List.mem_cons_self)
      · exact List.mem_cons_of_mem _ (ih hc (List.mem_cons_of_mem _ hp))

/-- What stands in a list is the separator or stands in a piece. -/
theorem exists_mem_pieces (sep : α) {c : α} {t : List α} (h : c ∈ t) :
    c = sep ∨ ∃ p ∈ pieces sep t, c ∈ p := by
  induction t with
  | nil => cases h
  | cons x t ih =>
    obtain ⟨q, qs, hq⟩ := List.exists_cons_of_ne_nil (pieces_ne_nil sep t)
    rw [hq] at ih
    rw [pieces, hq]
    by_cases hx : x = sep
    · rw [if_pos hx]
      rcases List.mem_cons.1 h with rfl | h
      · exact .inl hx
      · rcases ih h with hc | ⟨p, hp, hc⟩
        · exact .inl hc
        · exact .inr ⟨p, List.mem_cons_of_mem _ hp, hc⟩
    · rw [if_neg hx]
      rcases List.mem_cons.1 h with rfl | h
      · exact .inr ⟨c :: q, List.mem_cons_self, List.mem_cons_self⟩
      · rcases ih h with hc | ⟨p, hp, hc⟩
        · exact .inl hc
        · rcases List.mem_cons.1 hp with rfl | hp
          · exact .inr ⟨x :: p, List.mem_cons_self, List.mem_cons_of_mem _ hc⟩
          · exact .inr ⟨p, List.mem_cons_of_mem _ hp, hc⟩

end

/-- Pieces with one more behind them make a longer list. -/
theorem length_intercalate_le {α : Type} (sep : α) (ps : List (List α)) (q : List α) :
    ([sep].intercalate ps).length ≤ ([sep].intercalate (ps ++ [q])).length := by
  induction ps with
  | nil => simp
  | cons p ps ih =>
    cases ps with
    | nil => simp [List.intercalate_cons_cons]
    | cons p' ps =>
      rw [List.cons_append, List.cons_append, List.intercalate_cons_cons,
        List.intercalate_cons_cons, ← List.cons_append]
      simp only [List.length_append]
      omega

/-! ## Lines -/

/-- The number of line ends in a text. -/
def lineEnds (t : Text) : Nat :=
  t.count '\n'

@[simp] theorem lineEnds_append (s t : Text) : lineEnds (s ++ t) = lineEnds s + lineEnds t :=
  List.count_append

/-- The line number, from one, of a byte offset: one more than the line ends before it. -/
def lineAt (offset : Nat) (t : Text) : Nat :=
  1 + lineEnds (takeBytes offset t)

theorem lineAt_size_append (s t : Text) : lineAt (size s) (s ++ t) = 1 + lineEnds s := by
  rw [lineAt, takeBytes_size_append]

/-- A number in decimal. -/
def ofNat (n : Nat) : Text :=
  Nat.toDigits 10 n

/-- A word with a sign in decimal. -/
def ofInt32 (n : Int32) : Text :=
  if n.toInt < 0 then '-' :: ofNat n.toInt.natAbs else ofNat n.toInt.natAbs

end Text

end TimeLimit
