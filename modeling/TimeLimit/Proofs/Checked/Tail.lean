import TimeLimit.Proofs.Checked.Locate
import TimeLimit.Proofs.LastArgument

/-!
# Checked insertion into tails

The end of the last argument is found from the last line up: the tail is trimmed, a comment on its
last line is cut off, and so on until there is none. Comments are looked for byte by byte, and a
backslash inside quotes skips one byte, though the character behind it may have more: the bytes that
are left of it are no ASCII characters, so the search finds the comment that `Tail.splitComment`
finds (`Checked.commentStart_bytes`). Every cut is a checked slice and makes the tail shorter; the
loop ends without a panic with what `Tail.split` keeps (`Checked.cutComments_eq`), and the time
limit is added as by `Tail.withLimit` (`Checked.withLimit_eq`).
-/

namespace TimeLimit

namespace Checked

open Text (AllHigh byte bytes)

/-! ## Slices -/

/-- A slice is in range, and as long as its offsets say. -/
theorem size_of_slice {start stop : Nat} {t s : Text} (h : slice start stop t = .ok s) :
    start ≤ stop ∧ stop ≤ Text.size t ∧ Text.size s = stop - start := by
  simp only [slice, ite_error_eq_ok_iff, not_or, ne_eq, Decidable.not_not] at h
  obtain ⟨⟨hle, hsize⟩, ⟨hstart, hstop⟩, hs⟩ := h
  have hcut := Text.takeBytes_append_dropBytes start (Text.takeBytes stop t)
  have htake : Text.takeBytes start (Text.takeBytes stop t) = Text.takeBytes start t := by
    rw [← Text.takeBytes_append_of_le (by omega) (Text.dropBytes stop t),
      Text.takeBytes_append_dropBytes]
  have hsizes := congrArg Text.size hcut
  rw [Text.size_append, htake, hstart, hstop] at hsizes
  rw [← Except.ok.inj hs, Text.slice]
  omega

/-- A slice up to the end. -/
theorem slice_to_end (s t : Text) : slice (Text.size s) (Text.size (s ++ t)) (s ++ t) = .ok t := by
  have := slice_append s t []
  rwa [List.append_nil] at this

/-- A slice from the start. -/
theorem slice_from_start (s t : Text) : slice 0 (Text.size s) (s ++ t) = .ok s :=
  slice_append [] s t

/-! ## Comments -/

/-- The offset of the first `//` outside quotes in the bytes of a line that start at an offset;
`quote` is the quote that is open. -/
def commentStart : Option UInt8 → Nat → List UInt8 → Option Nat
  | _, _, [] => none
  | none, offset, b :: bs =>
    if b = byte '\x27' ∨ b = byte '\x22' then commentStart (some b) (offset + 1) bs
    else if b = byte '/' ∧ bs.head? = some (byte '/') then some offset
    else commentStart none (offset + 1) bs
  | some q, offset, b :: bs =>
    if b = byte '\\' then
      match bs with
      | [] => none
      | _ :: bs => commentStart (some q) (offset + 2) bs
    else commentStart (if b = q then none else some q) (offset + 1) bs

/-- A comment starts inside the bytes. -/
theorem commentStart_lt {quote : Option UInt8} {offset start : Nat} {bs : List UInt8}
    (h : commentStart quote offset bs = some start) : start < offset + bs.length := by
  fun_induction commentStart quote offset bs with
  | case1 | case5 => cases h
  | case2 offset b bs hb ih =>
    have := ih h
    rw [List.length_cons]
    omega
  | case3 offset b bs hq hb =>
    cases h
    rw [List.length_cons]
    omega
  | case4 offset b bs hq hb ih =>
    have := ih h
    rw [List.length_cons]
    omega
  | case6 offset q b bs ih =>
    have := ih h
    rw [List.length_cons, List.length_cons]
    omega
  | case7 offset q b bs hb ih =>
    have := ih h
    rw [List.length_cons]
    omega

theorem commentStart_quoted {q b : UInt8} (h : b ≠ byte '\\') (offset : Nat) (bs : List UInt8) :
    commentStart (some q) offset (b :: bs) =
      commentStart (if b = q then none else some q) (offset + 1) bs := by
  rw [commentStart.eq_def]
  simp [h]

/-- Bytes outside the ASCII range are passed. -/
theorem commentStart_of_high (quote : Option Char) (hquote : ∀ q ∈ quote, q.toNat < 128)
    {bs : List UInt8} (h : AllHigh bs) (offset : Nat) (rest : List UInt8) :
    commentStart (quote.map byte) offset (bs ++ rest) =
      commentStart (quote.map byte) (offset + bs.length) rest := by
  induction bs generalizing offset with
  | nil => rfl
  | cons b bs ih =>
    have hb := h b List.mem_cons_self
    have hne {d : Char} (hd : d.toNat < 128) : b ≠ byte d := Text.ne_byte_of_high hb hd
    have hstep : commentStart (quote.map byte) offset (b :: (bs ++ rest)) =
        commentStart (quote.map byte) (offset + 1) (bs ++ rest) := by
      cases quote with
      | none =>
        have hslash : ¬ (b = byte '/' ∧ (bs ++ rest).head? = some (byte '/')) :=
          fun h => hne (by decide) h.1
        have hquotes : ¬ (b = byte '\x27' ∨ b = byte '\x22') := by
          rintro (h | h)
          · exact hne (by decide) h
          · exact hne (by decide) h
        rw [Option.map_none, commentStart, if_neg hquotes, if_neg hslash]
      | some q =>
        rw [Option.map_some, commentStart_quoted (hne (by decide)), if_neg (hne (hquote q rfl))]
    rw [List.cons_append, hstep, ih fun x hx => h x (List.mem_cons_of_mem b hx), List.length_cons,
      Nat.add_assoc, Nat.add_comm 1]

/-- A character that starts no comment is passed, and it may open quotes. -/
theorem commentStart_step {c : Char} {t : Text} (h : ¬ (c = '/' ∧ t.head? = some '/'))
    (offset : Nat) :
    commentStart none offset (bytes (c :: t)) =
      commentStart ((if c = '\x27' ∨ c = '\x22' then some c else none).map byte)
        (offset + c.utf8Size) (bytes t) := by
  rw [Text.bytes_cons]
  rcases Text.encode_cases c with ⟨hc, hsize, henc⟩ | ⟨hc, hhigh⟩
  · have hslash : ¬ (byte c = byte '/' ∧ (bytes t).head? = some (byte '/')) := by
      rwa [Text.byte_inj hc (by decide), Text.head?_bytes (by decide)]
    have hquotes : (byte c = byte '\x27' ∨ byte c = byte '\x22') ↔ c = '\x27' ∨ c = '\x22' := by
      rw [Text.byte_inj hc (by decide), Text.byte_inj hc (by decide)]
    rw [henc, hsize, List.singleton_append, commentStart]
    by_cases hq : c = '\x27' ∨ c = '\x22'
    · rw [if_pos (hquotes.2 hq), if_pos hq, Option.map_some]
    · rw [if_neg (mt hquotes.1 hq), if_neg hslash, if_neg hq, Option.map_none]
  · have hq : ¬ (c = '\x27' ∨ c = '\x22') := by
      rintro (rfl | rfl)
      · exact absurd hc (by decide)
      · exact absurd hc (by decide)
    have := commentStart_of_high none nofun hhigh offset (bytes t)
    rw [if_neg hq, Option.map_none, ← String.length_utf8EncodeChar]
    exact this

/-- Inside quotes, a character that is no backslash is passed, and it may close them. -/
theorem commentStart_quoted_step {q c : Char} (hq : q.toNat < 128) (h : c ≠ '\\') (offset : Nat)
    (t : Text) :
    commentStart (some (byte q)) offset (bytes (c :: t)) =
      commentStart ((if c = q then none else some q).map byte) (offset + c.utf8Size) (bytes t) := by
  rw [Text.bytes_cons]
  rcases Text.encode_cases c with ⟨hc, hsize, henc⟩ | ⟨hc, hhigh⟩
  · rw [henc, hsize, List.singleton_append,
      commentStart_quoted (mt (Text.byte_inj hc (by decide)).1 h)]
    by_cases hcq : c = q
    · rw [if_pos hcq, if_pos (congrArg byte hcq), Option.map_none]
    · rw [if_neg hcq, if_neg (mt (Text.byte_inj hc hq).1 hcq), Option.map_some]
  · have hcq : c ≠ q := by
      rintro rfl
      omega
    have := commentStart_of_high (some q) (by simpa using hq) hhigh offset (bytes t)
    rw [if_neg hcq, ← String.length_utf8EncodeChar]
    exact this

/-- Inside quotes, a backslash and the character behind it are passed. -/
theorem commentStart_escaped_step {q : Char} (hq : q.toNat < 128) (d : Char) (offset : Nat)
    (t : Text) :
    commentStart (some (byte q)) offset (bytes ('\\' :: d :: t)) =
      commentStart (some (byte q)) (offset + Text.size ['\\', d]) (bytes t) := by
  obtain ⟨henc, hsize⟩ := Text.encode_of_ascii (c := '\\') (by decide)
  obtain ⟨b, bs, hd, hhigh⟩ := Text.exists_encode_eq_cons d
  have hlength := String.length_utf8EncodeChar d
  have hskip := commentStart_of_high (some q) (by simpa using hq) hhigh (offset + 2)
    (bytes t)
  rw [hd, List.length_cons] at hlength
  rw [Text.bytes_cons, Text.bytes_cons, henc, hd, List.singleton_append, List.cons_append,
    commentStart, if_pos rfl]
  rw [Option.map_some] at hskip
  simp only [hskip, Text.size_cons, Text.size_nil, hsize, ← hlength]
  congr 1
  omega

/-- The bytes of a line have a comment where the line has one. -/
theorem commentStart_bytes (quote : Option Char) (hquote : ∀ q ∈ quote, q.toNat < 128)
    (offset : Nat) (line : Text) :
    commentStart (quote.map byte) offset (bytes line) =
      if (Tail.splitComment quote line).2 = [] then none
      else some (offset + Text.size (Tail.splitComment quote line).1) := by
  fun_induction Tail.splitComment quote line generalizing offset with
  | case1 quote => cases quote <;> rfl
  | case2 c t h =>
    obtain ⟨rfl, ht⟩ := h
    obtain ⟨henc, -⟩ := Text.encode_of_ascii (c := '/') (by decide)
    rw [Option.map_none, Text.bytes_cons, henc, List.singleton_append, commentStart,
      if_neg (by decide), if_pos ⟨rfl, (Text.head?_bytes (by decide) t).2 ht⟩,
      if_neg (List.cons_ne_nil _ _)]
    rfl
  | case3 c t h r ih =>
    have hquote' : ∀ q ∈ if c = '\x27' ∨ c = '\x22' then some c else none, q.toNat < 128 := by
      intro q hq
      split at hq
      · next hc =>
        cases hq
        rcases hc with rfl | rfl <;> decide
      · cases hq
    rw [Option.map_none, commentStart_step h, ih hquote', Text.size_cons, Nat.add_assoc]
  | case4 q => simp [Text.bytes_cons, commentStart, Text.encode_of_ascii (c := '\\') (by decide)]
  | case5 q d t r ih =>
    rw [Option.map_some, commentStart_escaped_step (hquote q rfl)]
    rw [Option.map_some] at ih
    rw [ih hquote]
    simp only [Text.size_cons, Text.size_nil, Nat.add_zero, Nat.add_assoc, r]
  | case6 q c t h r ih =>
    have hquote' : ∀ q' ∈ if c = q then none else some q, q'.toNat < 128 := by
      intro q' hq'
      split at hq'
      · cases hq'
      · exact hquote q' hq'
    rw [Option.map_some, commentStart_quoted_step (hquote q rfl) h, ih hquote', Text.size_cons,
      Nat.add_assoc]

/-! ## The last argument -/

/-- The offset behind the last line end of a text. -/
def lastLineStart (t : Text) : Nat :=
  Text.size (t.reverse.dropWhile (· != '\n')).reverse

/-- Cuts comments off the last line of a tail, as long as there is one, and trims what is left. -/
def cutComments (code : Text) : Except Panic Text :=
  match _hline : slice (lastLineStart code) (Text.size code) code with
  | .error p => .error p
  | .ok line =>
    match _hstart : commentStart none 0 (bytes line) with
    | none => .ok code
    | some start =>
      match _hcut : slice 0 (lastLineStart code + start) code with
      | .error p => .error p
      | .ok cut => cutComments (Text.splitTrailing cut).1
termination_by Text.size code
decreasing_by
  have hlt := commentStart_lt ‹_›
  obtain ⟨-, -, hline⟩ := size_of_slice ‹slice (lastLineStart code) _ _ = _›
  obtain ⟨-, -, hcut⟩ := size_of_slice ‹slice 0 _ _ = _›
  have hsize := congrArg Text.size (Text.splitTrailing_append cut)
  rw [Text.size_append] at hsize
  rw [Text.length_bytes] at hlt
  omega

/-- A tail up to the end of its last argument. -/
def lastArgument (tail : Text) : Except Panic Text :=
  cutComments (Text.splitTrailing tail).1

/-- The tail of a call with a time limit added to its arguments. -/
def withLimit (seconds : UInt64) (tail : Text) : Except Panic Text := do
  let kept ← lastArgument tail
  let rest ← slice (Text.size kept) (Text.size tail) tail
  return kept ++ Tail.insertion kept seconds ++ rest

section
variable {front line : Text} (h : Tail.LastLine front line)
include h

/-- The last line starts behind the last line end. -/
theorem lastLineStart_append : lastLineStart (front ++ line) = Text.size front := by
  have hdrop : front.reverse.dropWhile (· != '\n') = front.reverse := by
    rcases h.front_ends with rfl | ⟨f, rfl⟩
    · rfl
    · rw [List.reverse_append, List.reverse_singleton, List.singleton_append,
        List.dropWhile_cons_of_neg (by simp)]
  have hpass : ∀ c ∈ line.reverse, (c != '\n') = true := by
    intro c hc
    rw [bne_iff_ne]
    rintro rfl
    exact h.not_mem (List.mem_reverse.1 hc)
  rw [lastLineStart, List.reverse_append, List.dropWhile_append_of_pos hpass, hdrop,
    List.reverse_reverse]

theorem slice_lastLine :
    slice (lastLineStart (front ++ line)) (Text.size (front ++ line)) (front ++ line) =
      .ok line := by
  rw [lastLineStart_append h, slice_to_end]

theorem slice_before_comment :
    slice 0 (lastLineStart (front ++ line) + Text.size (Tail.splitComment none line).1)
      (front ++ line) = .ok (front ++ (Tail.splitComment none line).1) := by
  have := slice_from_start (front ++ (Tail.splitComment none line).1)
    (Tail.splitComment none line).2
  rwa [List.append_assoc, Tail.splitComment_append, Text.size_append,
    ← lastLineStart_append h] at this

end

/-- The last line of a text is a slice of it. It has no comment, or it has one and what stands
before is a slice too. -/
theorem exists_last_slices (code : Text) : ∃ front line, code = front ++ line ∧
    Tail.LastLine front line ∧
    slice (lastLineStart code) (Text.size code) code = .ok line ∧
    (commentStart none 0 (bytes line) = none ∧ (Tail.splitComment none line).2 = [] ∨
      ∃ start, commentStart none 0 (bytes line) = some start ∧
        slice 0 (lastLineStart code + start) code =
          .ok (front ++ (Tail.splitComment none line).1)) := by
  obtain ⟨front, line, rfl, h⟩ := Tail.exists_lastLine code
  refine ⟨front, line, rfl, h, slice_lastLine h, ?_⟩
  have hstart := commentStart_bytes none nofun 0 line
  rw [Option.map_none, Nat.zero_add] at hstart
  rw [hstart]
  split
  · next hnil => exact .inl ⟨rfl, hnil⟩
  · exact .inr ⟨_, rfl, slice_before_comment h⟩

/-- From a trimmed tail on, cutting comments ends without a panic, with what is kept of the tail. -/
theorem cutComments_eq {code : Text} (h : ∀ c, code.getLast? = some c → Text.isBlank c = false) :
    cutComments code = .ok (Tail.split code).1 := by
  fun_induction cutComments code with
  | case1 code p hpanic =>
    obtain ⟨front, line, -, -, hslice, -⟩ := exists_last_slices code
    rw [hslice] at hpanic
    cases hpanic
  | case2 code line hline hstart =>
    obtain ⟨front, last, hcode, hlast, hslice, hcomment⟩ := exists_last_slices code
    rw [hslice] at hline
    cases hline
    rcases hcomment with ⟨-, hnil⟩ | ⟨start, hsome, -⟩
    · rw [hcode, hlast.split_of_code hnil (hcode ▸ h)]
    · rw [hsome] at hstart
      cases hstart
  | case3 code line hline start hstart p hpanic =>
    obtain ⟨front, last, -, -, hslice, hcomment⟩ := exists_last_slices code
    rw [hslice] at hline
    cases hline
    rcases hcomment with ⟨hnone, -⟩ | ⟨start, hsome, hbefore⟩
    · rw [hnone] at hstart
      cases hstart
    · rw [hsome] at hstart
      cases hstart
      rw [hbefore] at hpanic
      cases hpanic
  | case4 code line hline start hstart cut hcut ih =>
    obtain ⟨front, last, hcode, hlast, hslice, hcomment⟩ := exists_last_slices code
    rw [hslice] at hline
    cases hline
    rcases hcomment with ⟨hnone, -⟩ | ⟨start, hsome, hbefore⟩
    · rw [hnone] at hstart
      cases hstart
    · rw [hsome] at hstart
      cases hstart
      rw [hbefore] at hcut
      cases hcut
      rw [ih fun c => Text.isBlank_getLast_splitTrailing, Tail.split_splitTrailing, hcode,
        hlast.split_code]

/-- The last argument ends where the tail is cut. -/
theorem lastArgument_eq (tail : Text) : lastArgument tail = .ok (Tail.split tail).1 := by
  rw [lastArgument, cutComments_eq fun c => Text.isBlank_getLast_splitTrailing,
    Tail.split_splitTrailing]

/-- A time limit is added without a panic, and at the same place. -/
theorem withLimit_eq (seconds : UInt64) (tail : Text) :
    withLimit seconds tail = .ok (Tail.withLimit seconds tail) := by
  have hslice := slice_to_end (Tail.split tail).1 (Tail.split tail).2
  rw [Tail.split_append] at hslice
  rw [withLimit, lastArgument_eq, ok_bind, hslice]
  rfl

end Checked

end TimeLimit
