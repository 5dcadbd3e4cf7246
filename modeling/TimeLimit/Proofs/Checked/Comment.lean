import Mathlib
import TimeLimit.Proofs.Checked.Tail
import TimeLimit.Proofs.Comment

/-!
# The first comment in the bytes of a line

The search for a comment goes from byte to byte, and a backslash inside quotes makes it pass one
byte more, which may leave it inside a character. Wherever it stands, and whatever quotes are open,
it finds from there on what is found from the next character on (`Checked.commentStart_drop`). So
it finds the first comment of a line as `Quotes` reads it (`Checked.commentStart_eq_some_iff`), and
none on a line that has none (`Checked.commentStart_eq_none_iff`). What it finds is settled by the
bytes up to the two slashes (`Checked.commentStart_append_iff`), and these bytes need not be those
of a line. The main result is `bytes_tell_first_comment`.
-/

namespace TimeLimit

open Text (byte bytes)

namespace Checked

/-! ## What the search looks at -/

/-- No comment is found before the offset from which it is looked for. -/
theorem le_of_commentStart {quote : Option UInt8} {offset start : Nat} {bs : List UInt8}
    (h : commentStart quote offset bs = some start) : offset ≤ start := by
  fun_induction commentStart quote offset bs with
  | case1 | case5 => cases h
  | case2 offset b bs hb ih => exact Nat.le_of_succ_le (ih h)
  | case3 offset b bs hq hb =>
    cases h
    exact Nat.le_refl _
  | case4 offset b bs hq hb ih => exact Nat.le_of_succ_le (ih h)
  | case6 q offset b bs ih => exact Nat.le_trans (Nat.le_add_right offset 2) (ih h)
  | case7 q offset b bs hb ih => exact Nat.le_of_succ_le (ih h)

/-- Whether a comment is found at a place is settled by the bytes up to its two slashes: what
follows them may be left out, or may be anything. -/
theorem commentStart_append_iff {quote : Option UInt8} {offset start : Nat} {bs : List UInt8}
    (more : List UInt8) (h : start + 2 ≤ offset + bs.length) :
    commentStart quote offset (bs ++ more) = some start ↔
      commentStart quote offset bs = some start := by
  -- a search that has used up the bytes stands behind the place
  have hbehind {quote : Option UInt8} {offset' : Nat} {rest : List UInt8} (hlt : start < offset') :
      commentStart quote offset' rest ≠ some start := by
    intro hfound
    have := le_of_commentStart hfound
    omega
  fun_induction commentStart quote offset bs with
  | case1 quote offset =>
    rw [List.length_nil] at h
    refine iff_of_false (hbehind (by omega)) ?_
    rintro ⟨⟩
  | case2 offset b bs hb ih =>
    rw [List.length_cons] at h
    rw [List.cons_append, commentStart, if_pos hb]
    exact ih (by omega)
  | case3 offset b bs hq hb =>
    obtain ⟨bs, rfl⟩ := List.head?_eq_some_iff.1 hb.2
    rw [List.cons_append, commentStart, if_neg hq, if_pos ⟨hb.1, rfl⟩]
  | case4 offset b bs hq hb ih =>
    rw [List.length_cons] at h
    rw [List.cons_append, commentStart, if_neg hq]
    cases bs with
    | nil =>
      rw [List.length_nil] at h
      refine iff_of_false ?_ ?_
      · split
        · simp only [Option.some.injEq]
          omega
        · exact hbehind (by omega)
      · rintro ⟨⟩
    | cons b' bs =>
      rw [List.head?_cons] at hb
      rw [List.cons_append, List.head?_cons, if_neg hb]
      exact ih (by omega)
  | case5 q offset =>
    rw [List.length_singleton] at h
    refine iff_of_false ?_ ?_
    · cases more with
      | nil => rintro ⟨⟩
      | cons b more => exact hbehind (by omega)
    · rintro ⟨⟩
  | case6 q offset b bs ih =>
    rw [List.length_cons, List.length_cons] at h
    rw [List.cons_append, List.cons_append, commentStart, if_pos rfl]
    exact ih (by omega)
  | case7 q offset b bs hb ih =>
    rw [List.length_cons] at h
    rw [List.cons_append, commentStart_quoted hb]
    exact ih (by omega)

/-! ## What the search finds -/

/-- From any offset on, also from one inside a character, the search finds the comment of what
follows from the next character on, for any quotes that are open. -/
theorem commentStart_drop (quote : Option Char) (hquote : ∀ q ∈ quote, q.toNat < 128) {n : Nat}
    {line : Text} (h : n ≤ Text.size line) :
    commentStart (quote.map byte) n ((bytes line).drop n) =
      if (Tail.splitComment quote (Text.dropBytes n line)).2 = [] then none
      else some (Text.size (Text.takeBytes n line) +
        Text.size (Tail.splitComment quote (Text.dropBytes n line)).1) := by
  obtain ⟨conts, hhigh, htake, hdrop⟩ := Text.bytes_cut n line
  -- the bytes that are left of a character reach up to the next one
  have hsize : Text.size (Text.takeBytes n line) = n + conts.length := by
    rw [← Text.length_bytes, htake, List.length_append, List.length_take, Text.length_bytes]
    omega
  rw [hdrop h, commentStart_of_high quote hquote hhigh, commentStart_bytes quote hquote, hsize]

/-- In the bytes of a line, the search finds the offset where the line is cut. -/
theorem commentStart_line (line : Text) :
    commentStart none 0 (bytes line) =
      if (Tail.splitComment none line).2 = [] then none
      else some (Text.size (Tail.splitComment none line).1) := by
  have := commentStart_drop none nofun (Nat.zero_le (Text.size line))
  rwa [Text.dropBytes, Text.takeBytes, Text.size_nil, Nat.zero_add] at this

/-- The search finds the offset of the first comment of a line. -/
theorem commentStart_eq_some_iff {line : Text} {start : Nat} :
    commentStart none 0 (bytes line) = some start ↔
      ∃ code comment, line = code ++ comment ∧ FirstComment code comment ∧
        start = Text.size code := by
  rw [commentStart_line]
  constructor
  · intro h
    obtain ⟨hne, hstart⟩ := Option.ite_none_left_eq_some.1 h
    exact ⟨_, _, (Tail.splitComment_append none line).symm,
      Tail.firstComment_of_splitComment hne, (Option.some.inj hstart).symm⟩
  · rintro ⟨code, comment, rfl, hfirst, rfl⟩
    have hne : comment ≠ [] := by
      rintro rfl
      exact absurd hfirst.starts.2 (by simp)
    rw [Tail.splitComment_of_firstComment hfirst, if_neg hne]

/-- The search finds nothing on exactly the lines without a comment. -/
theorem commentStart_eq_none_iff {line : Text} :
    commentStart none 0 (bytes line) = none ↔ NoComment line := by
  rw [commentStart_line]
  constructor
  · intro h
    have hnil : (Tail.splitComment none line).2 = [] := by simpa using h
    have happend := Tail.splitComment_append none line
    rw [hnil, List.append_nil] at happend
    rw [← happend]
    exact Tail.noComment_splitComment line
  · intro h
    rw [Tail.splitComment_of_noComment h, if_pos rfl]

/-- What the search finds is no offset inside a character: the line can be sliced there, and the
slice is its code. -/
theorem slice_of_commentStart {line : Text} {start : Nat}
    (h : commentStart none 0 (bytes line) = some start) :
    slice 0 start line = .ok (Tail.splitComment none line).1 := by
  obtain ⟨code, comment, rfl, hfirst, rfl⟩ := commentStart_eq_some_iff.1 h
  rw [Tail.splitComment_of_firstComment hfirst, slice_from_start]

/-- A search of the first bytes of a line, as long as they reach behind the two slashes, finds the
same. -/
theorem commentStart_of_prefix {start : Nat} {seen bs : List UInt8} (hseen : seen <+: bs)
    (hlength : start + 2 ≤ seen.length) (h : commentStart none 0 bs = some start) :
    commentStart none 0 seen = some start := by
  obtain ⟨more, rfl⟩ := hseen
  exact (commentStart_append_iff more (by omega)).1 h

end Checked

open Checked

/-- **The bytes of a line tell its first comment.** The search that reads a line byte by byte gives
the offset of the first two slashes that stand outside quotes when the line is read character by
character, a backslash inside quotes taking the whole next character with it; it gives none exactly
when there are no such slashes. The offset does not lie inside a character, and what stands before
it is the code to which the line is cut. Of the bytes only those up to the two slashes matter: every
first part of them that holds these gives the same offset, also one that ends inside a character. -/
theorem bytes_tell_first_comment (line : Text) :
    (∀ start, commentStart none 0 (bytes line) = some start ↔
      ∃ code comment, line = code ++ comment ∧ FirstComment code comment ∧
        start = Text.size code) ∧
    (commentStart none 0 (bytes line) = none ↔ NoComment line) ∧
    (∀ start, commentStart none 0 (bytes line) = some start →
      slice 0 start line = .ok (Tail.splitComment none line).1 ∧
        ∀ seen, seen <+: bytes line → start + 2 ≤ seen.length →
          commentStart none 0 seen = some start) := by
  refine ⟨fun start => commentStart_eq_some_iff, commentStart_eq_none_iff, fun start h => ?_⟩
  refine ⟨slice_of_commentStart h, fun seen hseen hlength => ?_⟩
  exact commentStart_of_prefix hseen hlength h

/-- The backslash makes the search go on inside the `é`, and it finds the comment all the same, also
when it sees no more of the comment than its slashes. -/
theorem bytes_tell_comment_behind_escape :
    commentStart none 0 (bytes "'\\é//' // x".toList) = some 8 ∧
      slice 0 8 "'\\é//' // x".toList = .ok "'\\é//' ".toList ∧
      commentStart none 0 ((bytes "'\\é//' // x".toList).take 10) = some 8 := by
  have hstart : commentStart none 0 (bytes "'\\é//' // x".toList) = some 8 := by cbv
  obtain ⟨-, -, h⟩ := bytes_tell_first_comment "'\\é//' // x".toList
  obtain ⟨hslice, hseen⟩ := h 8 hstart
  exact ⟨hstart, hslice.trans (by cbv), hseen _ (List.take_prefix 10 _) (by decide)⟩

end TimeLimit
