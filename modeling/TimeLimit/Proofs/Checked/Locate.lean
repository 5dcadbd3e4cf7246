import TimeLimit.Cause
import TimeLimit.TestCase
import TimeLimit.Text.Bytes

/-!
# Checked slices and searches of bytes

A revision can be computed with offsets into the encoding of a source: brackets are matched byte by
byte, and the parts of a test are slices. Such a computation can panic: a slice may be out of range,
out of order or cut a character, and a counter may go below zero. `Checked` computes that way, with
every check made, and its results are those of the definitions on characters: the closing bracket is
the one that `Bracket.closing` finds (`Checked.close_eq`), the extent of a test is that of
`Extent.locate` (`Checked.locate_eq`), for marks at any offsets, and no panic occurs. For marks of
machine words there is one, at the last word of all (`Checked.locateWord_eq`).
-/

namespace TimeLimit

/-- Why a computation with offsets stops short. -/
inductive Panic where
  /-- A slice that ends before it starts or behind the end of its text. -/
  | outOfRange
  /-- A slice that starts or ends inside a character. -/
  | insideCharacter
  /-- A number that would be less than zero. -/
  | underflow
  /-- A number that no word of its size holds. -/
  | overflow
  deriving DecidableEq, Repr

namespace Text

/-- Where nothing is left behind a cut, the offset may lie behind the end. -/
theorem dropBytes_of_size_lt {n : Nat} {t : Text} (h : size t < n) : dropBytes n t = [] := by
  refine Decidable.byContradiction fun hne => ?_
  have hle := le_size_takeBytes hne
  have hcut := congrArg size (takeBytes_append_dropBytes n t)
  rw [size_append] at hcut
  omega

theorem size_reverse (t : Text) : size t.reverse = size t := by
  induction t with
  | nil => rfl
  | cons c t ih =>
    rw [List.reverse_cons, size_append, ih, size_cons, size_cons, size_nil]
    omega

/-- The bytes of an ASCII character are counted where the character is. -/
theorem count_bytes {d : Char} (hd : d.toNat < 128) (t : Text) :
    (bytes t).count (byte d) = t.count d := by
  induction t with
  | nil => rfl
  | cons c t ih =>
    rw [bytes_cons, List.count_append, ih, List.count_cons, Nat.add_comm]
    congr 1
    rcases encode_cases c with ⟨hc, -, henc⟩ | ⟨hc, hhigh⟩
    · rw [henc, List.count_singleton]
      simp only [beq_iff_eq, byte_inj hc hd]
    · have hne : c ≠ d := by
        rintro rfl
        omega
      rw [List.count_eq_zero.2 fun h => ne_byte_of_high (hhigh _ h) hd rfl]
      simp [hne]

end Text

namespace Checked

open Text (AllHigh byte bytes)

/-! ## Slices -/

/-- The part of a text between two offsets. -/
def slice (start stop : Nat) (t : Text) : Except Panic Text :=
  if stop < start ∨ Text.size t < stop then .error .outOfRange
  else if Text.size (Text.takeBytes start t) ≠ start ∨ Text.size (Text.takeBytes stop t) ≠ stop then
    .error .insideCharacter
  else .ok (Text.slice start stop t)

/-- The first bytes of some bytes. -/
def front (n : Nat) (bs : List UInt8) : Except Panic (List UInt8) :=
  if bs.length < n then .error .outOfRange else .ok (bs.take n)

/-- The difference of two numbers. -/
def sub (m n : Nat) : Except Panic Nat :=
  if m < n then .error .underflow else .ok (m - n)

/-- A slice between two parts of a text gives what stands between them. -/
theorem slice_append (s t u : Text) :
    slice (Text.size s) (Text.size (s ++ t)) (s ++ t ++ u) = .ok t := by
  have hle : ¬ (Text.size (s ++ t) < Text.size s ∨
      Text.size (s ++ t ++ u) < Text.size (s ++ t)) := by
    simp only [Text.size_append]
    omega
  have hstart : Text.takeBytes (Text.size s) (s ++ t ++ u) = s := by
    rw [List.append_assoc, Text.takeBytes_size_append]
  rw [slice, if_neg hle, hstart, Text.takeBytes_size_append, if_neg (by simp), Text.slice_append]

theorem sub_of_le {m n : Nat} (h : n ≤ m) : sub m n = .ok (m - n) :=
  if_neg (Nat.not_lt.2 h)

/-! ## Brackets -/

/-- Looks for the byte behind which no bracket is open; `depth` brackets are open before the bytes,
which start at an offset. -/
def matchingClose (opener closer : UInt8) :
    Nat → Nat → List UInt8 → Except Panic (Option Nat)
  | _, _, [] => .ok none
  | depth, offset, b :: bs =>
    if b = opener then matchingClose opener closer (depth + 1) (offset + 1) bs
    else if b = closer then
      match sub depth 1 with
      | .error p => .error p
      | .ok 0 => .ok (some (offset + 1))
      | .ok depth => matchingClose opener closer depth (offset + 1) bs
    else matchingClose opener closer depth (offset + 1) bs

/-- Looks from an offset on for the bracket that closes the one that is open there, and gives the
offset behind it. -/
def close (opener closer : Char) (offset : Nat) (source : Text) : Except Panic (Option Nat) :=
  if (bytes source).length < offset then .ok none
  else matchingClose (byte opener) (byte closer) 1 offset ((bytes source).drop offset)

section
variable {opener closer : Char} (hopener : opener.toNat < 128) (hcloser : closer.toNat < 128)
include hopener hcloser

/-- Bytes outside the ASCII range are no brackets. -/
theorem matchingClose_of_high {bs : List UInt8} (h : AllHigh bs) (depth offset : Nat)
    (rest : List UInt8) :
    matchingClose (byte opener) (byte closer) depth offset (bs ++ rest) =
      matchingClose (byte opener) (byte closer) depth (offset + bs.length) rest := by
  induction bs generalizing offset with
  | nil => rfl
  | cons b bs ih =>
    have hb := h b List.mem_cons_self
    rw [List.cons_append, matchingClose, if_neg (Text.ne_byte_of_high hb hopener),
      if_neg (Text.ne_byte_of_high hb hcloser), ih fun x hx => h x (List.mem_cons_of_mem b hx),
      List.length_cons, Nat.add_assoc, Nat.add_comm 1]

/-- A character that is no bracket is passed. -/
theorem matchingClose_of_ne {c : Char} (ho : c ≠ opener) (hc : c ≠ closer) (depth offset : Nat)
    (rest : List UInt8) :
    matchingClose (byte opener) (byte closer) depth offset (String.utf8EncodeChar c ++ rest) =
      matchingClose (byte opener) (byte closer) depth (offset + c.utf8Size) rest := by
  rcases Text.encode_cases c with ⟨hascii, hsize, henc⟩ | ⟨-, hhigh⟩
  · rw [henc, hsize, List.singleton_append, matchingClose,
      if_neg (mt (Text.byte_inj hascii hopener).1 ho),
      if_neg (mt (Text.byte_inj hascii hcloser).1 hc)]
  · rw [matchingClose_of_high hopener hcloser hhigh, String.length_utf8EncodeChar]

/-- The bytes of a text close where the text does, and the depth stays above zero. -/
theorem matchingClose_bytes (hne : opener ≠ closer) (extra offset : Nat) (seen t : Text) :
    matchingClose (byte opener) (byte closer) (extra + 1) offset (bytes t) =
      .ok ((Bracket.closingFrom opener closer extra seen t).map fun x =>
        offset + Text.size x.1 + 1 - Text.size seen) := by
  have hmove (offset size passed inside : Nat) :
      offset + size + inside + 1 - (size + passed) = offset + inside + 1 - passed := by omega
  have hbyte : byte closer ≠ byte opener := mt (Text.byte_inj hcloser hopener).1 (Ne.symm hne)
  fun_induction Bracket.closingFrom opener closer extra seen t generalizing offset with
  | case1 => rfl
  | case2 extra seen t ih =>
    obtain ⟨henc, hsize⟩ := Text.encode_of_ascii hopener
    rw [Text.bytes_cons, henc, List.singleton_append, matchingClose, if_pos rfl, ih]
    simp only [Text.size_cons, hsize, hmove]
  | case3 seen t hco =>
    obtain ⟨henc, -⟩ := Text.encode_of_ascii hcloser
    rw [Text.bytes_cons, henc, List.singleton_append, matchingClose, if_neg hbyte, if_pos rfl,
      sub_of_le (Nat.le_add_left 1 0), Option.map_some, Text.size_reverse]
    simp only [Nat.reduceAdd, Nat.reduceSub, Except.ok.injEq, Option.some.injEq]
    omega
  | case4 seen t extra hco ih =>
    obtain ⟨henc, hsize⟩ := Text.encode_of_ascii hcloser
    rw [Text.bytes_cons, henc, List.singleton_append, matchingClose, if_neg hbyte, if_pos rfl,
      sub_of_le (Nat.le_add_left 1 _), Nat.add_sub_cancel]
    simp only [ih, Text.size_cons, hsize, hmove]
  | case5 extra seen c t ho hc ih =>
    rw [Text.bytes_cons, matchingClose_of_ne hopener hcloser ho hc, ih]
    simp only [Text.size_cons, hmove]

/-- From an offset on, the bracket is closed where it is in the text that is left there. -/
theorem close_eq (hne : opener ≠ closer) (offset : Nat) (source : Text) :
    close opener closer offset source =
      .ok ((Bracket.closing opener closer (Text.dropBytes offset source)).map fun x =>
        Text.size (Text.takeBytes offset source) + Text.size x.1 + 1) := by
  obtain ⟨conts, hhigh, htake, hdrop⟩ := Text.bytes_cut offset source
  rw [close, Text.length_bytes]
  split
  · next hlt =>
    rw [Text.dropBytes_of_size_lt hlt]
    rfl
  · next hle =>
    have hlength := congrArg List.length htake
    rw [Text.length_bytes, List.length_append, List.length_take, Text.length_bytes] at hlength
    rw [hdrop (by omega), matchingClose_of_high hopener hcloser hhigh,
      matchingClose_bytes hopener hcloser hne 0 _ [], Bracket.closing]
    have hstart : offset + conts.length = Text.size (Text.takeBytes offset source) := by omega
    simp only [hstart, Text.size_nil, Nat.sub_zero]

end

/-! ## Tests -/

/-- The line of an offset, from one. -/
def lineOf (source : Text) (offset : Nat) : Except Panic Nat :=
  (front (min offset (bytes source).length) (bytes source)).map fun bs => bs.count (byte '\n') + 1

/-- Finds the end of the test that a mark opens; what is looked at starts at an offset. -/
def locateFrom (source : Text) (m : Mark) (offset : Nat) :
    Except Panic (Except Unterminated Extent) := do
  match ← close '{' '}' offset source with
  | none =>
    let line ← lineOf source m.start
    return .error ⟨m.start, line, .body⟩
  | some bodyEnd =>
    match ← close '(' ')' bodyEnd source with
    | none =>
      let line ← lineOf source m.start
      return .error ⟨m.start, line, .call⟩
    | some stop => return .ok ⟨m.start, m.brace, bodyEnd, stop⟩

/-- Finds the end of the test that a mark opens. -/
def locate (source : Text) (m : Mark) : Except Panic (Except Unterminated Extent) :=
  locateFrom source m (m.brace + 1)

/-- The word behind a word. -/
def next (w : UInt64) : Except Panic UInt64 :=
  if w.toNat + 1 < UInt64.size then .ok (w + 1) else .error .overflow

/-- Finds the end of the test for a mark of any two words. -/
def locateWord (source : Text) (m : WordMark) : Except Panic (Except Unterminated Extent) := do
  locateFrom source m.mark (← next m.brace).toNat

/-- Lines are counted in bytes as in characters. -/
theorem lineOf_eq (source : Text) (offset : Nat) :
    lineOf source offset = .ok (Text.lineAt offset source) := by
  obtain ⟨conts, hhigh, htake, -⟩ := Text.bytes_cut offset source
  have hcount := Text.count_bytes (d := '\n') (by decide) (Text.takeBytes offset source)
  have hconts : conts.count (byte '\n') = 0 :=
    List.count_eq_zero.2 fun h => Text.ne_byte_of_high (hhigh _ h) (by decide) rfl
  rw [htake, List.count_append, hconts, Nat.add_zero] at hcount
  have hfront : front (min offset (bytes source).length) (bytes source) =
      .ok ((bytes source).take offset) := by
    rw [front, if_neg (by omega)]
    exact congrArg _ (List.take_eq_take_iff.2 (by omega))
  rw [lineOf, hfront, Text.lineAt, Text.lineEnds, ← hcount, Nat.add_comm]
  rfl

/-- From any offset on, the test of a mark is located without a panic, and at the same place. -/
theorem locateFrom_eq (source : Text) (m : Mark) (offset : Nat) :
    locateFrom source m offset = .ok (Extent.locateFrom source m offset) := by
  have hbraces := close_eq (by decide : ('{').toNat < 128) (by decide : ('}').toNat < 128)
    (by decide) offset source
  have hcut := Text.takeBytes_append_dropBytes offset source
  rw [locateFrom, hbraces, Extent.locateFrom, Closing.of]
  cases hbody : Bracket.closing '{' '}' (Text.dropBytes offset source) with
  | none =>
    simp only [ok_bind, Option.map_none, lineOf_eq]
    rfl
  | some found =>
    obtain ⟨inside, t⟩ := found
    have hsplit := ((Bracket.closing_eq_some_iff (by decide)).1 hbody).1
    -- the parentheses are matched behind the body
    have hsource : source = Text.takeBytes offset source ++ (inside ++ ['}']) ++ t := by
      rw [List.append_assoc, List.append_assoc, List.singleton_append, ← hsplit, hcut]
    have hend : Text.size (Text.takeBytes offset source) + Text.size inside + 1 =
        Text.size (Text.takeBytes offset source ++ (inside ++ ['}'])) := by
      have : ('}').utf8Size = 1 := rfl
      simp only [Text.size_append, Text.size_cons, Text.size_nil]
      omega
    have hdrop := (congrArg (Text.dropBytes _) hsource).trans (Text.dropBytes_size_append _ t)
    have htake := (congrArg (Text.takeBytes _) hsource).trans (Text.takeBytes_size_append _ t)
    have hparentheses := close_eq (by decide : ('(').toNat < 128) (by decide : (')').toNat < 128)
      (by decide) (Text.size (Text.takeBytes offset source ++ (inside ++ ['}']))) source
    rw [hdrop, htake] at hparentheses
    simp only [ok_bind, Option.map_some, hend, hparentheses]
    cases htail : Bracket.closing '(' ')' t with
    | none =>
      simp only [ok_bind, Option.map_none, lineOf_eq]
      rfl
    | some found =>
      simp only [Option.map_some, ← hend]
      rfl

/-- Wherever a mark stands, its test is located without a panic, and at the same place. -/
theorem locate_eq (source : Text) (m : Mark) :
    locate source m = .ok (Extent.locate source m) :=
  locateFrom_eq source m (m.brace + 1)

/-- A mark of two words is located without a panic unless no word comes behind its brace. -/
theorem locateWord_eq (source : Text) (m : WordMark) :
    locateWord source m = if m.brace.toNat + 1 < UInt64.size then
      .ok (Extent.locateWord source m) else .error .overflow := by
  rw [locateWord, next]
  split
  · exact locateFrom_eq source m.mark (m.brace + 1).toNat
  · rfl

end Checked

end TimeLimit
