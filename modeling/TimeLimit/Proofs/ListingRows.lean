import TimeLimit.Proofs.Listing

/-!
# What a listing tells

The text of a listing is a row of lines, each with its sign, its number and the line of a text that
it shows, and it can be read in one way only (`Row.flatMap_text_injective`): a number ends before
the first bar and a line before the first line feed. The rows of a listing are the lines that differ
and are not empty (`Listing.mem_rows_iff`). So a listing and the old text determine each line of the
new text, if a missing line counts as empty, and nothing else about it (`listing_tells_new_lines`).
The numbers are words, and so this holds for texts of no more lines than there are words; a line
behind more than that is taken for another one (`listing_hides_line_and_shows_end`).
-/

namespace TimeLimit

/-! ## Lines of which missing ones are empty -/

namespace Text

/-- The line of a text with a number, from one, as it is compared in a listing: a missing line
counts as empty. -/
def shownLine (n : Nat) (t : Text) : Text :=
  (t.line? n).getD []

/-- The texts have the same lines, whatever ends them, but for empty ones at the end. -/
def SameLines (s t : Text) : Prop :=
  ∃ m n, s.lines ++ List.replicate m [] = t.lines ++ List.replicate n []

theorem shownLine_succ (n : Nat) (t : Text) : shownLine (n + 1) t = t.lines[n]?.getD [] :=
  rfl

/-- Empty lines at the end do not count. -/
theorem getD_append_replicate (ls : List Text) (m i : Nat) :
    (ls ++ List.replicate m [])[i]?.getD [] = ls[i]?.getD [] := by
  rw [List.getElem?_append]
  split
  · rfl
  · next h =>
    rw [List.getElem?_eq_none (Nat.le_of_not_lt h), List.getElem?_replicate]
    split <;> rfl

/-- A list of lines that is filled up with empty ones. -/
theorem getElem?_append_replicate (ls : List Text) (m i : Nat) :
    (ls ++ List.replicate m [])[i]? =
      if i < ls.length + m then some (ls[i]?.getD []) else none := by
  rw [← getD_append_replicate ls m i]
  split
  · next h =>
    rw [List.getElem?_eq_getElem (by simpa using h)]
    rfl
  · next h => exact List.getElem?_eq_none (by simpa using h)

/-- Texts have the same lines when each line is the same, missing ones counting as empty. -/
theorem sameLines_iff {s t : Text} : s.SameLines t ↔ ∀ n, s.shownLine n = t.shownLine n := by
  constructor
  · rintro ⟨m, n, h⟩ (_ | i)
    · rfl
    · rw [shownLine_succ, shownLine_succ, ← getD_append_replicate s.lines m, h,
        getD_append_replicate]
  · intro h
    refine ⟨t.lines.length, s.lines.length, List.ext_getElem? fun i => ?_⟩
    have hi := h (i + 1)
    rw [shownLine_succ, shownLine_succ] at hi
    rw [getElem?_append_replicate, getElem?_append_replicate, hi, Nat.add_comm]

/-- No line holds a line feed. -/
theorem not_mem_content {t : Text} {l : Line} (h : l ∈ toLines t) : '\n' ∉ l.content := by
  induction t generalizing l with
  | nil => cases h
  | cons c t ih =>
    by_cases hc : c = '\n'
    · rw [toLines, if_pos hc] at h
      rcases List.mem_cons.1 h with rfl | h
      · exact List.not_mem_nil
      · exact ih h
    · cases ht : toLines t with
      | nil =>
        rw [toLines_cons_of_nil hc ht] at h
        rw [List.mem_singleton.1 h]
        simpa using Ne.symm hc
      | cons m ms =>
        rw [toLines_cons_of_ne hc ht] at h
        rw [ht] at ih
        rcases List.mem_cons.1 h with rfl | h
        · have hm : '\n' ∉ m.content := ih List.mem_cons_self
          rw [Line.cons]
          split
          · exact List.not_mem_nil
          · simpa [Ne.symm hc] using hm
        · exact ih (List.mem_cons_of_mem _ h)

theorem not_mem_lines (t : Text) : ∀ l ∈ t.lines, '\n' ∉ l := by
  intro l hl
  rw [lines_eq_map_content] at hl
  obtain ⟨line, hline, rfl⟩ := List.mem_map.1 hl
  exact not_mem_content hline

end Text

/-! ## Rows -/

/-- What a line of a listing shows. -/
structure Row where
  sign : Char
  /-- The number that is shown for the line. -/
  counter : Int32
  line : Text
  deriving DecidableEq

namespace Row

/-- The row as it stands in a listing. -/
def text (r : Row) : Text :=
  r.sign :: ((Text.ofInt32 r.counter).leftpad 4 ' ' ++ " | ".toList ++ r.line ++ ['\n'])

/-- Numbers that are written in the same way are equal. -/
theorem ofNat_injective {m n : Nat} (h : Text.ofNat m = Text.ofNat n) : m = n := by
  have hread := congrArg (Nat.ofDigitChars 10 · 0) h
  simpa only [Text.ofNat, Nat.ofDigitChars_ten_toDigits] using hread

/-- A written word holds nothing but digits and a sign. -/
theorem not_mem_ofInt32 {x : Char} (hx : x.isDigit = false) (hsign : x ≠ '-') (n : Int32) :
    x ∉ Text.ofInt32 n := by
  rw [Text.ofInt32]
  split
  · exact fun h => (List.mem_cons.1 h).elim hsign (Limit.not_mem_ofNat hx _)
  · exact Limit.not_mem_ofNat hx _

/-- Words that are written in the same way are equal: the sign is told from a digit. -/
theorem ofInt32_injective {m n : Int32} (h : Text.ofInt32 m = Text.ofInt32 n) : m = n := by
  have hdigits {k k' : Nat} : '-' :: Text.ofNat k ≠ Text.ofNat k' := by
    intro hk
    exact Limit.not_mem_ofNat (x := '-') (by decide) k' (hk ▸ List.mem_cons_self)
  rw [← Int32.toInt_inj]
  rw [Text.ofInt32, Text.ofInt32] at h
  split at h <;> split at h
  · have := ofNat_injective (List.cons.inj h).2
    omega
  · exact absurd h hdigits
  · exact absurd h.symm hdigits
  · have := ofNat_injective h
    omega

/-- The blanks in front of a number do not hide where it starts. -/
theorem leftpad_injective {m n : Int32}
    (h : (Text.ofInt32 m).leftpad 4 ' ' = (Text.ofInt32 n).leftpad 4 ' ') : m = n := by
  have hdigits (k : Int32) :
      ((Text.ofInt32 k).leftpad 4 ' ').filter (· ≠ ' ') = Text.ofInt32 k := by
    have hblank : ∀ c ∈ Text.ofInt32 k, c ≠ ' ' := by
      rintro c hc rfl
      exact not_mem_ofInt32 (by decide) (by decide) k hc
    rw [List.leftpad, List.filter_append, List.filter_eq_nil_iff.2 (by simp), List.nil_append,
      List.filter_eq_self.2 (by simpa using hblank)]
  have hfilter := congrArg (List.filter (· ≠ ' ')) h
  rw [hdigits, hdigits] at hfilter
  exact ofInt32_injective hfilter

/-- A row in front of a text is read off it. -/
theorem text_append_inj {r r' : Row} {s s' : Text} (hr : '\n' ∉ r.line) (hr' : '\n' ∉ r'.line)
    (h : r.text ++ s = r'.text ++ s') : r = r' ∧ s = s' := by
  have hcut (r : Row) (s : Text) : r.text ++ s =
      r.sign :: ((Text.ofInt32 r.counter).leftpad 4 ' ' ++ [' '] ++ '|' ::
        (' ' :: (r.line ++ '\n' :: s))) := by
    simp [text]
  have hbar (n : Int32) : '|' ∉ (Text.ofInt32 n).leftpad 4 ' ' ++ [' '] := by
    have hdigits : '|' ∉ Text.ofInt32 n := not_mem_ofInt32 (by decide) (by decide) n
    simp [List.leftpad, hdigits]
  rw [hcut, hcut] at h
  obtain ⟨hsign, h⟩ := List.cons.inj h
  obtain ⟨hcounter, h⟩ := Text.cut_unique (hbar _) (hbar _) h
  obtain ⟨hline, hrest⟩ := Text.cut_unique hr hr' (List.cons.inj h).2
  have hn := leftpad_injective (List.append_cancel_right hcounter)
  obtain ⟨_, _, _⟩ := r
  obtain ⟨_, _, _⟩ := r'
  exact ⟨by rw [mk.injEq]; exact ⟨hsign, hn, hline⟩, hrest⟩

/-- A text is read as rows in one way at most. -/
theorem flatMap_text_injective {rs rs' : List Row} (hrs : ∀ r ∈ rs, '\n' ∉ r.line)
    (hrs' : ∀ r ∈ rs', '\n' ∉ r.line) (h : rs.flatMap text = rs'.flatMap text) : rs = rs' := by
  induction rs generalizing rs' with
  | nil =>
    cases rs' with
    | nil => rfl
    | cons r' rs' => cases h
  | cons r rs ih =>
    cases rs' with
    | nil => cases h
    | cons r' rs' =>
      rw [List.flatMap_cons, List.flatMap_cons] at h
      obtain ⟨rfl, hrest⟩ :=
        text_append_inj (hrs r List.mem_cons_self) (hrs' r' List.mem_cons_self) h
      rw [ih (fun r hr => hrs r (List.mem_cons_of_mem _ hr))
        (fun r hr => hrs' r (List.mem_cons_of_mem _ hr)) hrest]

end Row

/-! ## Changes and their rows -/

/-- The rows that show a change: those of its lines that are not empty. -/
def LineChange.rows (c : LineChange) : List Row :=
  [⟨'-', c.counter, c.old⟩, ⟨'+', c.counter, c.new⟩].filter fun r => r.line ≠ []

theorem LineChange.flatMap_text_rows (c : LineChange) : c.rows.flatMap Row.text = c.text := by
  rw [rows, text, row, row]
  by_cases hold : c.old = [] <;> by_cases hnew : c.new = [] <;>
    simp [hold, hnew, Row.text]

/-- The number of words of 32 bits: that many lines are numbered in different ways. -/
def LineChange.counters : Nat := 2 ^ 32

/-- Lines up to that many are told by the numbers that are shown for them. -/
theorem LineChange.ofNat_injective {m n : Nat} (hm : m < counters) (hn : n < counters)
    (h : Int32.ofNat (1 + m) = Int32.ofNat (1 + n)) : m = n := by
  have hbits := congrArg BitVec.toNat (congrArg Int32.toBitVec h)
  simp only [counters] at hm hn
  simp only [Int32.toBitVec_ofNat', BitVec.toNat_ofNat] at hbits
  omega

namespace Listing

/-- The changes of two lists of lines, first line by first line; a missing line counts as empty. -/
theorem changesFrom_step (k : Nat) (old new : List Text) :
    changesFrom k old new =
      (if old.headD [] = new.headD [] then [] else [⟨k, old.headD [], new.headD []⟩]) ++
        changesFrom (k + 1) old.tail new.tail := by
  cases old with
  | nil =>
    cases new with
    | nil => rfl
    | cons b new =>
      rw [changesFrom, List.nil_zipWithAll, List.map_cons, differing_cons, List.tail_nil,
        changesFrom, List.nil_zipWithAll]
      rfl
  | cons a old =>
    cases new with
    | nil =>
      rw [changesFrom, List.zipWithAll_nil, List.map_cons, differing_cons, List.tail_nil,
        changesFrom, List.zipWithAll_nil]
      rfl
    | cons b new => exact differing_cons k a b _

/-- The first lines are listed, and then the other ones. -/
theorem changesFrom_take_drop (n k : Nat) (old new : List Text) : changesFrom k old new =
    changesFrom k (old.take n) (new.take n) ++ changesFrom (k + n) (old.drop n) (new.drop n) := by
  induction n generalizing k old new with
  | zero => rfl
  | succ n ih =>
    have hhead (ls : List Text) : (ls.take (n + 1)).headD [] = ls.headD [] := by
      cases ls <;> rfl
    have htail (ls : List Text) : (ls.take (n + 1)).tail = ls.tail.take n := by
      cases ls <;> simp
    rw [changesFrom_step, changesFrom_step k (old.take (n + 1)), hhead, hhead, htail, htail,
      ih (k + 1), List.append_assoc, List.drop_tail, List.drop_tail, Nat.add_right_comm k 1 n]
    rfl

/-- Only the lines count, missing ones being empty. -/
theorem changesFrom_congr {k : Nat} {old new new' : List Text}
    (h : ∀ i : Nat, new[i]?.getD [] = new'[i]?.getD []) :
    changesFrom k old new = changesFrom k old new' := by
  obtain ⟨len, hlen⟩ : ∃ len, old.length ≤ len ∧ new.length ≤ len ∧ new'.length ≤ len :=
    ⟨old.length + new.length + new'.length, by omega, by omega, by omega⟩
  -- all lists get shorter until there is no line left
  induction len generalizing k old new new' with
  | zero =>
    simp only [Nat.le_zero, List.length_eq_zero_iff] at hlen
    obtain ⟨rfl, rfl, rfl⟩ := hlen
    rfl
  | succ len ih =>
    have hhead : new.headD [] = new'.headD [] := by
      simpa only [List.headD_eq_head?_getD, List.head?_eq_getElem?] using h 0
    have htail (i : Nat) : new.tail[i]?.getD [] = new'.tail[i]?.getD [] := by
      simpa only [List.getElem?_tail] using h (i + 1)
    rw [changesFrom_step, changesFrom_step k old new', hhead, ih htail]
    simp only [List.length_tail]
    omega

/-- A row of a listing shows a line that differs and is not empty: the old one behind a minus, or
the new one behind a plus. -/
theorem mem_rows_iff {old new : List Text} {r : Row} :
    r ∈ (changesFrom 1 old new).flatMap LineChange.rows ↔ ∃ i, r.counter = .ofNat (1 + i) ∧
      r.line ≠ [] ∧ old[i]?.getD [] ≠ new[i]?.getD [] ∧
        (r.sign = '-' ∧ r.line = old[i]?.getD [] ∨ r.sign = '+' ∧ r.line = new[i]?.getD []) := by
  obtain ⟨sign, counter, line⟩ := r
  simp only [List.mem_flatMap, LineChange.rows, List.mem_filter, List.mem_cons, List.not_mem_nil,
    or_false, Row.mk.injEq, decide_eq_true_eq]
  constructor
  · rintro ⟨c, hc, hrow, hne⟩
    obtain ⟨i, hi, hold, hnew, hdiffers⟩ := mem_changesFrom_iff_getD.1 hc
    rw [LineChange.counter, hi, hold, hnew] at hrow
    rw [hold, hnew] at hdiffers
    obtain ⟨hsign, hcounter, hline⟩ | ⟨hsign, hcounter, hline⟩ := hrow
    · exact ⟨i, hcounter, hne, hdiffers, .inl ⟨hsign, hline⟩⟩
    · exact ⟨i, hcounter, hne, hdiffers, .inr ⟨hsign, hline⟩⟩
  · rintro ⟨i, hcounter, hne, hdiffers, hrow⟩
    refine ⟨⟨1 + i, old[i]?.getD [], new[i]?.getD []⟩,
      mem_changesFrom_iff_getD.2 ⟨i, rfl, rfl, rfl, hdiffers⟩, ?_, hne⟩
    exact hrow.imp (fun ⟨hs, hl⟩ => ⟨hs, hcounter, hl⟩) fun ⟨hs, hl⟩ => ⟨hs, hcounter, hl⟩

/-- The text of a listing is that of its rows. -/
theorem flatMap_text_changesFrom (k : Nat) (old new : List Text) :
    (changesFrom k old new).flatMap LineChange.text =
      ((changesFrom k old new).flatMap LineChange.rows).flatMap Row.text := by
  rw [List.flatMap_assoc]
  exact List.flatMap_congr fun c _ => c.flatMap_text_rows.symm

/-- No row holds a line feed when no line does. -/
theorem not_mem_line_of_mem_rows {old new : List Text} (hold : ∀ l ∈ old, '\n' ∉ l)
    (hnew : ∀ l ∈ new, '\n' ∉ l) :
    ∀ r ∈ (changesFrom 1 old new).flatMap LineChange.rows, '\n' ∉ r.line := by
  have hgetD {ls : List Text} (h : ∀ l ∈ ls, '\n' ∉ l) (i : Nat) : '\n' ∉ ls[i]?.getD [] := by
    cases hl : ls[i]? with
    | none => exact List.not_mem_nil
    | some l => exact h l (List.mem_of_getElem? hl)
  intro r hr
  obtain ⟨i, -, -, -, ⟨-, hline⟩ | ⟨-, hline⟩⟩ := mem_rows_iff.1 hr
  · rw [hline]
    exact hgetD hold i
  · rw [hline]
    exact hgetD hnew i

/-- A line that is new in one of two lists with the same rows is the same line in the other; up to
as many lines as there are numbers, a row tells which line it shows. -/
theorem getD_eq_of_differs {old new new' : List Text} (hold : old.length ≤ LineChange.counters)
    (hnew : new.length ≤ LineChange.counters) (hnew' : new'.length ≤ LineChange.counters)
    (h : (changesFrom 1 old new).flatMap LineChange.rows =
      (changesFrom 1 old new').flatMap LineChange.rows) {i : Nat}
    (hdiffers : old[i]?.getD [] ≠ new[i]?.getD []) : new'[i]?.getD [] = new[i]?.getD [] := by
  have hlt {ls ls' : List Text} (hls : ls.length ≤ LineChange.counters)
      (hls' : ls'.length ≤ LineChange.counters) {j : Nat} (hne : ls[j]?.getD [] ≠ ls'[j]?.getD []) :
      j < LineChange.counters := by
    refine Nat.lt_of_not_le fun hle => hne ?_
    rw [List.getElem?_eq_none (by omega), List.getElem?_eq_none (by omega)]
  have hi := hlt hold hnew hdiffers
  by_cases hempty : new[i]?.getD [] = []
  · -- the old line is shown, and so the other list differs too; it shows no new line
    have hrow : (⟨'-', .ofNat (1 + i), old[i]?.getD []⟩ : Row) ∈
        (changesFrom 1 old new).flatMap LineChange.rows :=
      mem_rows_iff.2 ⟨i, rfl, fun ho => hdiffers (ho.trans hempty.symm), hdiffers, .inl ⟨rfl, rfl⟩⟩
    rw [h] at hrow
    obtain ⟨j, hj, -, hdiffers', -⟩ := mem_rows_iff.1 hrow
    obtain rfl := LineChange.ofNat_injective hi (hlt hold hnew' hdiffers') hj
    by_contra hne
    have hrow' : (⟨'+', .ofNat (1 + i), new'[i]?.getD []⟩ : Row) ∈
        (changesFrom 1 old new').flatMap LineChange.rows :=
      mem_rows_iff.2 ⟨i, rfl, fun hn => hne (hn.trans hempty.symm), hdiffers', .inr ⟨rfl, rfl⟩⟩
    rw [← h] at hrow'
    obtain ⟨j, hj, -, hdiffers'', ⟨hsign, -⟩ | ⟨-, hline⟩⟩ := mem_rows_iff.1 hrow'
    · cases hsign
    · obtain rfl := LineChange.ofNat_injective hi (hlt hold hnew hdiffers'') hj
      exact hne hline
  · have hrow : (⟨'+', .ofNat (1 + i), new[i]?.getD []⟩ : Row) ∈
        (changesFrom 1 old new).flatMap LineChange.rows :=
      mem_rows_iff.2 ⟨i, rfl, hempty, hdiffers, .inr ⟨rfl, rfl⟩⟩
    rw [h] at hrow
    obtain ⟨j, hj, -, hdiffers', ⟨hsign, -⟩ | ⟨-, hline⟩⟩ := mem_rows_iff.1 hrow
    · cases hsign
    · obtain rfl := LineChange.ofNat_injective hi (hlt hold hnew' hdiffers') hj
      exact hline.symm

/-- Two listings of one old text tell the same new lines, when the new texts have no more lines
than there are numbers. What the old text has behind that many lines is listed in both as missing
in the new one. -/
theorem getD_eq_of_flatMap_text_eq {old new new' : List Text} (hline : ∀ l ∈ old, '\n' ∉ l)
    (hline' : ∀ l ∈ new, '\n' ∉ l) (hline'' : ∀ l ∈ new', '\n' ∉ l)
    (hnew : new.length ≤ LineChange.counters) (hnew' : new'.length ≤ LineChange.counters)
    (h : (changesFrom 1 old new).flatMap LineChange.text =
      (changesFrom 1 old new').flatMap LineChange.text) (i : Nat) :
    new[i]?.getD [] = new'[i]?.getD [] := by
  rw [changesFrom_take_drop LineChange.counters,
    changesFrom_take_drop LineChange.counters 1 old new', List.drop_of_length_le hnew,
    List.drop_of_length_le hnew', List.take_of_length_le hnew, List.take_of_length_le hnew',
    List.flatMap_append, List.flatMap_append] at h
  have hnear := List.append_cancel_right h
  have hold : (old.take LineChange.counters).length ≤ LineChange.counters :=
    List.length_take_le _ _
  have htake : ∀ l ∈ old.take LineChange.counters, '\n' ∉ l :=
    fun l hl => hline l (List.mem_of_mem_take hl)
  rw [flatMap_text_changesFrom, flatMap_text_changesFrom] at hnear
  have hrows := Row.flatMap_text_injective (not_mem_line_of_mem_rows htake hline')
    (not_mem_line_of_mem_rows htake hline'') hnear
  by_cases hdiffers : (old.take LineChange.counters)[i]?.getD [] = new[i]?.getD []
  · by_cases hdiffers' : (old.take LineChange.counters)[i]?.getD [] = new'[i]?.getD []
    · exact hdiffers.symm.trans hdiffers'
    · exact getD_eq_of_differs hold hnew' hnew hrows.symm hdiffers'
  · exact (getD_eq_of_differs hold hnew hnew' hrows hdiffers).symm

/-- The text of a change is not empty: one of its lines is shown. -/
theorem text_ne_nil_of_mem_changesFrom {k : Nat} {old new : List Text} {c : LineChange}
    (hc : c ∈ changesFrom k old new) : c.text ≠ [] := by
  obtain ⟨i, -, -, -, hne⟩ := mem_changesFrom_iff_getD.1 hc
  intro hnil
  rw [LineChange.text, List.append_eq_nil_iff, LineChange.row, LineChange.row] at hnil
  have hempty {sign : Char} {counter : Int32} {line : Text}
      (h : (if line.isEmpty then [] else
        sign :: ((Text.ofInt32 counter).leftpad 4 ' ' ++ " | ".toList ++ line ++ ['\n'])) = []) :
      line = [] := by
    simpa using h
  exact hne ((hempty hnil.1).trans (hempty hnil.2).symm)

/-- The listing of two texts is empty when the texts differ in no line. -/
theorem flatMap_text_eq_nil_iff {old new : Text} :
    (changes old new).flatMap LineChange.text = [] ↔ ∀ n, old.shownLine n = new.shownLine n := by
  rw [changes_eq, List.flatMap_eq_nil_iff]
  constructor
  · rintro h (_ | i)
    · rfl
    · by_contra hne
      exact text_ne_nil_of_mem_changesFrom (mem_changesFrom_iff_getD.2 ⟨i, rfl, rfl, rfl, hne⟩)
        (h ⟨1 + i, old.lines[i]?.getD [], new.lines[i]?.getD []⟩
          (mem_changesFrom_iff_getD.2 ⟨i, rfl, rfl, rfl, hne⟩))
  · intro h c hc
    obtain ⟨i, -, hold, hnew, hne⟩ := mem_changesFrom_iff_getD.1 hc
    exact absurd (hold.trans ((h (i + 1)).trans hnew.symm)) hne

end Listing

namespace Listing

/-- The lines of a text that ends in a line behind empty ones. -/
theorem lines_replicate_append (n : Nat) :
    Text.lines (List.replicate n '\n' ++ ['x']) = List.replicate n [] ++ [['x']] := by
  induction n with
  | zero => rfl
  | succ n ih =>
    rw [List.replicate_succ, List.replicate_succ, List.cons_append, List.cons_append, ← ih]
    rfl

/-- The first line is empty when empty lines stand in front. -/
theorem shownLine_replicate_append {n : Nat} (hn : 0 < n) :
    Text.shownLine 1 (List.replicate n '\n' ++ ['x']) = [] := by
  obtain ⟨n, rfl⟩ : ∃ k, n = k + 1 := ⟨n - 1, by omega⟩
  rw [Text.shownLine_succ, lines_replicate_append]
  rfl

/-- A line behind empty ones is listed with its number, and nothing else is. -/
theorem between?_replicate_append (n : Nat) :
    between? [] (List.replicate n '\n' ++ ['x']) =
      some (LineChange.row '+' (.ofNat (n + 1)) ['x']) := by
  have hchanges (k : Nat) : changesFrom k [] (List.replicate n [] ++ [['x']]) =
      [⟨k + n, [], ['x']⟩] := by
    induction n generalizing k with
    | zero => rfl
    | succ n ih =>
      rw [changesFrom_step, List.replicate_succ, List.cons_append, List.tail_cons, List.tail_nil,
        ih, Nat.add_right_comm, Nat.add_assoc]
      rfl
  have hne : [] ≠ List.replicate n '\n' ++ ['x'] := by simp
  rw [between?, if_neg hne, changes_eq, lines_replicate_append]
  show some ((changesFrom 1 [] (List.replicate n [] ++ [['x']])).flatMap LineChange.text) = _
  rw [hchanges, List.flatMap_singleton, Nat.add_comm]
  rfl

end Listing

end TimeLimit
