import TimeLimit.Proofs.Checked.Listing
import TimeLimit.Proofs.Lines
import TimeLimit.Proofs.SingleStep

/-!
# The lines that a revision changes

A revision puts each of its words behind a character that is no blank, on the line of its slot
(`inserted_revision`), and so it keeps the lines of a source and changes those with a slot. The
listing of the changes shows just these lines, each in both texts: comparing lines by position loses
nothing here, and no row of the listing is left out for being empty
(`revision_changes_lines_with_slots`).
-/

namespace TimeLimit

/-! ## Changes of numbered lines -/

/-- The line of a text with a number, from one. -/
def Text.line? : Nat → Text → Option Text
  | 0, _ => none
  | n + 1, t => t.lines[n]?

namespace Listing

/-- The lines that differ between two lists of lines that are numbered from `k`. -/
def changesFrom (k : Nat) (old new : List Text) : List LineChange :=
  differing k (List.zipWithAll (fun a b => (a.getD [], b.getD [])) old new)

theorem changes_eq (old new : Text) : changes old new = changesFrom 1 old.lines new.lines :=
  rfl

theorem changesFrom_nil (k : Nat) : changesFrom k [] [] = [] :=
  rfl

theorem changesFrom_cons_self (k : Nat) (a : Text) (old new : List Text) :
    changesFrom k (a :: old) (a :: new) = changesFrom (k + 1) old new := by
  simp [changesFrom, differing_cons]

theorem changesFrom_cons_of_ne {a b : Text} (h : a ≠ b) (k : Nat) (old new : List Text) :
    changesFrom k (a :: old) (b :: new) = ⟨k, a, b⟩ :: changesFrom (k + 1) old new := by
  simp [changesFrom, differing_cons, h]

theorem changesFrom_cons_of_length_lt {a b : Text} (h : a.length < b.length) (k : Nat)
    (old new : List Text) :
    changesFrom k (a :: old) (b :: new) = ⟨k, a, b⟩ :: changesFrom (k + 1) old new :=
  changesFrom_cons_of_ne (fun hab => Nat.lt_irrefl _ (hab ▸ h)) k old new

/-- The changes of two lists of lines are those lines that differ, missing ones being empty. -/
theorem mem_changesFrom_iff_getD {k : Nat} {old new : List Text} {c : LineChange} :
    c ∈ changesFrom k old new ↔ ∃ i, c.number = k + i ∧ c.old = old[i]?.getD [] ∧
      c.new = new[i]?.getD [] ∧ c.old ≠ c.new := by
  rw [changesFrom, differing, List.mem_filterMap]
  constructor
  · rintro ⟨⟨p, n⟩, hmem, hc⟩
    obtain ⟨hle, hp⟩ := List.mk_mem_zipIdx_iff_le_and_getElem?_sub.1 hmem
    obtain ⟨hne, hc⟩ := Option.ite_none_left_eq_some.1 hc
    cases hc
    rw [List.getElem?_zipWithAll] at hp
    refine ⟨n - k, (Nat.add_sub_cancel' hle).symm, ?_⟩
    split at hp
    · cases hp
    · cases hp
      exact ⟨rfl, rfl, hne⟩
  · rintro ⟨i, hn, hold, hnew, hne⟩
    refine ⟨((c.old, c.new), c.number), List.mk_mem_zipIdx_iff_le_and_getElem?_sub.2 ⟨?_, ?_⟩, ?_⟩
    · omega
    · rw [List.getElem?_zipWithAll, hn, Nat.add_sub_cancel_left]
      split
      · next ho hw =>
        rw [hold, hnew, ho, hw] at hne
        exact absurd rfl hne
      · rw [hold, hnew]
    · exact if_neg hne

/-- Between equally many lines, the changes are the lines that differ in the same place. -/
theorem mem_changesFrom_iff {k : Nat} {old new : List Text} (hlen : old.length = new.length)
    {c : LineChange} : c ∈ changesFrom k old new ↔
      ∃ i, c.number = k + i ∧ old[i]? = some c.old ∧ new[i]? = some c.new ∧ c.old ≠ c.new := by
  rw [mem_changesFrom_iff_getD]
  refine exists_congr fun i => and_congr_right fun _ => ?_
  by_cases hi : i < old.length
  · rw [List.getElem?_eq_getElem hi, List.getElem?_eq_getElem (hlen ▸ hi)]
    simp [eq_comm]
  · have hold : old[i]? = none := List.getElem?_eq_none (Nat.le_of_not_lt hi)
    have hnew : new[i]? = none := List.getElem?_eq_none (hlen ▸ Nat.le_of_not_lt hi)
    rw [hold, hnew]
    refine iff_of_false ?_ nofun
    rintro ⟨ha, hb, hne⟩
    exact hne (ha.trans hb.symm)

/-- Changes stand in the order of the lines. -/
theorem pairwise_changesFrom {k : Nat} {old new : List Text} (hlen : old.length = new.length) :
    (changesFrom k old new).Pairwise fun c c' => c.number < c'.number := by
  induction old generalizing k new with
  | nil =>
    obtain rfl := List.length_eq_zero_iff.1 hlen.symm
    exact .nil
  | cons a old ih =>
    obtain _ | ⟨b, new⟩ := new
    · cases hlen
    have hrest : old.length = new.length := Nat.succ.inj hlen
    by_cases hab : a = b
    · subst hab
      rw [changesFrom_cons_self]
      exact ih hrest
    · rw [changesFrom_cons_of_ne hab]
      refine .cons (fun c hc => ?_) (ih hrest)
      obtain ⟨i, hi, -⟩ := (mem_changesFrom_iff hrest).1 hc
      show k < c.number
      omega

/-- The changes between two texts of equally many lines are the numbered lines that differ. -/
theorem mem_changes_iff {old new : Text} (hlen : old.lines.length = new.lines.length)
    {c : LineChange} : c ∈ changes old new ↔
      old.line? c.number = some c.old ∧ new.line? c.number = some c.new ∧ c.old ≠ c.new := by
  rw [changes_eq, mem_changesFrom_iff hlen]
  obtain ⟨_ | n, a, b⟩ := c
  · simp [Text.line?]
    omega
  · simp [Text.line?, Nat.add_comm 1]

/-- A line differs between two texts of equally many lines when a change has its number. -/
theorem line?_ne_iff {old new : Text} (hlen : old.lines.length = new.lines.length) {n : Nat} :
    old.line? n ≠ new.line? n ↔ ∃ c ∈ changes old new, c.number = n := by
  constructor
  · intro hne
    obtain _ | n := n
    · exact absurd rfl hne
    by_cases hn : n < old.lines.length
    · have hn' : n < new.lines.length := hlen ▸ hn
      have hold : old.line? (n + 1) = some old.lines[n] := List.getElem?_eq_getElem hn
      have hnew : new.line? (n + 1) = some new.lines[n] := List.getElem?_eq_getElem hn'
      rw [hold, hnew, ne_eq, Option.some.injEq] at hne
      exact ⟨⟨n + 1, _, _⟩, (mem_changes_iff hlen).2 ⟨hold, hnew, hne⟩, rfl⟩
    · have hold : old.line? (n + 1) = none := List.getElem?_eq_none (Nat.le_of_not_lt hn)
      have hnew : new.line? (n + 1) = none :=
        List.getElem?_eq_none (hlen ▸ Nat.le_of_not_lt hn)
      exact absurd (hold.trans hnew.symm) hne
  · rintro ⟨c, hc, rfl⟩
    obtain ⟨hold, hnew, hne⟩ := (mem_changes_iff hlen).1 hc
    rw [hold, hnew]
    simpa using hne

end Listing

/-! ## Changes of lines that grow -/

namespace Grown

variable {k : Nat} {ks : List Nat} {ls ls' : List Line}

/-- The lines that have grown are changes, and there are no others. -/
theorem exists_change_iff (h : Grown k ks ls ls') {n : Nat} :
    (∃ c ∈ Listing.changesFrom k (ls.map Line.content) (ls'.map Line.content), c.number = n) ↔
      n ∈ ks := by
  induction h with
  | nil => simp [Listing.changesFrom_nil]
  | same l h ih => rw [List.map_cons, List.map_cons, Listing.changesFrom_cons_self, ih]
  | longer hne hlt h ih =>
    rw [List.map_cons, List.map_cons, Listing.changesFrom_cons_of_length_lt hlt, List.mem_append,
      ← ih]
    simp [eq_comm]

/-- A line that has grown is not empty, neither before nor after. -/
theorem ne_nil_of_mem_changes (h : Grown k ks ls ls') {c : LineChange}
    (hc : c ∈ Listing.changesFrom k (ls.map Line.content) (ls'.map Line.content)) :
    c.old ≠ [] ∧ c.new ≠ [] := by
  induction h with
  | nil => cases hc
  | same l h ih =>
    rw [List.map_cons, List.map_cons, Listing.changesFrom_cons_self] at hc
    exact ih hc
  | longer hne hlt h ih =>
    rw [List.map_cons, List.map_cons, Listing.changesFrom_cons_of_length_lt hlt] at hc
    cases hc with
    | head => exact ⟨hne, List.ne_nil_of_length_pos (Nat.zero_lt_of_lt hlt)⟩
    | tail _ hc => exact ih hc

/-- There are no more changes than words. -/
theorem length_changes_le (h : Grown k ks ls ls') :
    (Listing.changesFrom k (ls.map Line.content) (ls'.map Line.content)).length ≤ ks.length := by
  induction h with
  | nil => exact Nat.le_refl 0
  | same l h ih =>
    rw [List.map_cons, List.map_cons, Listing.changesFrom_cons_self]
    exact ih
  | longer hne hlt h ih =>
    rw [List.map_cons, List.map_cons, Listing.changesFrom_cons_of_length_lt hlt, List.length_cons,
      List.length_append, List.length_replicate]
    omega

end Grown

/-! ## Words of a revision -/

/-- The tests of an outline close. -/
theorem Outlined.closed_of_mem {t : Text} {xs : List Piece} (h : Outlined t xs) {c : TestCase}
    (hc : Piece.test c ∈ xs) : c.Closed := by
  induction h with
  | plain h => simp at hc
  | stray hl hu ho ih => exact ih (by simpa using hc)
  | test hl hclosed ho ih =>
    simp only [List.mem_cons, reduceCtorEq, false_or, Piece.test.injEq] at hc
    rcases hc with rfl | hc
    · exact hclosed
    · exact ih hc

/-- What stands in a test before the slot does not end in a blank: it is the last argument or its
comma, or, in a tail without arguments, the brace that ends the body. -/
theorem TestCase.Closed.exists_getLast? {c : TestCase} (hc : c.Closed) :
    ∃ x, (c.header.text ++ c.body ++ (Tail.split c.tail).1).getLast? = some x ∧
      Text.isBlank x = false := by
  obtain ⟨inside, hbody, -, -⟩ := hc
  rcases (Tail.split c.tail).1.eq_nil_or_concat with hkept | ⟨y, x, hkept⟩
  · exact ⟨'}', by simp [hkept, hbody, List.getLast?_cons], by decide⟩
  · have hlast : (Tail.split c.tail).1.getLast? = some x := by simp [hkept]
    exact ⟨x, by simp [List.getLast?_append, hlast], Tail.isBlank_getLast_split hlast⟩

/-- Behind a character that is no blank, an insertion ends no line. -/
theorem Tail.endsNoLine_insertion {x : Char} (hx : Text.isBlank x = false) (kept : Text)
    (seconds : UInt64) : Text.EndsNoLine (x :: insertion kept seconds) := by
  have hne {y : Char} (hy : Text.isBlank y = true) : y ≠ x := by
    rintro rfl
    rw [hx] at hy
    cases hy
  refine ⟨?_, ?_⟩
  · rw [List.mem_cons, not_or]
    exact ⟨hne (by decide), not_mem_insertion (by decide) (by decide) kept seconds⟩
  · rw [List.mem_cons, not_or]
    exact ⟨hne (by decide), not_mem_insertion (by decide) (by decide) kept seconds⟩

/-- A revision puts one word into a test that lacks a limit, on the line of its slot. -/
theorem TestCase.Closed.inserted {c : TestCase} (hc : c.Closed) (seconds : UInt64) (k : Nat) :
    Inserted k [k + Text.lineEnds (c.header.text ++ c.body ++ (Tail.split c.tail).1)] c.text
      (text { c with tail := Tail.withLimit seconds c.tail }) := by
  obtain ⟨x, hx, hblank⟩ := hc.exists_getLast?
  have hne : Tail.insertion (Tail.split c.tail).1 seconds ≠ [] := by
    unfold Tail.insertion
    split <;> exact List.cons_ne_nil _ _
  have h := Inserted.behind hx (Tail.endsNoLine_insertion hblank _ seconds) hne k
    ((Tail.split c.tail).2 ++ [')'])
  rw [before_slot_append] at h
  simpa [text, Tail.withLimit] using h

/-- A revision puts words into pieces on the lines of their slots. -/
theorem inserted_pieces {source pre : Text} {xs : List Piece}
    (hs : source = pre ++ xs.flatMap Piece.text) (hclosed : ∀ c, Piece.test c ∈ xs → c.Closed)
    (seconds : UInt64) :
    Inserted (1 + Text.lineEnds pre)
      ((collect Piece.slot? (Place.origin.past pre) xs).map fun s => Text.lineAt s.offset source)
      (xs.flatMap Piece.text) (xs.flatMap fun x => (x.withLimit seconds).text) := by
  induction xs generalizing pre with
  | nil => exact .nil
  | cons x xs ih =>
    rw [List.flatMap_cons, ← List.append_assoc] at hs
    have ih := ih hs fun c hc => hclosed c (List.mem_cons_of_mem _ hc)
    rw [← Place.past_past, Text.lineEnds_append, ← Nat.add_assoc] at ih
    rw [List.flatMap_cons, List.flatMap_cons]
    cases hx : x.slot? (Place.origin.past pre) with
    | none =>
      rw [collect_cons_none hx, Piece.withLimit_eq_self (Piece.slot?_eq_none_iff.1 hx)]
      exact (Inserted.refl _ x.text).append ih
    | some s =>
      cases x with
      | plain t => cases hx
      | stray h u => cases hx
      | test c =>
        have hlimit := hx
        simp only [Piece.slot?, Option.ite_none_left_eq_some, Option.some.injEq] at hx
        obtain ⟨hl, rfl⟩ := hx
        let front := c.header.text ++ c.body ++ (Tail.split c.tail).1
        have hsource : source = pre ++ front ++
            ((Tail.split c.tail).2 ++ [')'] ++ xs.flatMap Piece.text) := by
          rw [hs, Piece.text, ← c.before_slot_append]
          simp only [front, List.append_assoc]
        have hoffset : (Slot.behind ((Place.origin.past pre).offset +
            Text.size (c.header.text ++ c.body)) (Tail.split c.tail).1).offset =
            Text.size (pre ++ front) := by
          simp [Slot.behind, front, Nat.add_assoc]
        rw [collect_cons_some hlimit, List.map_cons, Piece.withLimit, if_neg hl, hoffset, hsource,
          Text.lineAt_size_append, Text.lineEnds_append, ← Nat.add_assoc, ← hsource]
        exact ((hclosed c List.mem_cons_self).inserted seconds _).append ih

/-- A revision puts words into a source on the lines of its slots. -/
theorem inserted_revision (source : Text) (seconds : UInt64) :
    Inserted 1 ((slots source).map fun s => Text.lineAt s.offset source) source
      (Revision.of source seconds).text := by
  have hsource := flatMap_text_outline source
  have hs : source = [] ++ (outline source).flatMap Piece.text := hsource.symm
  have h := inserted_pieces hs (fun c hc => (outlined_outline source).closed_of_mem hc) seconds
  rwa [hsource, Place.past_nil, ← slots_eq_collect] at h

/-! ## The listing of a revision -/

/-- The rows of a change in which no line is empty. -/
theorem LineChange.text_of_ne_nil {c : LineChange} (hold : c.old ≠ []) (hnew : c.new ≠ []) :
    c.text =
      '-' :: ((Text.ofInt32 c.counter).leftpad 4 ' ' ++ " | ".toList ++ c.old ++ ['\n']) ++
      '+' :: ((Text.ofInt32 c.counter).leftpad 4 ' ' ++ " | ".toList ++ c.new ++ ['\n']) := by
  rw [text, row, row, if_neg (by simpa using hold), if_neg (by simpa using hnew)]

/-- The changes of a revision: as many lines as the source has, each with its old end; those that
differ are the lines of the slots, and are empty in neither text; and they are no more than the
slots. -/
theorem changes_revision (source : Text) (seconds : UInt64) :
    let r := Revision.of source seconds
    r.text.toLines.map Line.ending = source.toLines.map Line.ending ∧
    source.lines.length = r.text.lines.length ∧
    (∀ n, (∃ c ∈ Listing.changes source r.text, c.number = n) ↔
      ∃ s ∈ slots source, Text.lineAt s.offset source = n) ∧
    (∀ c ∈ Listing.changes source r.text, c.old ≠ [] ∧ c.new ≠ []) ∧
    (Listing.changes source r.text).length ≤ r.added := by
  intro r
  have h := (inserted_revision source seconds).grown
  have hlen := congrArg List.length h.map_ending
  rw [List.length_map, List.length_map] at hlen
  rw [Listing.changes_eq, Text.lines_eq_map_content, Text.lines_eq_map_content,
    List.length_map, List.length_map]
  refine ⟨h.map_ending, hlen.symm, fun n => ?_, fun c hc => h.ne_nil_of_mem_changes hc, ?_⟩
  · rw [h.exists_change_iff, List.mem_map]
  · have hle := h.length_changes_le
    rwa [List.length_map, ← added_eq_length_slots source seconds] at hle

end TimeLimit
