import Mathlib
import TimeLimit.Listing
import TimeLimit.Proofs.Checked.Locate

/-!
# Listings with a checked counter

The lines of a listing are counted in words of 32 bits with a sign. `Checked.between?` counts them
with a check: the number behind a number is computed before a line is looked at, and one more when
the lines have come to their end. So it panics for texts of more than two thousand million lines,
and up to there it gives the listing (`Checked.between?_eq`), in which the number that is shown is
the place of the line (`LineChange.ofInt32_counter`).
-/

namespace TimeLimit

/-- The number that is shown is the place of the line, up to the largest word. -/
theorem LineChange.ofInt32_counter {c : LineChange} (h : c.number < 2 ^ 31) :
    Text.ofInt32 c.counter = Text.ofNat c.number := by
  have hcounter : c.counter.toInt = c.number := Int32.toInt_ofNat_of_lt h
  rw [Text.ofInt32, hcounter, if_neg (Int.not_lt.2 (Int.natCast_nonneg _)), Int.natAbs_natCast]

namespace Checked

/-- The number behind a number. -/
def count (n : Int32) : Except Panic Int32 :=
  if n.toInt + 1 < 2 ^ 31 then .ok (n + 1) else .error .overflow

/-- Lists the lines that differ, counting on from a number. -/
def listFrom : Int32 → List (Text × Text) → Except Panic Text
  | n, [] => do
    let _ ← count n
    return []
  | n, (old, new) :: pairs => do
    let next ← count n
    let rest ← listFrom next pairs
    return (if old = new then [] else LineChange.row '-' n old ++ LineChange.row '+' n new) ++ rest

/-- The listing of what changed between two texts; there is none when they are equal. -/
def between? (old new : Text) : Except Panic (Option Text) :=
  if old = new then .ok none else (listFrom 1 (Listing.sideBySide old new)).map some

theorem count_ofNat {k : Nat} (hk : k < 2 ^ 31) :
    count (.ofNat k) = if k + 1 < 2 ^ 31 then .ok (.ofNat (k + 1)) else .error .overflow := by
  have hlt : (k : Int) + 1 < 2 ^ 31 ↔ k + 1 < 2 ^ 31 := by omega
  simp only [count, Int32.toInt_ofNat_of_lt hk, hlt, Int32.ofNat_add]
  rfl

/-- Lines are listed when the counter does not come to the largest word behind the last of them. -/
theorem listFrom_eq {k : Nat} (hk : k < 2 ^ 31) (pairs : List (Text × Text)) :
    listFrom (.ofNat k) pairs = if k + pairs.length + 1 < 2 ^ 31 then
      .ok ((Listing.differing k pairs).flatMap LineChange.text) else .error .overflow := by
  induction pairs generalizing k with
  | nil =>
    rw [listFrom, count_ofNat hk, List.length_nil, Nat.add_zero]
    split <;> rfl
  | cons pair pairs ih =>
    obtain ⟨old, new⟩ := pair
    rw [listFrom, count_ofNat hk, List.length_cons]
    by_cases hnext : k + 1 < 2 ^ 31
    · have hlt : k + 1 + pairs.length + 1 < 2 ^ 31 ↔ k + (pairs.length + 1) + 1 < 2 ^ 31 := by omega
      rw [if_pos hnext, ok_bind, ih hnext, Listing.differing_cons, List.flatMap_append]
      simp only [hlt]
      split
      · rw [ok_bind]
        by_cases hsame : old = new
        · rw [if_pos hsame, if_pos hsame]
          rfl
        · rw [if_neg hsame, if_neg hsame, List.flatMap_singleton]
          rfl
      · rfl
    · have hnot : ¬ k + (pairs.length + 1) + 1 < 2 ^ 31 := by omega
      rw [if_neg hnext, if_neg hnot]
      rfl

/-- There are as many lines side by side as the longer text has. -/
theorem length_sideBySide (old new : Text) :
    (Listing.sideBySide old new).length = max old.lines.length new.lines.length := by
  rw [Listing.sideBySide]
  generalize old.lines = xs
  generalize new.lines = ys
  induction xs generalizing ys with
  | nil => simp
  | cons x xs ih =>
    cases ys with
    | nil => simp
    | cons y ys => simp [ih, Nat.succ_max_succ]

/-- A counter that is checked lists the same, or panics when a text has too many lines. -/
theorem between?_eq (old new : Text) : between? old new =
    if old = new ∨ max old.lines.length new.lines.length + 2 < 2 ^ 31 then
      .ok (Listing.between? old new) else .error .overflow := by
  rw [between?, Listing.between?]
  by_cases hsame : old = new
  · rw [if_pos hsame, if_pos hsame, if_pos (.inl hsame)]
  · have hone : (1 : Int32) = .ofNat 1 := rfl
    have hlt : 1 + (Listing.sideBySide old new).length + 1 < 2 ^ 31 ↔
        old = new ∨ max old.lines.length new.lines.length + 2 < 2 ^ 31 := by
      rw [length_sideBySide]
      simp only [hsame, false_or]
      omega
    rw [if_neg hsame, if_neg hsame, hone, listFrom_eq (by decide)]
    simp only [hlt]
    split <;> rfl

end Checked

end TimeLimit
