import TimeLimit.Text.Basic

/-!
# Blank characters

The characters with the White_Space property, and the split of a text before its trailing blanks
(`splitTrailing`). The split loses nothing, what it cuts off is blank, and what it keeps does not
end in a blank.
-/

namespace TimeLimit

namespace Text

/-- The code points with the White_Space property. -/
def blankCodes : List Nat :=
  [0x9, 0xA, 0xB, 0xC, 0xD, 0x20, 0x85, 0xA0, 0x1680, 0x2000, 0x2001, 0x2002, 0x2003, 0x2004,
    0x2005, 0x2006, 0x2007, 0x2008, 0x2009, 0x200A, 0x2028, 0x2029, 0x202F, 0x205F, 0x3000]

/-- Tells whether a character is white space. -/
def isBlank (c : Char) : Bool :=
  blankCodes.contains c.toNat

/-- Every white space character of the ASCII range is blank. -/
theorem isBlank_of_isWhitespace {c : Char} (h : c.isWhitespace = true) : isBlank c = true := by
  simp only [Char.isWhitespace, Bool.or_eq_true, decide_eq_true_eq] at h
  rcases h with ((rfl | rfl) | rfl) | rfl <;> decide

/-- A character that is not blank does not stand in a run of blanks. -/
theorem not_mem_of_isBlank {g : Text} {x : Char} (hg : ∀ c ∈ g, isBlank c = true)
    (hx : isBlank x = false) : x ∉ g := by
  intro h
  rw [hg x h] at hx
  cases hx

/-- A text without its trailing blanks, and those blanks. -/
def splitTrailing (t : Text) : Text × Text :=
  let r := t.reverse
  ((r.dropWhile isBlank).reverse, (r.takeWhile isBlank).reverse)

theorem splitTrailing_append (t : Text) : (splitTrailing t).1 ++ (splitTrailing t).2 = t := by
  simp only [splitTrailing]
  rw [← List.reverse_append, List.takeWhile_append_dropWhile, List.reverse_reverse]

theorem isBlank_of_mem_splitTrailing {t : Text} {c : Char} (h : c ∈ (splitTrailing t).2) :
    isBlank c = true := by
  simp only [splitTrailing, List.mem_reverse] at h
  exact List.all_eq_true.1 (List.all_takeWhile) c h

/-- What is kept is empty or ends in a character that is not blank. -/
theorem isBlank_getLast_splitTrailing {t : Text} {c : Char}
    (h : (splitTrailing t).1.getLast? = some c) : isBlank c = false := by
  simp only [splitTrailing, List.getLast?_reverse] at h
  have := List.head?_dropWhile_not isBlank t.reverse
  rw [h] at this
  simpa using this

end Text

end TimeLimit
