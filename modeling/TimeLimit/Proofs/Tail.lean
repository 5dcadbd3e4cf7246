import TimeLimit.Tail
import TimeLimit.Proofs.Bracket

/-!
# The word that adds a limit

What `Tail.insertion` puts into the tail of a call is neutral (`Tail.neutral_insertion`): it closes
the two parentheses it opens and holds no brace. It ends no line, and the tail that gets it is known
to set a limit (`Tail.isSetIn_withLimit`). So the new tail is the old one padded
(`Tail.padded_withLimit`), it still ends at the parenthesis that closes the call
(`Tail.balanced_withLimit`), and it stands on as many lines (`Tail.lineEnds_withLimit`).
-/

namespace TimeLimit

open TimeLimit.Bracket

namespace Limit

/-- A character that is no digit does not stand in a decimal number. -/
theorem not_mem_ofNat {x : Char} (hx : x.isDigit = false) (n : Nat) : x ∉ Text.ofNat n := by
  intro h
  have := Nat.isDigit_of_mem_toDigits (by decide) (by decide) h
  rw [hx] at this
  cases this

/-- The argument in its written form. -/
theorem argument_eq (seconds : UInt64) :
    argument seconds =
      "timeout: Timeout(Duration(seconds: ".toList ++ (Text.ofNat seconds.toNat ++ [')', ')']) := by
  unfold argument
  generalize Text.ofNat seconds.toNat = digits
  rfl

/-- A character that is no digit stands in all arguments or in none. -/
theorem not_mem_argument {x : Char} (hd : x.isDigit = false) (hx : x ∉ argument 0)
    (seconds : UInt64) : x ∉ argument seconds := by
  rw [argument_eq, List.mem_append, List.mem_append] at hx ⊢
  rintro (h | h | h)
  · exact hx (.inl h)
  · exact not_mem_ofNat hd seconds.toNat h
  · exact hx (.inr (.inr h))

/-- The argument is a call inside a call, and closes both. -/
theorem balanced_argument (seconds : UInt64) : Balanced '(' ')' (argument seconds) := by
  have hinner : Balanced '(' ')' ("seconds: ".toList ++ Text.ofNat seconds.toNat) :=
    .append (balanced_of_not_mem (by decide) (by decide))
      (balanced_of_not_mem (not_mem_ofNat (by decide) _) (not_mem_ofNat (by decide) _))
  have hduration : Balanced '(' ')' ("Duration".toList ++
      ('(' :: ("seconds: ".toList ++ Text.ofNat seconds.toNat) ++ [')'])) :=
    .append (balanced_of_not_mem (by decide) (by decide)) (hinner.wrap (by decide))
  have htimeout := Balanced.append (balanced_of_not_mem (t := "timeout: Timeout".toList)
    (by decide) (by decide)) (hduration.wrap (by decide))
  have hwords : "timeout: Timeout(Duration(seconds: ".toList =
      "timeout: Timeout".toList ++ '(' :: ("Duration".toList ++ '(' :: "seconds: ".toList) := by
    rfl
  rw [argument_eq, hwords]
  simpa only [List.append_assoc, List.cons_append, List.nil_append] using htimeout

end Limit

namespace Tail

/-- A character that is no digit stands in an insertion only where it does for any seconds. -/
theorem not_mem_insertion {x : Char} (hd : x.isDigit = false) (hx : x ∉ insertion [] 0)
    (kept : Text) (seconds : UInt64) : x ∉ insertion kept seconds := by
  have hzero : insertion [] 0 = ',' :: ' ' :: Limit.argument 0 := if_neg (by simp)
  rw [hzero, List.mem_cons, List.mem_cons, not_or, not_or] at hx
  obtain ⟨hcomma, hblank, harg⟩ := hx
  have harg := Limit.not_mem_argument hd harg seconds
  unfold insertion
  split <;> simp [harg, hcomma, hblank]

theorem balanced_insertion (kept : Text) (seconds : UInt64) :
    Balanced '(' ')' (insertion kept seconds) := by
  have harg := Limit.balanced_argument seconds
  unfold insertion
  split
  · exact .append (s := [' ']) (balanced_of_not_mem (by decide) (by decide))
      (harg.append (balanced_of_not_mem (by decide) (by decide)))
  · exact .append (s := [',', ' ']) (balanced_of_not_mem (by decide) (by decide)) harg

/-- An insertion changes no depth, neither of braces nor of parentheses. -/
theorem neutral_insertion (kept : Text) (seconds : UInt64) : Neutral (insertion kept seconds) where
  braces := balanced_of_not_mem (not_mem_insertion (by decide) (by decide) kept seconds)
    (not_mem_insertion (by decide) (by decide) kept seconds)
  parentheses := balanced_insertion kept seconds

/-- An insertion ends no line. -/
theorem lineEnds_insertion (kept : Text) (seconds : UInt64) :
    Text.lineEnds (insertion kept seconds) = 0 :=
  List.count_eq_zero.2 (not_mem_insertion (by decide) (by decide) kept seconds)

/-- Whatever stands around an insertion, it sets a limit there. -/
theorem isSetIn_insertion (s kept t : Text) (seconds : UInt64) :
    Limit.isSetIn (s ++ insertion kept seconds ++ t) = true := by
  unfold insertion
  split
  · have := Limit.isSetIn_append_argument seconds (s ++ [' ']) (',' :: t)
    simpa using this
  · have := Limit.isSetIn_append_argument seconds (s ++ [',', ' ']) t
    simpa using this

/-! ## The new tail -/

theorem isSetIn_withLimit (seconds : UInt64) (tail : Text) :
    Limit.isSetIn (withLimit seconds tail) = true :=
  isSetIn_insertion _ _ _ _

theorem padded_withLimit (seconds : UInt64) (tail : Text) :
    Padded tail (withLimit seconds tail) := by
  have h := ((Padded.refl (split tail).1).append
    (.word (neutral_insertion (split tail).1 seconds) .nil)).append (.refl (split tail).2)
  rwa [List.append_nil, List.append_nil, split_append] at h

theorem balanced_withLimit {tail : Text} (h : Balanced '(' ')' tail) (seconds : UInt64) :
    Balanced '(' ')' (withLimit seconds tail) := by
  rw [← split_append tail] at h
  exact h.insert (balanced_insertion _ seconds)

theorem lineEnds_withLimit (seconds : UInt64) (tail : Text) :
    Text.lineEnds (withLimit seconds tail) = Text.lineEnds tail := by
  rw [withLimit, Text.lineEnds_append, Text.lineEnds_append, lineEnds_insertion, Nat.add_zero,
    ← Text.lineEnds_append, split_append]

end Tail

end TimeLimit
