import TimeLimit.Text.Basic

/-!
# Closing brackets

`closing` finds the bracket that closes one opened before a text, by counting depth. Everything
counts: brackets inside strings and comments as well. `closing_eq_some_iff` says what it finds: the
text splits at a closing bracket such that the part before it is balanced up to the given depth and
no shorter part is.
-/

namespace TimeLimit

namespace Bracket

/-- Splits a text at the bracket that closes the `extra + 1` brackets open before it; `seen` holds
what was passed, last character first. -/
def closingFrom (opener closer : Char) : Nat → Text → Text → Option (Text × Text)
  | _, _, [] => none
  | extra, seen, c :: t =>
    if c = opener then closingFrom opener closer (extra + 1) (c :: seen) t
    else if c = closer then
      match extra with
      | 0 => some (seen.reverse, t)
      | extra + 1 => closingFrom opener closer extra (c :: seen) t
    else closingFrom opener closer extra (c :: seen) t

/-- Splits a text at the bracket that closes the one opened directly before it: what stands
inside, and what follows the closing bracket. -/
def closing (opener closer : Char) (t : Text) : Option (Text × Text) :=
  closingFrom opener closer 0 [] t

/-- No part of a text that starts at its front closes more brackets than were open: `extra`
before it and those it opens. -/
def StaysOpen (opener closer : Char) (extra : Nat) (t : Text) : Prop :=
  ∀ p, p <+: t → p.count closer ≤ p.count opener + extra

@[simp] theorem staysOpen_nil (opener closer : Char) (extra : Nat) :
    StaysOpen opener closer extra [] := by
  intro p hp
  simp [List.prefix_nil.1 hp]

/-- A text stays open when its first character leaves enough brackets open for the rest. -/
theorem staysOpen_cons {opener closer : Char} {extra : Nat} {c : Char} {t : Text} :
    StaysOpen opener closer extra (c :: t) ↔
      ∀ p, p <+: t → (c :: p).count closer ≤ (c :: p).count opener + extra := by
  constructor
  · exact fun h p hp => h (c :: p) (List.prefix_cons_inj c |>.2 hp)
  · intro h p hp
    cases p with
    | nil => simp
    | cons x p =>
      obtain ⟨rfl, ht⟩ := List.cons_prefix_cons.1 hp
      exact h p ht

/-- What a walk for the closing bracket finds: a part with `extra` more closing than opening
brackets, no shorter part of which has more, and the closing bracket behind it. -/
theorem closingFrom_eq_some_iff {opener closer : Char} (hne : opener ≠ closer) {extra : Nat}
    {seen t inside rest : Text} :
    closingFrom opener closer extra seen t = some (inside, rest) ↔
      ∃ m, inside = seen.reverse ++ m ∧ t = m ++ closer :: rest ∧
        m.count closer = m.count opener + extra ∧ StaysOpen opener closer extra m := by
  fun_induction closingFrom opener closer extra seen t with
  | case1 extra seen => simp
  | case2 extra seen t ih =>
    rw [ih]
    constructor
    · rintro ⟨m, rfl, rfl, hm, ho⟩
      refine ⟨opener :: m, by simp, by simp, ?_, staysOpen_cons.2 fun p hp => ?_⟩
      · rw [List.count_cons_self, List.count_cons_of_ne hne, hm]
        omega
      · have := ho p hp
        rw [List.count_cons_self, List.count_cons_of_ne hne]
        omega
    · rintro ⟨m, rfl, hm, hc, ho⟩
      cases m with
      | nil => simp [hne] at hm
      | cons x m =>
        obtain ⟨rfl, rfl⟩ := List.cons.inj hm
        rw [List.count_cons_self, List.count_cons_of_ne hne] at hc
        refine ⟨m, by simp, rfl, by omega, fun p hp => ?_⟩
        have := staysOpen_cons.1 ho p hp
        rw [List.count_cons_self, List.count_cons_of_ne hne] at this
        omega
  | case3 seen t hco =>
    simp only [Option.some.injEq, Prod.mk.injEq]
    constructor
    · rintro ⟨rfl, rfl⟩
      exact ⟨[], by simp, rfl, by simp, by simp⟩
    · rintro ⟨m, rfl, hm, -, ho⟩
      cases m with
      | nil => simpa using hm
      | cons x m =>
        obtain ⟨rfl, rfl⟩ := List.cons.inj hm
        have := staysOpen_cons.1 ho [] (List.nil_prefix)
        rw [List.count_cons_self, List.count_cons_of_ne (Ne.symm hne)] at this
        simp at this
  | case4 seen t hco extra ih =>
    rw [ih]
    constructor
    · rintro ⟨m, rfl, rfl, hm, ho⟩
      refine ⟨closer :: m, by simp, by simp, ?_, staysOpen_cons.2 fun p hp => ?_⟩
      · rw [List.count_cons_self, List.count_cons_of_ne (Ne.symm hne), hm]
        omega
      · have := ho p hp
        rw [List.count_cons_self, List.count_cons_of_ne (Ne.symm hne)]
        omega
    · rintro ⟨m, rfl, hm, hc, ho⟩
      cases m with
      | nil => simp at hc
      | cons x m =>
        obtain ⟨rfl, rfl⟩ := List.cons.inj hm
        rw [List.count_cons_self, List.count_cons_of_ne (Ne.symm hne)] at hc
        refine ⟨m, by simp, rfl, by omega, fun p hp => ?_⟩
        have := staysOpen_cons.1 ho p hp
        rw [List.count_cons_self, List.count_cons_of_ne (Ne.symm hne)] at this
        omega
  | case5 extra seen c t ho hc ih =>
    rw [ih]
    constructor
    · rintro ⟨m, rfl, rfl, hm, hs⟩
      refine ⟨c :: m, by simp, by simp, ?_, staysOpen_cons.2 fun p hp => ?_⟩
      · rw [List.count_cons_of_ne hc, List.count_cons_of_ne ho, hm]
      · rw [List.count_cons_of_ne hc, List.count_cons_of_ne ho]
        exact hs p hp
    · rintro ⟨m, rfl, hm, hcount, hs⟩
      cases m with
      | nil => exact absurd (List.cons.inj hm).1 hc
      | cons x m =>
        obtain ⟨rfl, rfl⟩ := List.cons.inj hm
        rw [List.count_cons_of_ne hc, List.count_cons_of_ne ho] at hcount
        refine ⟨m, by simp, rfl, hcount, fun p hp => ?_⟩
        have := staysOpen_cons.1 hs p hp
        rwa [List.count_cons_of_ne hc, List.count_cons_of_ne ho] at this

/-- The closing bracket is the first one before which the brackets balance. -/
theorem closing_eq_some_iff {opener closer : Char} (hne : opener ≠ closer)
    {t inside rest : Text} :
    closing opener closer t = some (inside, rest) ↔
      t = inside ++ closer :: rest ∧ inside.count closer = inside.count opener ∧
        StaysOpen opener closer 0 inside := by
  rw [closing, closingFrom_eq_some_iff hne]
  simp only [List.reverse_nil, List.nil_append, Nat.add_zero]
  constructor
  · rintro ⟨m, rfl, h⟩
    exact h
  · exact fun h => ⟨inside, rfl, h⟩

/-- A balanced part is closed by the bracket behind it, whatever follows. -/
theorem closing_append {opener closer : Char} (hne : opener ≠ closer) {inside : Text}
    (hcount : inside.count closer = inside.count opener)
    (hopen : StaysOpen opener closer 0 inside) (rest : Text) :
    closing opener closer (inside ++ closer :: rest) = some (inside, rest) :=
  (closing_eq_some_iff hne).2 ⟨rfl, hcount, hopen⟩

end Bracket

end TimeLimit
