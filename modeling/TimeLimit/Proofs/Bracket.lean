import TimeLimit.TestCase

/-!
# Balanced texts and padding

A text is balanced in a pair of brackets when it closes what it opens and nothing else
(`Bracket.Balanced`); the search for a closing bracket passes over a balanced text
(`Bracket.closingFrom_append_of_balanced`). A word is neutral when it is balanced in braces and in
parentheses, and a text is padded with neutral words by putting them anywhere into it (`Padded`).
Padding neither makes nor hides a closing bracket (`Padded.closingFrom_cases`), so a test that never
closes still does not, for the same bracket, wherever neutral words are put behind its header
(`Padded.closing_of_error`).
-/

namespace TimeLimit

namespace Bracket

variable {opener closer : Char}

/-- A text closes every bracket that it opens, and no other one. -/
structure Balanced (opener closer : Char) (t : Text) : Prop where
  count_eq : t.count closer = t.count opener
  staysOpen : StaysOpen opener closer 0 t

/-! ## Balanced words -/

/-- A prefix of two parts ends in the first or reaches into the second. -/
theorem prefix_append_cases {p s t : Text} (h : p <+: s ++ t) :
    p <+: s ∨ ∃ q, q <+: t ∧ p = s ++ q := by
  rcases List.prefix_or_prefix_of_prefix h (List.prefix_append s t) with hp | ⟨q, rfl⟩
  · exact .inl hp
  · exact .inr ⟨q, (List.prefix_append_right_inj s).1 h, rfl⟩

theorem StaysOpen.mono {extra extra' : Nat} {t : Text} (h : StaysOpen opener closer extra t)
    (hle : extra ≤ extra') : StaysOpen opener closer extra' t := by
  intro p hp
  have := h p hp
  omega

theorem balanced_of_not_mem {t : Text} (ho : opener ∉ t) (hc : closer ∉ t) :
    Balanced opener closer t := by
  refine ⟨by rw [List.count_eq_zero.2 ho, List.count_eq_zero.2 hc], fun p hp => ?_⟩
  rw [List.count_eq_zero.2 fun h => hc (hp.subset h)]
  exact Nat.zero_le _

theorem Balanced.append {s t : Text} (hs : Balanced opener closer s)
    (ht : Balanced opener closer t) : Balanced opener closer (s ++ t) := by
  have hcount := hs.count_eq
  refine ⟨by rw [List.count_append, List.count_append, hcount, ht.count_eq], fun p hp => ?_⟩
  rcases prefix_append_cases hp with hp | ⟨q, hq, rfl⟩
  · exact hs.staysOpen p hp
  · have := ht.staysOpen q hq
    rw [List.count_append, List.count_append]
    omega

/-- A balanced text between a pair of brackets is balanced. -/
theorem Balanced.wrap (hne : opener ≠ closer) {t : Text} (h : Balanced opener closer t) :
    Balanced opener closer (opener :: t ++ [closer]) := by
  have hcount := h.count_eq
  refine ⟨by simp [List.count_cons_of_ne hne, List.count_cons_of_ne hne.symm, hcount], ?_⟩
  rw [List.cons_append]
  refine staysOpen_cons.2 fun p hp => ?_
  rw [List.count_cons_self, List.count_cons_of_ne hne]
  rcases prefix_append_cases hp with hp | ⟨q, hq, rfl⟩
  · have := h.staysOpen p hp
    omega
  · have := hq.sublist.count_le closer
    rw [List.count_cons_self, List.count_nil] at this
    rw [List.count_append, List.count_append]
    omega

/-- A balanced word put into a balanced text leaves it balanced. -/
theorem Balanced.insert {s t w : Text} (h : Balanced opener closer (s ++ t))
    (hw : Balanced opener closer w) : Balanced opener closer (s ++ w ++ t) := by
  have hcount := h.count_eq
  have hcount' := hw.count_eq
  simp only [List.count_append] at hcount
  refine ⟨by simp only [List.count_append]; omega, fun p hp => ?_⟩
  rcases prefix_append_cases hp with hp | ⟨q, hq, rfl⟩
  · rcases prefix_append_cases hp with hp | ⟨q, hq, rfl⟩
    · exact h.staysOpen p (hp.trans (List.prefix_append s t))
    · have hs := h.staysOpen s (List.prefix_append s t)
      have := hw.staysOpen q hq
      simp only [List.count_append]
      omega
  · have := h.staysOpen (s ++ q) ((List.prefix_append_right_inj s).2 hq)
    simp only [List.count_append] at this ⊢
    omega

/-! ## One step of the search -/

theorem closingFrom_opener (extra : Nat) (seen t : Text) :
    closingFrom opener closer extra seen (opener :: t) =
      closingFrom opener closer (extra + 1) (opener :: seen) t := by
  rw [closingFrom.eq_def]
  exact if_pos rfl

theorem closingFrom_closer_zero (hne : opener ≠ closer) (seen t : Text) :
    closingFrom opener closer 0 seen (closer :: t) = some (seen.reverse, t) := by
  rw [closingFrom.eq_def]
  exact (if_neg hne.symm).trans (if_pos rfl)

theorem closingFrom_closer_succ (hne : opener ≠ closer) (extra : Nat) (seen t : Text) :
    closingFrom opener closer (extra + 1) seen (closer :: t) =
      closingFrom opener closer extra (closer :: seen) t := by
  rw [closingFrom.eq_def]
  exact (if_neg hne.symm).trans (if_pos rfl)

theorem closingFrom_other {c : Char} (ho : c ≠ opener) (hc : c ≠ closer) (extra : Nat)
    (seen t : Text) :
    closingFrom opener closer extra seen (c :: t) =
      closingFrom opener closer extra (c :: seen) t := by
  rw [closingFrom.eq_def]
  exact (if_neg ho).trans (if_neg hc)

/-! ## The search behind a word -/

/-- A word that keeps brackets open is passed over, and the depth changes by what it opens and
closes. -/
theorem closingFrom_append (hne : opener ≠ closer) {extra : Nat} {w : Text}
    (h : StaysOpen opener closer extra w) (seen t : Text) :
    closingFrom opener closer extra seen (w ++ t) =
      closingFrom opener closer (extra + w.count opener - w.count closer)
        (w.reverse ++ seen) t := by
  induction w generalizing extra seen with
  | nil => rfl
  | cons c w ih =>
    rw [staysOpen_cons] at h
    rw [List.cons_append, List.reverse_cons, List.append_assoc, List.singleton_append]
    by_cases ho : c = opener
    · subst ho
      simp only [List.count_cons_self, List.count_cons_of_ne hne] at h ⊢
      rw [closingFrom_opener, ih fun p hp => by have := h p hp; omega]
      congr 1
      omega
    by_cases hc : c = closer
    · subst hc
      simp only [List.count_cons_self, List.count_cons_of_ne hne.symm] at h ⊢
      cases extra with
      | zero => exact absurd (h [] List.nil_prefix) (by simp)
      | succ extra =>
        rw [closingFrom_closer_succ hne, ih fun p hp => by have := h p hp; omega]
        congr 1
        omega
    · simp only [List.count_cons_of_ne ho, List.count_cons_of_ne hc] at h ⊢
      rw [closingFrom_other ho hc, ih h]

theorem closingFrom_append_of_balanced (hne : opener ≠ closer) {w : Text}
    (h : Balanced opener closer w) (extra : Nat) (seen t : Text) :
    closingFrom opener closer extra seen (w ++ t) =
      closingFrom opener closer extra (w.reverse ++ seen) t := by
  rw [closingFrom_append hne (h.staysOpen.mono (Nat.zero_le extra)), h.count_eq,
    Nat.add_sub_cancel]

/-- A word that is balanced in braces and in parentheses. -/
structure Neutral (w : Text) : Prop where
  braces : Balanced '{' '}' w
  parentheses : Balanced '(' ')' w

end Bracket

open TimeLimit.Bracket

/-! ## Padding -/

/-- The second text is the first one with neutral words put into it. -/
inductive Padded : Text → Text → Prop where
  | nil : Padded [] []
  | cons (c : Char) {s t : Text} (h : Padded s t) : Padded (c :: s) (c :: t)
  | word {w s t : Text} (hw : Neutral w) (h : Padded s t) : Padded s (w ++ t)

namespace Padded

theorem refl (t : Text) : Padded t t := by
  induction t with
  | nil => exact .nil
  | cons c t ih => exact .cons c ih

theorem append {s s' t t' : Text} (h : Padded s s') (ht : Padded t t') :
    Padded (s ++ t) (s' ++ t') := by
  induction h with
  | nil => exact ht
  | cons c _ ih => exact .cons c ih
  | word hw _ ih =>
    rw [List.append_assoc]
    exact .word hw ih

variable {opener closer : Char} {s t : Text}

/-- Padding neither makes nor hides a closing bracket, and what follows that bracket is padded. -/
theorem closingFrom_cases (hne : opener ≠ closer)
    (hN : ∀ w, Neutral w → Balanced opener closer w) (h : Padded s t) (extra : Nat)
    (seen seen' : Text) :
    (closingFrom opener closer extra seen s = none ∧
        closingFrom opener closer extra seen' t = none) ∨
      ∃ inside rest inside' rest',
        closingFrom opener closer extra seen s = some (inside, rest) ∧
          closingFrom opener closer extra seen' t = some (inside', rest') ∧ Padded rest rest' := by
  induction h generalizing extra seen seen' with
  | nil => exact .inl ⟨rfl, rfl⟩
  | cons c h ih =>
    by_cases ho : c = opener
    · subst ho
      rw [closingFrom_opener, closingFrom_opener]
      exact ih _ _ _
    by_cases hc : c = closer
    · subst hc
      cases extra with
      | zero =>
        rw [closingFrom_closer_zero hne, closingFrom_closer_zero hne]
        exact .inr ⟨_, _, _, _, rfl, rfl, h⟩
      | succ extra =>
        rw [closingFrom_closer_succ hne, closingFrom_closer_succ hne]
        exact ih _ _ _
    · rw [closingFrom_other ho hc, closingFrom_other ho hc]
      exact ih _ _ _
  | word hw _ ih =>
    rw [closingFrom_append_of_balanced hne (hN _ hw)]
    exact ih _ _ _

/-- A test whose bracket never closes does not close in a padded text, for the same bracket. -/
theorem closing_of_error (h : Padded s t) {u : Unclosed} (hs : Closing.of s = .error u) :
    Closing.of t = .error u := by
  unfold Closing.of closing at hs ⊢
  rcases h.closingFrom_cases (by decide) (fun _ hw => hw.braces) 0 [] []
    with ⟨hn, hn'⟩ | ⟨inside, rest, inside', rest', hbody, hbody', hrest⟩
  · rw [hn] at hs
    rw [hn']
    exact hs
  · simp only [hbody] at hs
    simp only [hbody']
    rcases hrest.closingFrom_cases (by decide) (fun _ hw => hw.parentheses) 0 [] []
      with ⟨hn, hn'⟩ | ⟨tail, after, -, -, hcall, -⟩
    · rw [hn] at hs
      rw [hn']
      exact hs
    · rw [hcall] at hs
      cases hs

end Padded

end TimeLimit
