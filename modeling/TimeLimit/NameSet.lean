import TimeLimit.Text.Basic

/-!
# Sets of names

A set of names is its members in increasing order, each once. Names are ordered by their code
points, which is also the order of their bytes. Two sets with the same members are equal
(`NameSet.ext_mem`), so nothing depends on the order in which names were given.
-/

namespace TimeLimit

namespace Text

theorem lt_irrefl (a : Text) : ¬ a < a :=
  List.lt_irrefl a

theorem lt_trans {a b c : Text} (hab : a < b) (hbc : b < c) : a < c :=
  List.lt_trans hab hbc

theorem lt_trichotomy (a b : Text) : a < b ∨ a = b ∨ b < a := by
  by_cases hab : a < b
  · exact .inl hab
  · by_cases hba : b < a
    · exact .inr (.inr hba)
    · exact .inr (.inl (List.le_antisymm hba hab))

end Text

/-- Puts a name into an increasing list, unless it is there. -/
def insertName (name : Text) : List Text → List Text
  | [] => [name]
  | x :: xs =>
    if name < x then name :: x :: xs
    else if name = x then x :: xs
    else x :: insertName name xs

theorem mem_insertName {name x : Text} {xs : List Text} :
    x ∈ insertName name xs ↔ x = name ∨ x ∈ xs := by
  induction xs with
  | nil => simp [insertName]
  | cons y ys ih =>
    rw [insertName]
    split
    · simp
    · split
      · next h =>
        subst h
        simp
      · simp only [List.mem_cons, ih]
        constructor
        · rintro (h | h | h)
          · exact .inr (.inl h)
          · exact .inl h
          · exact .inr (.inr h)
        · rintro (h | h | h)
          · exact .inr (.inl h)
          · exact .inl h
          · exact .inr (.inr h)

theorem pairwise_insertName {name : Text} {xs : List Text} (h : xs.Pairwise (· < ·)) :
    (insertName name xs).Pairwise (· < ·) := by
  induction xs with
  | nil => simp [insertName]
  | cons y ys ih =>
    obtain ⟨hy, hs⟩ := List.pairwise_cons.1 h
    rw [insertName]
    split
    · next hlt =>
      refine List.pairwise_cons.2 ⟨fun z hz => ?_, h⟩
      rcases List.mem_cons.1 hz with rfl | hz
      · exact hlt
      · exact Text.lt_trans hlt (hy z hz)
    · split
      · exact h
      · next hlt hne =>
        refine List.pairwise_cons.2 ⟨fun z hz => ?_, ih hs⟩
        rcases mem_insertName.1 hz with rfl | hz
        · rcases Text.lt_trichotomy z y with h' | h' | h'
          · exact absurd h' hlt
          · exact absurd h' hne
          · exact h'
        · exact hy z hz

/-- A set of names. -/
structure NameSet where
  /-- The members in increasing order. -/
  names : List Text
  increasing : names.Pairwise (· < ·)
  deriving DecidableEq

namespace NameSet

instance : Membership Text NameSet where
  mem s name := name ∈ s.names

instance (name : Text) (s : NameSet) : Decidable (name ∈ s) :=
  inferInstanceAs (Decidable (name ∈ s.names))

/-- The set without members. -/
def empty : NameSet := ⟨[], .nil⟩

/-- A set with one more member. -/
def insert (name : Text) (s : NameSet) : NameSet :=
  ⟨insertName name s.names, pairwise_insertName s.increasing⟩

/-- The set of the names of a list. -/
def ofList (names : List Text) : NameSet :=
  names.foldr insert empty

theorem mem_insert {name x : Text} {s : NameSet} : x ∈ s.insert name ↔ x = name ∨ x ∈ s :=
  mem_insertName

theorem mem_ofList {x : Text} {names : List Text} : x ∈ ofList names ↔ x ∈ names := by
  induction names with
  | nil => exact ⟨(nomatch ·), (nomatch ·)⟩
  | cons name names ih => rw [ofList, List.foldr_cons, mem_insert, ← ofList, ih, List.mem_cons]

theorem eq_of_mem_iff {xs ys : List Text} (hx : xs.Pairwise (· < ·)) (hy : ys.Pairwise (· < ·))
    (h : ∀ x, x ∈ xs ↔ x ∈ ys) : xs = ys := by
  induction xs generalizing ys with
  | nil => exact (List.eq_nil_iff_forall_not_mem.2 fun y hy => nomatch (h y).2 hy).symm
  | cons x xs ih =>
    cases ys with
    | nil => exact nomatch (h x).1 List.mem_cons_self
    | cons y ys =>
      obtain ⟨hx₁, hx₂⟩ := List.pairwise_cons.1 hx
      obtain ⟨hy₁, hy₂⟩ := List.pairwise_cons.1 hy
      have hxy : x = y := by
        rcases List.mem_cons.1 ((h x).1 List.mem_cons_self) with hxy | hxy
        · exact hxy
        · rcases List.mem_cons.1 ((h y).2 List.mem_cons_self) with hyx | hyx
          · exact hyx.symm
          · exact absurd (Text.lt_trans (hy₁ x hxy) (hx₁ y hyx)) (Text.lt_irrefl y)
      subst hxy
      rw [ih hx₂ hy₂ fun z => ?_]
      constructor
      · intro hz
        rcases List.mem_cons.1 ((h z).1 (List.mem_cons_of_mem _ hz)) with rfl | hz'
        · exact absurd (hx₁ z hz) (Text.lt_irrefl z)
        · exact hz'
      · intro hz
        rcases List.mem_cons.1 ((h z).2 (List.mem_cons_of_mem _ hz)) with rfl | hz'
        · exact absurd (hy₁ z hz) (Text.lt_irrefl z)
        · exact hz'

/-- Sets with the same members are equal. -/
theorem ext_mem {s t : NameSet} (h : ∀ x, x ∈ s ↔ x ∈ t) : s = t := by
  obtain ⟨xs, hx⟩ := s
  obtain ⟨ys, hy⟩ := t
  have := eq_of_mem_iff hx hy h
  subst this
  rfl

end NameSet

end TimeLimit
