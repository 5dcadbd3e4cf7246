import TimeLimit.Path
import TimeLimit.Tree.Content

/-!
# Trees of files

A tree holds files, directories and symbolic links by their location: the names from the root of
the tree down to them. The root itself is always a directory. Entries are looked up with `get?` and
changed with `put` and `remove`; each changes the entry at one location and no other
(`get?_put_self`, `get?_put_of_ne`).
-/

namespace TimeLimit

/-- A location: the names that lead to it from the root. -/
abbrev Location := List Name

/-- What stands at a location. -/
inductive Entry where
  | file (content : Content)
  | dir
  /-- A symbolic link to a path. -/
  | link (target : Path)
  deriving DecidableEq

/-- A tree of files; every location occurs once. -/
structure Tree where
  entries : List (Location × Entry)
  nodup : (entries.map Prod.fst).Nodup
  deriving DecidableEq

namespace Tree

/-- The tree with nothing below its root. -/
def empty : Tree := ⟨[], .nil⟩

/-- The entry at a location. -/
def get? (t : Tree) (loc : Location) : Option Entry :=
  if loc = [] then some .dir else t.entries.lookup loc

/-- Entries with one of them replaced. -/
def replaceEntry (loc : Location) (e : Entry) (entries : List (Location × Entry)) :
    List (Location × Entry) :=
  entries.map fun x => if x.1 = loc then (loc, e) else x

theorem replaceEntry_cons (loc : Location) (e : Entry) (x : Location × Entry)
    (xs : List (Location × Entry)) :
    replaceEntry loc e (x :: xs) =
      (if x.1 = loc then (loc, e) else x) :: replaceEntry loc e xs := rfl

theorem map_fst_replaceEntry (loc : Location) (e : Entry) (entries : List (Location × Entry)) :
    (replaceEntry loc e entries).map Prod.fst = entries.map Prod.fst := by
  rw [replaceEntry, List.map_map]
  refine List.map_congr_left fun x _ => ?_
  by_cases h : x.1 = loc <;> simp [h]

/-- The tree with an entry at a location, in place of the one that stands there or as a new
one. -/
def put (t : Tree) (loc : Location) (e : Entry) : Tree :=
  if h : loc ∈ t.entries.map Prod.fst then
    ⟨replaceEntry loc e t.entries, by rw [map_fst_replaceEntry]; exact t.nodup⟩
  else
    ⟨t.entries ++ [(loc, e)], by
      rw [List.map_append, List.nodup_append]
      refine ⟨t.nodup, by simp, ?_⟩
      rintro x hx y hy rfl
      simp only [List.map_cons, List.map_nil, List.mem_singleton] at hy
      exact h (hy ▸ hx)⟩

/-- The tree without the entry at a location. -/
def remove (t : Tree) (loc : Location) : Tree :=
  ⟨t.entries.filter fun x => x.1 ≠ loc, t.nodup.sublist (List.filter_sublist.map _)⟩

theorem lookup_replaceEntry (loc x : Location) (e : Entry) (entries : List (Location × Entry)) :
    (replaceEntry loc e entries).lookup x =
      if x = loc ∧ loc ∈ entries.map Prod.fst then some e else entries.lookup x := by
  induction entries with
  | nil => simp [replaceEntry]
  | cons y ys ih =>
    obtain ⟨k, v⟩ := y
    rw [replaceEntry_cons]
    by_cases hk : k = loc
    · subst hk
      by_cases hx : x = k
      · subst hx
        simp
      · have hbeq : (x == k) = false := by simpa using hx
        simp [List.lookup_cons, hbeq, hx, ih]
    · by_cases hx : x = k
      · subst hx
        simp [hk]
      · have hbeq : (x == k) = false := by simpa using hx
        have hk' : loc ≠ k := Ne.symm hk
        have hm : loc ∈ ((k, v) :: ys).map Prod.fst ↔ loc ∈ ys.map Prod.fst := by simp [hk']
        simp only [hk, ↓reduceIte, List.lookup_cons, hbeq, ih, hm]

/-- What was put is found. -/
theorem get?_put_self (t : Tree) {loc : Location} (h : loc ≠ []) (e : Entry) :
    (t.put loc e).get? loc = some e := by
  simp only [get?, h, ↓reduceIte, put]
  split
  · next hm => simp [lookup_replaceEntry, hm]
  · next hm =>
    have : t.entries.lookup loc = none := by
      refine List.lookup_eq_none_iff.2 fun p hp => ?_
      simp only [ne_eq, bne_iff_ne]
      rintro rfl
      exact hm (List.mem_map_of_mem hp)
    simp [List.lookup_append, this]

/-- All other locations keep their entries. -/
theorem get?_put_of_ne (t : Tree) {loc x : Location} (h : x ≠ loc) (e : Entry) :
    (t.put loc e).get? x = t.get? x := by
  simp only [get?, put]
  split
  · rfl
  · split
    · simp [lookup_replaceEntry, h]
    · rw [List.lookup_append]
      have : (x == loc) = false := by simpa using h
      simp [List.lookup_cons, this]

theorem get?_put (t : Tree) {loc : Location} (h : loc ≠ []) (e : Entry) (x : Location) :
    (t.put loc e).get? x = if x = loc then some e else t.get? x := by
  split
  · next hx => rw [hx, get?_put_self t h]
  · next hx => exact get?_put_of_ne t hx e

/-- The root is a directory. -/
@[simp] theorem get?_root (t : Tree) : t.get? [] = some .dir := rfl

/-- An entry is found at its location. -/
theorem get?_of_mem {t : Tree} {loc : Location} {e : Entry} (h : (loc, e) ∈ t.entries)
    (hne : loc ≠ []) : t.get? loc = some e := by
  have hnodup := t.nodup
  rw [get?, if_neg hne]
  generalize t.entries = entries at h hnodup
  induction entries with
  | nil => cases h
  | cons y ys ih =>
    rw [List.map_cons, List.nodup_cons] at hnodup
    rcases List.mem_cons.1 h with rfl | h
    · exact List.lookup_cons_self
    · have hy : loc ≠ y.1 := fun he => hnodup.1 (he ▸ List.mem_map_of_mem h)
      rw [List.lookup_cons, beq_false_of_ne hy]
      exact ih h hnodup.2

/-- Something is found at the location of every entry. -/
theorem exists_get?_of_mem {t : Tree} {loc : Location} (h : loc ∈ t.entries.map Prod.fst) :
    ∃ e, t.get? loc = some e := by
  by_cases hne : loc = []
  · exact ⟨.dir, by rw [hne, get?_root]⟩
  · obtain ⟨x, hx, rfl⟩ := List.mem_map.1 h
    exact ⟨x.2, get?_of_mem hx hne⟩

/-- What is found at a location below the root is an entry of the tree. -/
theorem mem_of_get? {t : Tree} {loc : Location} (hne : loc ≠ []) (h : t.get? loc ≠ none) :
    loc ∈ t.entries.map Prod.fst := by
  rw [get?, if_neg hne, ← Option.isSome_iff_ne_none, List.lookup_isSome_iff] at h
  obtain ⟨y, hy, he⟩ := h
  rw [eq_of_beq he]
  exact List.mem_map_of_mem hy

/-- An entry put in place of another one takes its place among the entries. -/
theorem entries_put {t : Tree} {loc : Location} (hne : loc ≠ []) (h : t.get? loc ≠ none)
    (e : Entry) : (t.put loc e).entries = replaceEntry loc e t.entries := by
  rw [put, dif_pos (mem_of_get? hne h)]

end Tree

end TimeLimit
