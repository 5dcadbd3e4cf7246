import Mathlib.Logic.Basic
import TimeLimit.Tree.Walk

/-!
# Where paths lead

`Walks` says by rules how a path is followed in a tree: one rule for each thing that can happen at
the next piece. It is the relation that `Tree.walk` computes (`walks_walk`, `Walks.walk_eq`), and
inductions over walks are inductions over it.

A path that is followed in two parts leads where the second part leads from the end of the first
(`walk_append`), and a part that fails lets the whole fail (`walk_append_error`). More links allowed
change nothing unless the links ran out (`walk_agree`). What a path leads to is a file or a
directory, never a link (`file_or_dir_of_resolve`).
-/

namespace TimeLimit

namespace Tree

/-- Where a walk goes on behind a symbolic link that stands in a directory. -/
def linkStart (loc : Location) (target : Path) : Location :=
  if target.head? = some Path.slash then [] else loc

/-- What a walk does at a symbolic link: it takes up the target, if a link may still be followed. -/
def follow (t : Tree) (n : Nat) (loc : Location) (target : Path) (rest : List Path) :
    Except Cause Location :=
  match n with
  | 0 => .error .tooManyLinks
  | n + 1 => t.walk n (linkStart loc target) (Path.pieces target ++ rest)

/-! ## The relation -/

/-- A walk from a location along pieces, with so many links that may be followed, and its result. -/
inductive Walks (t : Tree) : Nat → Location → List Path → Except Cause Location → Prop
  | done (n : Nat) (loc : Location) : Walks t n loc [] (.ok loc)
  | outside {n loc piece rest} (h : t.get? loc ≠ some .dir) :
      Walks t n loc (piece :: rest) (.error .notDirectory)
  | stay {n loc piece rest r} (hdir : t.get? loc = some .dir) (h : Path.stays piece = true)
      (hr : Walks t n loc rest r) : Walks t n loc (piece :: rest) r
  | up {n loc rest r} (hdir : t.get? loc = some .dir) (hr : Walks t n loc.dropLast rest r) :
      Walks t n loc (Path.up :: rest) r
  | nameless {n loc piece rest} (hdir : t.get? loc = some .dir) (hs : Path.stays piece = false)
      (hu : piece ≠ Path.up) (h : Name.ofPiece? piece = none) :
      Walks t n loc (piece :: rest) (.error (nameless piece))
  | missing {n loc rest} {name : Name} (hdir : t.get? loc = some .dir)
      (h : t.get? (loc ++ [name]) = none) : Walks t n loc (name.bytes :: rest) (.error .notFound)
  | enter {n loc rest e r} {name : Name} (hdir : t.get? loc = some .dir)
      (h : t.get? (loc ++ [name]) = some e) (hlink : ∀ target, e ≠ .link target)
      (hr : Walks t n (loc ++ [name]) rest r) : Walks t n loc (name.bytes :: rest) r
  | link {n loc rest target r} {name : Name} (hdir : t.get? loc = some .dir)
      (h : t.get? (loc ++ [name]) = some (.link target))
      (hr : Walks t n (linkStart loc target) (Path.pieces target ++ rest) r) :
      Walks t (n + 1) loc (name.bytes :: rest) r
  | tired {loc rest target} {name : Name} (hdir : t.get? loc = some .dir)
      (h : t.get? (loc ++ [name]) = some (.link target)) :
      Walks t 0 loc (name.bytes :: rest) (.error .tooManyLinks)

variable {t : Tree} {n m : Nat} {loc x : Location} {piece : Path} {name : Name}
  {rest ps : List Path} {r : Except Cause Location}

@[simp] theorem walk_nil : t.walk n loc [] = .ok loc := by
  cases n <;> rfl

theorem walk_cons : t.walk n loc (piece :: rest) =
    if t.get? loc ≠ some .dir then .error .notDirectory
    else if Path.stays piece then t.walk n loc rest
    else if piece = Path.up then t.walk n loc.dropLast rest
    else match Name.ofPiece? piece with
      | none => .error (nameless piece)
      | some name =>
        match t.get? (loc ++ [name]) with
        | none => .error .notFound
        | some (.link target) => t.follow n loc target rest
        | some _ => t.walk n (loc ++ [name]) rest := by
  cases n <;> rfl

/-- A walk is as the rules say, if it is so at links. -/
theorem walks_of_follow
    (hfollow : ∀ {loc rest target} {name : Name}, t.get? loc = some .dir →
      t.get? (loc ++ [name]) = some (.link target) →
      Walks t n loc (name.bytes :: rest) (t.follow n loc target rest))
    (loc : Location) (ps : List Path) : Walks t n loc ps (t.walk n loc ps) := by
  induction ps generalizing loc with
  | nil =>
    rw [walk_nil]
    exact .done n loc
  | cons piece rest ih =>
    rw [walk_cons]
    split
    · next h => exact .outside h
    · next hdir =>
      have hdir : t.get? loc = some .dir := not_not.1 hdir
      split
      · next hs => exact .stay hdir hs (ih loc)
      · next hs =>
        have hs : Path.stays piece = false := by simpa using hs
        split
        · next hu =>
          subst hu
          exact .up hdir (ih loc.dropLast)
        · next hu =>
          split
          · next hnone => exact .nameless hdir hs hu hnone
          · next name hname =>
            obtain rfl := Name.ofPiece?_eq_some_iff.1 hname
            split
            · next h => exact .missing hdir h
            · next target h => exact hfollow hdir h
            · next e hlink h => exact .enter hdir h hlink (ih (loc ++ [name]))

/-- Every walk is as the rules say. -/
theorem walks_walk (t : Tree) (n : Nat) (loc : Location) (ps : List Path) :
    Walks t n loc ps (t.walk n loc ps) := by
  induction n generalizing loc ps with
  | zero => exact walks_of_follow (fun hdir h => .tired hdir h) loc ps
  | succ n ih => exact walks_of_follow (fun hdir h => .link hdir h (ih _ _)) loc ps

/-- At a name in a directory, what stands there counts. -/
theorem walk_name (hdir : t.get? loc = some .dir) :
    t.walk n loc (name.bytes :: rest) = match t.get? (loc ++ [name]) with
      | none => .error .notFound
      | some (.link target) => t.follow n loc target rest
      | some _ => t.walk n (loc ++ [name]) rest := by
  rw [walk_cons, if_neg (not_not.2 hdir), if_neg (by simp [name.proper.not_stays]),
    if_neg name.proper.ne_up, Name.ofPiece?_bytes]

/-- What is no link is entered. -/
theorem walk_enter (hdir : t.get? loc = some .dir) {e : Entry}
    (h : t.get? (loc ++ [name]) = some e) (hlink : ∀ target, e ≠ .link target) :
    t.walk n loc (name.bytes :: rest) = t.walk n (loc ++ [name]) rest := by
  rw [walk_name hdir, h]
  cases e with
  | link target => exact absurd rfl (hlink target)
  | file c => rfl
  | dir => rfl

/-- A walk does not go on from what is no directory. -/
theorem walk_outside (h : t.get? loc ≠ some .dir) :
    t.walk n loc (piece :: rest) = .error .notDirectory := by
  rw [walk_cons, if_pos h]

/-- The rules leave a walk no choice. -/
theorem Walks.walk_eq (h : Walks t n loc ps r) : t.walk n loc ps = r := by
  induction h with
  | done n loc => exact walk_nil
  | outside h => exact walk_outside h
  | stay hdir hs _ ih => rw [walk_cons, if_neg (not_not.2 hdir), if_pos hs, ih]
  | up hdir _ ih =>
    rw [walk_cons, if_neg (not_not.2 hdir), if_neg (by decide), if_pos rfl, ih]
  | nameless hdir hs hu h =>
    rw [walk_cons, if_neg (not_not.2 hdir), if_neg (by simp [hs]), if_neg hu, h]
  | missing hdir h => rw [walk_name hdir, h]
  | enter hdir h hlink _ ih => rw [walk_enter hdir h hlink, ih]
  | link hdir h _ ih =>
    rw [walk_name hdir, h]
    exact ih
  | tired hdir h =>
    rw [walk_name hdir, h]
    rfl

theorem walks_iff : Walks t n loc ps r ↔ t.walk n loc ps = r :=
  ⟨Walks.walk_eq, fun h => h ▸ walks_walk t n loc ps⟩

/-! ## Walks in parts -/

/-- Pieces behind a walk are followed from where it leads, with the links that are left. -/
theorem walk_append (h : t.walk n loc ps = .ok x) :
    ∃ m ≤ n, ∀ qs, t.walk n loc (ps ++ qs) = t.walk m x qs := by
  generalize hr : Except.ok x = r at h
  replace h := walks_iff.2 h
  induction h with
  | done n loc =>
    cases hr
    exact ⟨n, Nat.le_refl n, fun qs => rfl⟩
  | outside _ | nameless _ _ _ _ | missing _ _ | tired _ _ => cases hr
  | stay hdir hs _ ih =>
    obtain ⟨m, hm, h⟩ := ih hr
    exact ⟨m, hm, fun qs => by
      rw [List.cons_append, (walks_walk ..).stay hdir hs |>.walk_eq, h]⟩
  | up hdir _ ih =>
    obtain ⟨m, hm, h⟩ := ih hr
    exact ⟨m, hm, fun qs => by rw [List.cons_append, (walks_walk ..).up hdir |>.walk_eq, h]⟩
  | enter hdir he hlink _ ih =>
    obtain ⟨m, hm, h⟩ := ih hr
    exact ⟨m, hm, fun qs => by rw [List.cons_append, walk_enter hdir he hlink, h]⟩
  | link hdir he _ ih =>
    obtain ⟨m, hm, h⟩ := ih hr
    exact ⟨m, Nat.le_succ_of_le hm, fun qs => by
      rw [List.cons_append, (walks_walk ..).link hdir he |>.walk_eq, ← List.append_assoc, h]⟩

/-- A walk that fails, fails with any pieces behind it. -/
theorem walk_append_error {cause : Cause} (h : t.walk n loc ps = .error cause) (qs : List Path) :
    t.walk n loc (ps ++ qs) = .error cause := by
  generalize hr : Except.error cause = r at h ⊢
  replace h := walks_iff.2 h
  induction h with
  | done n loc => cases hr
  | outside h => exact walk_outside h
  | stay hdir hs _ ih => exact (walks_iff.2 (ih hr)).stay hdir hs |>.walk_eq
  | up hdir _ ih => exact (walks_iff.2 (ih hr)).up hdir |>.walk_eq
  | nameless hdir hs hu h => exact (Walks.nameless hdir hs hu h).walk_eq
  | missing hdir h => exact (Walks.missing hdir h).walk_eq
  | enter hdir he hlink _ ih => exact (walks_iff.2 (ih hr)).enter hdir he hlink |>.walk_eq
  | link hdir he _ ih =>
    have ih := ih hr
    rw [List.append_assoc] at ih
    exact (walks_iff.2 ih).link hdir he |>.walk_eq
  | tired hdir h => exact (Walks.tired hdir h).walk_eq

/-! ## The number of links -/

/-- Where the links do not run out, more of them change nothing. -/
theorem walk_mono (h : t.walk n loc ps = r) (hr : r ≠ .error .tooManyLinks) (hnm : n ≤ m) :
    t.walk m loc ps = r := by
  replace h := walks_iff.2 h
  induction h generalizing m with
  | done n loc => exact walk_nil
  | outside h => exact walk_outside h
  | stay hdir hs _ ih => exact (walks_iff.2 (ih hr hnm)).stay hdir hs |>.walk_eq
  | up hdir _ ih => exact (walks_iff.2 (ih hr hnm)).up hdir |>.walk_eq
  | nameless hdir hs hu h => exact (Walks.nameless hdir hs hu h).walk_eq
  | missing hdir h => exact (Walks.missing hdir h).walk_eq
  | enter hdir he hlink _ ih =>
    exact (walks_iff.2 (ih hr hnm)).enter hdir he hlink |>.walk_eq
  | link hdir he _ ih =>
    obtain ⟨m, rfl⟩ : ∃ k, m = k + 1 := ⟨m - 1, by omega⟩
    exact (walks_iff.2 (ih hr (Nat.le_of_succ_le_succ hnm))).link hdir he |>.walk_eq
  | tired => exact absurd rfl hr

/-- Two walks along the same pieces agree, whatever their numbers of links, unless one of them runs
out of links. -/
theorem walk_agree (hn : t.walk n loc ps ≠ .error .tooManyLinks)
    (hm : t.walk m loc ps ≠ .error .tooManyLinks) : t.walk n loc ps = t.walk m loc ps := by
  rcases Nat.le_total n m with h | h
  · exact (walk_mono rfl hn h).symm
  · exact walk_mono rfl hm h

/-! ## What a path leads to -/

/-- A location that can be reached from the root: all above it are directories, and it is no
link. -/
structure Grounded (t : Tree) (loc : Location) : Prop where
  above : ∀ p, p <+: loc → p ≠ loc → t.get? p = some .dir
  here : t.get? loc = some .dir ∨ ∃ c, t.get? loc = some (.file c)

theorem grounded_root (t : Tree) : t.Grounded [] :=
  ⟨fun _ hp hne => absurd (List.prefix_nil.1 hp) hne, .inl rfl⟩

theorem Grounded.dropLast (h : t.Grounded loc) : t.Grounded loc.dropLast := by
  by_cases hloc : loc = []
  · subst hloc
    exact h
  · have hne : loc.dropLast ≠ loc := fun he => by
      have := congrArg List.length he
      have := List.length_pos_iff.2 hloc
      simp only [List.length_dropLast] at *
      omega
    have hprefix := List.dropLast_prefix loc
    refine ⟨fun p hp hpne => h.above p (hp.trans hprefix) ?_, .inl (h.above _ hprefix hne)⟩
    rintro rfl
    exact hpne (List.IsPrefix.eq_of_length_le hp (by simp))

theorem Grounded.enter (hdir : t.get? loc = some .dir) (h : t.Grounded loc) {e : Entry}
    (he : t.get? (loc ++ [name]) = some e) (hlink : ∀ target, e ≠ .link target) :
    t.Grounded (loc ++ [name]) := by
  refine ⟨fun p hp hne => ?_, ?_⟩
  · rcases List.prefix_concat_iff.1 hp with rfl | hp
    · exact absurd rfl hne
    · by_cases hpl : p = loc
      · rw [hpl, hdir]
      · exact h.above p hp hpl
  · cases e with
    | file c => exact .inr ⟨c, he⟩
    | dir => exact .inl he
    | link target => exact absurd rfl (hlink target)

/-- A walk stays among the locations that can be reached from the root. -/
theorem grounded_of_walk (h : t.walk n loc ps = .ok x) (hloc : t.Grounded loc) :
    t.Grounded x := by
  generalize hr : Except.ok x = r at h
  replace h := walks_iff.2 h
  induction h with
  | done n loc =>
    cases hr
    exact hloc
  | outside _ | nameless _ _ _ _ | missing _ _ | tired _ _ => cases hr
  | stay _ _ _ ih => exact ih hloc hr
  | up _ _ ih => exact ih hloc.dropLast hr
  | enter hdir he hlink _ ih => exact ih (hloc.enter hdir he hlink) hr
  | link _ _ _ ih =>
    refine ih ?_ hr
    unfold linkStart
    split
    · exact grounded_root t
    · exact hloc

/-- A path that leads somewhere is one that is walked. -/
theorem resolve_eq_ok_iff {path : Path} : t.resolve path = .ok x ↔
    Path.nul ∉ path ∧ path ≠ [] ∧ path.length ≤ Path.sizeLimit ∧
      t.walk linkLimit [] (Path.pieces path) = .ok x := by
  rw [resolve, ite_error_eq_ok_iff, ite_error_eq_ok_iff, ite_error_eq_ok_iff, List.isEmpty_iff,
    Nat.not_lt]

/-- A path leads to a directory if it leads somewhere and a directory stands there. -/
theorem directory_eq_ok_iff {path : Path} :
    t.directory path = .ok x ↔ t.resolve path = .ok x ∧ t.get? x = some .dir := by
  simp only [directory, bind_eq_ok_iff, ite_ok_eq_ok_iff]
  constructor
  · rintro ⟨_, hx, hdir, rfl⟩
    exact ⟨hx, hdir⟩
  · rintro ⟨hx, hdir⟩
    exact ⟨x, hx, hdir, rfl⟩

/-- A path leads to a file or to a directory. -/
theorem file_or_dir_of_resolve {path : Path} (h : t.resolve path = .ok x) :
    t.get? x = some .dir ∨ ∃ c, t.get? x = some (.file c) :=
  (grounded_of_walk (resolve_eq_ok_iff.1 h).2.2.2 (grounded_root t)).here

/-- A path to a file leads somewhere. -/
theorem exists_resolve_of_isFile {path : Path} (h : t.isFile path = true) :
    ∃ x, t.resolve path = .ok x := by
  cases hx : t.resolve path with
  | ok x => exact ⟨x, rfl⟩
  | error cause => simp [isFile, entry, hx, bind, Except.bind] at h

/-- So links do not run out on it. -/
theorem resolve_ne_of_isFile {path : Path} (h : t.isFile path = true) :
    t.resolve path ≠ .error .tooManyLinks := by
  obtain ⟨x, hx⟩ := exists_resolve_of_isFile h
  simp [hx]

end Tree

end TimeLimit
