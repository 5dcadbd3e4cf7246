import TimeLimit.Run

/-!
# What a run on a tree computes

The host that keeps a tree answers from the tree, and only a replacement changes it. So each part of
a run on a tree is a function of the tree: searching (`Candidate.search`, `Candidate.listing_eq`),
treating a file (`System.treat_eq`), a turn (`Request.handle`) and all turns one after the other
(`Request.turns`). The run itself is refused, or leaves what its turns leave (`Request.run_eq`).
-/

namespace TimeLimit

namespace Host

variable {α β : Type} {sys : System}

theorem run_bind (x : StateM World α) (f : α → StateM World β) (w : World) :
    (x >>= f).run w = (f (x.run w).1).run (x.run w).2 := rfl

theorem run_isDirectory? (path : Path) (w : World) :
    ((Host.ofSystem sys).isDirectory? path).run w =
      (match w.tree.entry path with
        | .ok e => some (decide (e = .dir))
        | .error _ => none, w) := rfl

theorem run_pure (a : α) (w : World) : (pure a : StateM World α).run w = (a, w) := rfl

/-- Steps that leave the world as it is are taken row by row. -/
theorem run_mapM {f : α → StateM World β} {g : α → β} {w : World} (l : List α)
    (h : ∀ a, (f a).run w = (g a, w)) : (l.mapM f).run w = (l.map g, w) := by
  induction l with
  | nil => rfl
  | cons a l ih => rw [List.mapM_cons, run_bind, h, run_bind, ih, run_pure, List.map_cons]

end Host

/-! ## Searching -/

namespace Candidate

/-- What a search of a tree finds. -/
def search (sys : System) (t : Tree) (dir : Path) (suffix : Text) (recursive : Bool) :
    Nat → List Name → Except Cause (List Candidate)
  | 0, _ => .error .nameTooLong
  | n + 1, dirs => (sys.list (dirs.foldl Path.join dir) t).map fun entries =>
    entries.flatMap fun (name, isDirectory) =>
      if isDirectory then
        if recursive && entersDirectory name.text then
          (search sys t dir suffix recursive n (dirs ++ [name])).toOption.getD []
        else []
      else if t.isFile (path dir ⟨dirs, name⟩) && isNamed suffix name.text then [⟨dirs, name⟩]
      else []

variable (sys : System) (dir : Path) (suffix : Text) (recursive : Bool)

/-- What a search finds at a name in a directory: it may go into a directory, and all else may be a
candidate. -/
def searchEntry (t : Tree) (n : Nat) (dirs : List Name) (x : Name × Bool) : List Candidate :=
  if x.2 then
    if recursive && entersDirectory x.1.text then
      (search sys t dir suffix recursive n (dirs ++ [x.1])).toOption.getD []
    else []
  else if t.isFile (path dir ⟨dirs, x.1⟩) && isNamed suffix x.1.text then [⟨dirs, x.1⟩] else []

theorem search_succ (t : Tree) (n : Nat) (dirs : List Name) :
    search sys t dir suffix recursive (n + 1) dirs =
      (sys.list (dirs.foldl Path.join dir) t).map fun entries =>
        entries.flatMap (searchEntry sys dir suffix recursive t n dirs) := rfl

theorem run_search (n : Nat) (dirs : List Name) (w : World) :
    ((Host.ofSystem sys).search dir suffix recursive n dirs).run w =
      (search sys w.tree dir suffix recursive n dirs, w) := by
  induction n generalizing dirs with
  | zero => rfl
  | succ n ih =>
    have hlist (path : Path) : ((Host.ofSystem sys).list path).run w = (sys.list path w.tree, w) :=
      rfl
    rw [Host.search, Host.run_bind, hlist, search_succ]
    cases sys.list (dirs.foldl Path.join dir) w.tree with
    | error cause => rfl
    | ok entries =>
      dsimp only
      rw [Host.run_bind, Host.run_mapM entries
        (g := searchEntry sys dir suffix recursive w.tree n dirs)]
      · rw [Host.run_pure, ← List.flatMap_def]
        rfl
      · rintro ⟨name, isDirectory⟩
        cases isDirectory with
        | true =>
          cases hgo : recursive && entersDirectory name.text with
          | true => simp only [hgo, ↓reduceIte, Host.run_bind, ih, Host.run_pure, searchEntry]
          | false =>
            simp only [hgo, ↓reduceIte, Bool.false_eq_true, Host.run_pure, searchEntry]
        | false =>
          have hisFile : ((Host.ofSystem sys).isFile (path dir ⟨dirs, name⟩)).run w =
              (w.tree.isFile (path dir ⟨dirs, name⟩), w) := rfl
          simp only [Bool.false_eq_true, ↓reduceIte, Host.run_bind, hisFile, searchEntry]
          split <;> rfl

/-- The candidates of a directory are what a search of it finds, in order. -/
theorem listing_eq (t : Tree) : listing sys t dir suffix recursive =
    (search sys t dir suffix recursive (Path.sizeLimit + 1) []).map inOrder := by
  have h := run_search sys dir suffix recursive (Path.sizeLimit + 1) [] { tree := t }
  exact congrArg (fun x => x.1.map inOrder) h

end Candidate

/-! ## Single files -/

section
variable (sys : System) (mode : Mode) (path : Path) (seconds : UInt64)

theorem Host.run_read (w : World) :
    ((Host.ofSystem sys).read path).run w = (w.tree.read path, w) := rfl

theorem Host.run_replace (text : Text) (w : World) : ((Host.ofSystem sys).replace path text).run w =
    ((sys.write path text w.tree).1, { w with tree := (sys.write path text w.tree).2 }) := rfl

/-- A file is read and judged, and replaced if there is a text for that. -/
theorem System.treat_eq (t : Tree) : sys.treat mode path seconds t =
    match judge mode path seconds (t.read path) with
    | (o, none) => (o, t)
    | (o, some text) =>
      match sys.write path text t with
      | (.error fault, t) => (.ofFault fault, t)
      | (.ok (), t) => (o, t) := by
  rw [treat, Host.treat, Host.run_bind, Host.run_read]
  dsimp only
  obtain ⟨o, _ | text⟩ := judge mode path seconds (t.read path)
  · rfl
  · dsimp only
    rw [Host.run_bind, Host.run_replace]
    dsimp only
    obtain ⟨_ | _, t'⟩ := sys.write path text t
    · rfl
    · rfl

/-- Nothing is told while a file is treated. -/
theorem Host.run_treat (w : World) : ((Host.ofSystem sys).treat mode path seconds).run w =
    ((sys.treat mode path seconds w.tree).1,
      { w with tree := (sys.treat mode path seconds w.tree).2 }) := by
  rw [System.treat_eq, treat, run_bind, run_read]
  dsimp only
  obtain ⟨o, _ | text⟩ := judge mode path seconds (w.tree.read path)
  · rfl
  · dsimp only
    rw [run_bind, run_replace]
    obtain ⟨_ | _, t⟩ := sys.write path text w.tree
    · rfl
    · rfl

end

/-! ## Turns -/

namespace Request

variable (r : Request) (sys : System)

/-- What happens at the turn of a candidate: the event that reports it, its outcome, and the tree
behind it. -/
def handle (c : Candidate) (t : Tree) : Event × Outcome × Tree :=
  match r.allot? c with
  | none => (.file (c.path r.dir) none 0 .ofSkipped, .ofSkipped, t)
  | some (fileClass, seconds) =>
    let (o, t) := sys.treat r.mode (c.path r.dir) seconds t
    (.file (c.path r.dir) (some fileClass) seconds o, o, t)

/-- The candidates of a run, each with the tree that it is treated on. -/
def turns : List Candidate → Tree → List (Candidate × Tree)
  | [], _ => []
  | c :: cs, t => (c, t) :: turns cs (r.handle sys c t).2.2

/-- The tree that the turns of some candidates leave. -/
def treeAfter : List Candidate → Tree → Tree
  | [], t => t
  | c :: cs, t => treeAfter cs (r.handle sys c t).2.2

/-- The event that reports a candidate treated on a tree. -/
def eventAt (x : Candidate × Tree) : Event :=
  (r.handle sys x.1 x.2).1

/-- What became of a candidate treated on a tree. -/
def outcomeAt (x : Candidate × Tree) : Outcome :=
  (r.handle sys x.1 x.2).2.1

/-- What the turns of some candidates add up to. -/
def tallyOf (cs : List Candidate) (t : Tree) : Tally :=
  ((r.turns sys cs t).map (r.outcomeAt sys)).foldl Tally.record {}

theorem run_handle (c : Candidate) (w : World) :
    ((Host.ofSystem sys).handle r c).run w = (r.outcomeAt sys (c, w.tree),
      ⟨(r.handle sys c w.tree).2.2, w.told ++ [r.eventAt sys (c, w.tree)]⟩) := by
  rw [outcomeAt, eventAt, handle, Host.handle]
  cases r.allot? c with
  | none => rfl
  | some allotted =>
    obtain ⟨fileClass, seconds⟩ := allotted
    dsimp only
    rw [Host.run_bind, Host.run_treat]
    rfl

theorem run_handleAll (cs : List Candidate) (n : Tally) (w : World) :
    ((Host.ofSystem sys).handleAll r cs n).run w =
      (((r.turns sys cs w.tree).map (r.outcomeAt sys)).foldl Tally.record n,
        ⟨r.treeAfter sys cs w.tree, w.told ++ (r.turns sys cs w.tree).map (r.eventAt sys)⟩) := by
  induction cs generalizing n w with
  | nil =>
    rw [turns, treeAfter, List.map_nil, List.map_nil, List.append_nil]
    rfl
  | cons c cs ih =>
    rw [Host.handleAll, Host.run_bind, run_handle, ih, turns, treeAfter, List.map_cons,
      List.map_cons, List.foldl_cons, List.append_assoc, List.singleton_append]

/-! ## Runs -/

/-- The candidates of a request in a tree. -/
def candidates (t : Tree) : Except Cause (List Candidate) :=
  Candidate.listing sys t r.dir r.suffix r.recursive

/-- What a run that treats some candidates leaves behind. -/
def recordOf (cs : List Candidate) (t : Tree) : Record where
  result := .ok (r.tallyOf sys cs t)
  events := .start r.dir cs.length ::
    ((r.turns sys cs t).map (r.eventAt sys) ++ [.complete (r.tallyOf sys cs t)])
  tree := r.treeAfter sys cs t

theorem run_listing (w : World) :
    ((Host.ofSystem sys).listing r.dir r.suffix r.recursive).run w =
      (r.candidates sys w.tree, w) := by
  rw [Host.listing, Host.run_bind, Candidate.run_search, candidates, Candidate.listing_eq]
  rfl

/-- A run that is refused tells nothing and leaves the tree as it is; any other treats the
candidates of its directory. -/
theorem run_eq (t : Tree) : r.run sys t =
    match t.entry r.dir with
    | .error _ => ⟨.error (.missingDirectory r.dir), [], t⟩
    | .ok e =>
      if e ≠ .dir then ⟨.error (.notDirectory r.dir), [], t⟩
      else match r.candidates sys t with
        | .error cause => ⟨.error (.unlistable r.dir cause), [], t⟩
        | .ok cs => r.recordOf sys cs t := by
  rw [run, Host.run, Host.run_bind, Host.run_isDirectory?]
  dsimp only
  cases t.entry r.dir with
  | error cause => rfl
  | ok e =>
    by_cases he : e = .dir
    · simp only [he, decide_true, ne_eq, not_true_eq_false, ↓reduceIte]
      rw [Host.run_bind, run_listing]
      cases r.candidates sys t with
      | error cause => rfl
      | ok cs =>
        dsimp only
        rw [Host.run_bind, Host.run_bind, run_handleAll]
        rfl
    · simp only [he, decide_false, ne_eq, not_false_eq_true, ↓reduceIte]
      rfl

end Request

end TimeLimit
