import TimeLimit.Host
import TimeLimit.Tree.System

/-!
# Runs on a tree

A run on a tree is a run on a host that keeps the tree and what it was told (`Host.ofSystem`). What
a run leaves behind is its `Record`: how it ended, what it told, and the tree. All three are there
however the run ends.
-/

namespace TimeLimit

/-- A tree, and what a run has told so far. -/
structure World where
  tree : Tree
  told : List Event := []

namespace Host

/-- Asks the tree of a world. -/
def ask {α : Type} (f : Tree → α) : StateM World α :=
  return f (← get).tree

/-- The host that keeps a tree, on a system that decides what the tree does not show. -/
def ofSystem (sys : System) : Host (StateM World) where
  isDirectory? path := ask fun t =>
    match t.entry path with
    | .ok e => some (e = .dir)
    | .error _ => none
  list path := ask (sys.list path)
  isFile path := ask fun t => t.isFile path
  read path := ask fun t => t.read path
  replace path text := modifyGet fun w =>
    let (result, tree) := sys.write path text w.tree
    (result, { w with tree })
  report e := modify fun w => { w with told := w.told ++ [e] }

end Host

/-- Treats one file of a tree: what became of it, and the tree behind it. -/
def System.treat (sys : System) (mode : Mode) (path : Path) (seconds : UInt64) (t : Tree) :
    Outcome × Tree :=
  let (o, w) := ((Host.ofSystem sys).treat mode path seconds).run { tree := t }
  (o, w.tree)

/-- The candidates of a directory in a tree. -/
def Candidate.listing (sys : System) (t : Tree) (dir : Path) (suffix : Text) (recursive : Bool) :
    Except Cause (List Candidate) :=
  (((Host.ofSystem sys).listing dir suffix recursive).run { tree := t }).1

/-- What a run leaves behind. -/
structure Record where
  /-- The tally of the files, or why the run was refused. -/
  result : Except Refusal Tally
  events : List Event
  tree : Tree

/-- Runs a request on a tree. -/
def Request.run (r : Request) (sys : System) (t : Tree) : Record :=
  let (result, w) := ((Host.ofSystem sys).run r).run { tree := t }
  ⟨result, w.told, w.tree⟩

end TimeLimit
