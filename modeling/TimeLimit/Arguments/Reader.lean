import TimeLimit.Arguments.Basic

/-!
# Reading the command line

Arguments are read from left to right, and the first thing that is wrong is the answer. An option
waits for its value, and a value or a directory that was read is looked at only when the next flag,
option or directory comes, or the end: an argument that does not exist is found before that. Behind
`--` everything is a directory.
-/

namespace TimeLimit

namespace Arguments

/-- What was read and not yet looked at. -/
inductive Pending where
  /-- An option that waits for its value. -/
  | awaiting (o : ValueOption)
  /-- An option with its value. -/
  | holding (o : ValueOption) (v : Text)
  /-- The directory. -/
  | directory (dir : Text)
  deriving DecidableEq

/-- How far the reading has come. -/
structure Reader where
  settings : Settings := {}
  pending : Option Pending := none
  /-- Whether `--` was read. -/
  directoriesOnly : Bool := false
  deriving DecidableEq

namespace Reader

/-- Looks at what is pending. -/
def settle (r : Reader) : Except Stop Settings :=
  match r.pending with
  | none => .ok r.settings
  | some (.awaiting _) => .error (.usage .missingValue)
  | some (.holding o v) => r.settings.take o v
  | some (.directory dir) => r.settings.takeDir dir

/-- Puts something new in place of what is pending. -/
def follow (r : Reader) (p : Pending) : Except Stop Reader := do
  return { r with settings := ← r.settle, pending := some p }

/-- Tells whether a directory was read. -/
def hasDirectory (r : Reader) : Bool :=
  r.settings.dir.isSome || match r.pending with
    | some (.directory _) => true
    | _ => false

/-- Reads a directory; there is one at most. -/
def directory (r : Reader) (dir : Text) : Except Stop Reader :=
  if r.hasDirectory then .error (.usage .unknownArgument) else r.follow (.directory dir)

/-- Reads a flag. -/
def flag (r : Reader) (f : Flag) : Except Stop Reader := do
  return { r with settings := ← (← r.settle).raise f, pending := none }

/-- Reads letters behind a single dash, one after the other. -/
def letters (r : Reader) : Text → Except Stop Reader
  | [] => .ok r
  | c :: cs =>
    match Flag.ofLetter? c with
    | none => .error (.usage .unknownArgument)
    | some f => (r.flag f).bind fun r => r.letters cs

/-- Reads a name behind two dashes, and the value behind its equals sign if there is one. -/
def long (r : Reader) (name : Text) (value : Option Text) : Except Stop Reader :=
  match ValueOption.ofName? name, Flag.ofName? name, value with
  | some o, _, none => r.follow (.awaiting o)
  | some o, _, some v => do
    return { r with settings := ← (← r.settle).take o v, pending := none }
  | none, some f, none => r.flag f
  | none, some _, some _ => .error (.usage .surplusValue)
  | none, none, _ => .error (.usage .unknownArgument)

/-- The name in front of the first equals sign, and the value behind it if there is one. -/
def splitValue (t : Text) : Text × Option Text :=
  (t.takeWhile (· != '='), (t.dropWhile (· != '=')).tail?)

/-- Reads an argument that is not an option: the value an option waits for, or the directory. -/
def plain (r : Reader) (arg : Text) : Except Stop Reader :=
  match r.pending with
  | some (.awaiting o) => .ok { r with pending := some (.holding o arg) }
  | _ => r.directory arg

/-- Reads one argument. -/
def step (r : Reader) (arg : Text) : Except Stop Reader :=
  if r.directoriesOnly then r.directory arg
  else match arg with
    | ['-', '-'] => .ok { r with directoriesOnly := true }
    | '-' :: '-' :: t => r.long (splitValue t).1 (splitValue t).2
    | '-' :: c :: cs => r.letters (c :: cs)
    | _ => r.plain arg

/-- Looks at what is pending at the end; two modes at once are refused only here. -/
def finish (r : Reader) : Except Stop Request :=
  r.settle.bind fun s =>
    if s.check ∧ s.diff then .error (.usage .conflict) else .ok s.request

end Reader

/-- The request that a row of arguments makes. -/
def read (args : List Text) : Except Stop Request := do
  (← args.foldlM Reader.step {}).finish

end Arguments

end TimeLimit
