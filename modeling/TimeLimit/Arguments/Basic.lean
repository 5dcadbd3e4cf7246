import TimeLimit.Request

/-!
# Options of the command line

The options that take a value, the flags, and the settings that a row of arguments adds up to.
Every option and flag but `--skip` and `--network-file` may be given once.
-/

namespace TimeLimit

namespace Arguments

/-- An option that takes a value. -/
inductive ValueOption where
  | suffix
  | defaultTimeout
  | networkTimeout
  | networkFile
  | skip
  deriving DecidableEq, Repr

namespace ValueOption

/-- All options that take a value. -/
def all : List ValueOption :=
  [suffix, defaultTimeout, networkTimeout, networkFile, skip]

/-- What is written behind the two dashes. -/
def name : ValueOption → Text
  | suffix => "suffix".toList
  | defaultTimeout => "default-timeout".toList
  | networkTimeout => "network-timeout".toList
  | networkFile => "network-file".toList
  | skip => "skip".toList

/-- The option of a name. -/
def ofName? (name : Text) : Option ValueOption :=
  all.find? fun o => o.name = name

end ValueOption

/-- An option without a value. -/
inductive Flag where
  | recursive
  | check
  | diff
  | help
  | version
  deriving DecidableEq, Repr

namespace Flag

/-- All flags. -/
def all : List Flag :=
  [recursive, check, diff, help, version]

/-- What is written behind the two dashes. -/
def name : Flag → Text
  | recursive => "recursive".toList
  | check => "check".toList
  | diff => "diff".toList
  | help => "help".toList
  | version => "version".toList

/-- The flag of a name. -/
def ofName? (name : Text) : Option Flag :=
  all.find? fun f => f.name = name

/-- The flag of a letter behind a single dash. -/
def ofLetter? : Char → Option Flag
  | 'r' => some recursive
  | 'h' => some help
  | 'V' => some version
  | _ => none

end Flag

/-- What is wrong with a row of arguments. -/
inductive UsageError where
  /-- An option or flag that does not exist, or a second directory. -/
  | unknownArgument
  /-- An option without its value, or an empty directory. -/
  | missingValue
  /-- A number of seconds that is none. -/
  | invalidSeconds
  /-- Something given twice, or two modes at once. -/
  | conflict
  /-- A value for a flag. -/
  | surplusValue
  deriving DecidableEq, Repr

/-- Why the reading of arguments stops before a run. -/
inductive Stop where
  | usage (e : UsageError)
  /-- The help is asked for. -/
  | help
  /-- The version is asked for. -/
  | version
  deriving DecidableEq, Repr

/-- What the arguments read so far have set. -/
structure Settings where
  dir : Option Text := none
  suffix : Option Text := none
  defaultTimeout : Option UInt64 := none
  networkTimeout : Option UInt64 := none
  networkFiles : List Text := []
  skip : List Text := []
  recursive : Bool := false
  check : Bool := false
  diff : Bool := false
  deriving DecidableEq

/-- The value of a decimal digit. -/
def digit? (c : Char) : Option Nat :=
  if c.isDigit then some (c.toNat - '0'.toNat) else none

/-- The number that decimal digits write, read from the first to the last behind a number that was
read before them. -/
def digits? (n : Nat) : Text → Option Nat
  | [] => some n
  | c :: t => (digit? c).bind fun d => digits? (10 * n + d) t

/-- Reads a number of seconds: decimal digits, leading zeros and one plus sign allowed, that fit
into 64 bits. -/
def seconds? (t : Text) : Option UInt64 :=
  let digits := match t with
    | '+' :: ds => ds
    | ds => ds
  if digits.isEmpty then none
  else (digits? 0 digits).bind fun n =>
    if n < UInt64.size then some (UInt64.ofNat n) else none

namespace Settings

/-- Sets what may be set once. -/
def once {α : Type} (given : Option α) (value : Except Stop α) : Except Stop (Option α) :=
  match given with
  | some _ => .error (.usage .conflict)
  | none => value.map some

/-- A number of seconds, or the complaint that it is none. -/
def readSeconds (t : Text) : Except Stop UInt64 :=
  match seconds? t with
  | some n => .ok n
  | none => .error (.usage .invalidSeconds)

/-- Takes the value of an option. -/
def take (s : Settings) (o : ValueOption) (v : Text) : Except Stop Settings :=
  match o with
  | .suffix => (once s.suffix (.ok v)).map fun x => { s with suffix := x }
  | .defaultTimeout =>
    (once s.defaultTimeout (readSeconds v)).map fun x => { s with defaultTimeout := x }
  | .networkTimeout =>
    (once s.networkTimeout (readSeconds v)).map fun x => { s with networkTimeout := x }
  | .networkFile => .ok { s with networkFiles := s.networkFiles ++ [v] }
  | .skip => .ok { s with skip := s.skip ++ [v] }

/-- Takes the directory. -/
def takeDir (s : Settings) (dir : Text) : Except Stop Settings :=
  if dir.isEmpty then .error (.usage .missingValue)
  else (once s.dir (.ok dir)).map fun x => { s with dir := x }

/-- Raises a flag that may be raised once. -/
def onceRaised (raised : Bool) (s : Settings) : Except Stop Settings :=
  if raised then .error (.usage .conflict) else .ok s

/-- Raises a flag; asking for the help or the version ends the reading. -/
def raise (s : Settings) : Flag → Except Stop Settings
  | .recursive => onceRaised s.recursive { s with recursive := true }
  | .check => onceRaised s.check { s with check := true }
  | .diff => onceRaised s.diff { s with diff := true }
  | .help => .error .help
  | .version => .error .version

/-- The mode that the flags choose. -/
def mode (s : Settings) : Mode :=
  if s.diff then .diff else if s.check then .check else .write

/-- The budget that the options choose; network names, if any are given, replace those built in. -/
def budget (s : Settings) : Budget :=
  let b : Budget := {}
  { ordinarySeconds := s.defaultTimeout.getD b.ordinarySeconds
    networkSeconds := s.networkTimeout.getD b.networkSeconds
    networkFiles := if s.networkFiles.isEmpty then b.networkFiles else .ofList s.networkFiles }

/-- The request that the settings make; what was not given keeps its default. -/
def request (s : Settings) : Request :=
  let r : Request := {}
  { dir := (s.dir.map Path.ofText).getD r.dir
    suffix := s.suffix.getD r.suffix
    skip := .ofList s.skip
    recursive := s.recursive
    mode := s.mode
    budget := s.budget }

end Settings

end Arguments

end TimeLimit
