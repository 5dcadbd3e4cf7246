import TimeLimit.Path

/-!
# Why files cannot be read or written

The causes for which a path cannot be followed, read or replaced, each with its wording, and the
faults of a file: a cause together with the path and with what was tried.
-/

namespace TimeLimit

/-- Why a file or directory cannot be used. -/
inductive Cause where
  | notFound
  | notDirectory
  | isDirectory
  | busy
  | nameTooLong
  | tooManyLinks
  /-- The system does not take the name that a text is to be moved to. -/
  | invalidArgument
  /-- The path that is opened holds the byte NUL. -/
  | nulInPath
  /-- The bytes of the file are no text. -/
  | notText
  /-- Any other reason of the system, with its number. -/
  | other (reason : Text) (code : Nat)
  deriving DecidableEq, Repr

namespace Cause

/-- A reason of the system with its number. -/
def systemMessage (reason : Text) (code : Nat) : Text :=
  reason ++ " (os error ".toList ++ Text.ofNat code ++ [')']

/-- The wording of a cause. -/
def message : Cause → Text
  | notFound => systemMessage "No such file or directory".toList 2
  | notDirectory => systemMessage "Not a directory".toList 20
  | isDirectory => systemMessage "Is a directory".toList 21
  | invalidArgument => systemMessage "Invalid argument".toList 22
  | busy => systemMessage "Device or resource busy".toList 16
  | nameTooLong => systemMessage "File name too long".toList 36
  | tooManyLinks => systemMessage "Too many levels of symbolic links".toList 40
  | nulInPath => "file name contained an unexpected NUL byte".toList
  | notText => "stream did not contain valid UTF-8".toList
  | other reason code => systemMessage reason code

/-- The cause that the system gives by its number; the reason is its wording for a cause that is not
told apart here. -/
def ofCode (code : Nat) (reason : Text) : Cause :=
  match code with
  | 2 => notFound
  | 16 => busy
  | 20 => notDirectory
  | 21 => isDirectory
  | 22 => invalidArgument
  | 36 => nameTooLong
  | 40 => tooManyLinks
  | _ => other reason code

end Cause

/-- A file that could not be processed. -/
inductive FileFault where
  | unreadable (path : Path) (cause : Cause)
  | unwritable (path : Path) (cause : Cause)
  deriving DecidableEq, Repr

/-- The wording of a fault. -/
def FileFault.message : FileFault → Text
  | unreadable path cause =>
    "cannot read ".toList ++ Path.display path ++ ": ".toList ++ cause.message
  | unwritable path cause =>
    "cannot write ".toList ++ Path.display path ++ ": ".toList ++ cause.message

/-- The wording tells a file that cannot be read from one that cannot be written. -/
theorem FileFault.message_unreadable_ne (path path' : Path) (cause cause' : Cause) :
    (unreadable path cause).message ≠ (unwritable path' cause').message := by
  intro h
  change "cannot read ".toList ++ Path.display path ++ ": ".toList ++ cause.message =
    "cannot write ".toList ++ Path.display path' ++ ": ".toList ++ cause'.message at h
  simp only [List.append_assoc] at h
  have hread := List.prefix_append "cannot read ".toList
    (Path.display path ++ (": ".toList ++ cause.message))
  rw [h] at hread
  rcases List.prefix_or_prefix_of_prefix hread (List.prefix_append _ _) with h' | h' <;>
    exact absurd h' (by decide)

/-! ## Steps that may fail -/

section
variable {ε α β : Type}

theorem ok_bind (a : α) (f : α → Except ε β) : (Except.ok a >>= f) = f a :=
  rfl

/-- Two steps give a result when the first does and the second does with it. -/
theorem bind_eq_ok_iff {x : Except ε α} {f : α → Except ε β} {b : β} :
    x >>= f = .ok b ↔ ∃ a, x = .ok a ∧ f a = .ok b := by
  cases x <;> simp [bind, Except.bind]

/-- A step that fails under a condition gives its result where the condition is not met. -/
theorem ite_error_eq_ok_iff {p : Prop} [Decidable p] {e : ε} {x : Except ε α} {a : α} :
    (if p then .error e else x) = .ok a ↔ ¬ p ∧ x = .ok a := by
  split <;> simp_all

/-- A step that fails unless a condition is met gives its result where the condition is met. -/
theorem ite_ok_eq_ok_iff {p : Prop} [Decidable p] {e : ε} {a b : α} :
    (if p then .ok a else .error e : Except ε α) = .ok b ↔ p ∧ a = b := by
  split <;> simp_all

end

end TimeLimit
