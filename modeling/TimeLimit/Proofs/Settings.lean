import Mathlib.Data.List.Count
import Mathlib.Data.List.Induction
import Mathlib.Data.List.Perm.Basic
import TimeLimit.Arguments.Basic
import TimeLimit.Proofs.Tail

/-!
# Settings in any order

Arguments say one thing after the other: the value of an option, a flag, the directory. Where no
option or flag is given too often, what they add up to can be told from the whole of what was said
(`Settings.of`), and is told by taking one thing after the other (`Settings.foldlM_accept`). Whether
a row of things asks for a request does not depend on their order (`AsksFor.perm`), and if it does,
the settings they add up to make this request (`AsksFor.request_of`). Every request that has network
names can be asked for (`asksFor_sayings`).
-/

namespace TimeLimit

namespace Arguments

/-! ## Numbers of seconds -/

/-- The text is a number of seconds in decimal, with a plus sign or without, and with zeros in front
or without. -/
def WritesSeconds (n : UInt64) (t : Text) : Prop :=
  ∃ sign zeros, (sign = [] ∨ sign = ['+']) ∧
    t = sign ++ (List.replicate zeros '0' ++ Text.ofNat n.toNat)

theorem digits?_eq (n : Nat) {t : Text} (h : ∀ c ∈ t, c.isDigit = true) :
    digits? n t = some (Nat.ofDigitChars 10 t n) := by
  induction t generalizing n with
  | nil => rw [digits?, Nat.ofDigitChars_nil]
  | cons c t ih =>
    have hc : digit? c = some (c.toNat - '0'.toNat) := if_pos (h c List.mem_cons_self)
    rw [digits?, hc, Option.bind_some, ih _ fun d hd => h d (List.mem_cons_of_mem c hd),
      Nat.ofDigitChars_cons]

/-- A sign in front of digits is not read as one of them. -/
theorem seconds?_eq {sign t : Text} (hsign : sign = [] ∨ sign = ['+'])
    (h : ∀ c ∈ t, c.isDigit = true) (hne : t ≠ []) :
    seconds? (sign ++ t) = if Nat.ofDigitChars 10 t 0 < UInt64.size then
      some (UInt64.ofNat (Nat.ofDigitChars 10 t 0)) else none := by
  have hread : seconds? (sign ++ t) = if t.isEmpty then none else
      (digits? 0 t).bind fun n => if n < UInt64.size then some (UInt64.ofNat n) else none := by
    rcases hsign with rfl | rfl
    · rw [List.nil_append, seconds?]
      rintro ds rfl
      cases h '+' List.mem_cons_self
    · rfl
  rw [hread, if_neg (by simpa using hne), digits?_eq 0 h, Option.bind_some]

/-- A number of seconds is read as it was written. -/
theorem WritesSeconds.seconds? {n : UInt64} {t : Text} (h : WritesSeconds n t) :
    Arguments.seconds? t = some n := by
  obtain ⟨sign, zeros, hsign, rfl⟩ := h
  have hdigit : ∀ c ∈ List.replicate zeros '0' ++ Text.ofNat n.toNat, c.isDigit = true := by
    intro c hc
    rcases List.mem_append.1 hc with hc | hc
    · rw [List.eq_of_mem_replicate hc]
      rfl
    · exact Nat.isDigit_of_mem_toDigits (by decide) (by decide) hc
  have hne : List.replicate zeros '0' ++ Text.ofNat n.toNat ≠ [] :=
    List.append_ne_nil_of_right_ne_nil _ Nat.toDigits_ne_nil
  have hvalue : Nat.ofDigitChars 10 (List.replicate zeros '0' ++ Text.ofNat n.toNat) 0 =
      n.toNat := by
    rw [Nat.ofDigitChars_append, Nat.ofDigitChars_replicate_zero, Nat.mul_zero, Text.ofNat,
      Nat.ofDigitChars_ten_toDigits]
  rw [seconds?_eq hsign hdigit hne, hvalue, if_pos n.toNat_lt_size, UInt64.ofNat_toNat]

/-! ## What is said -/

/-- One thing that arguments say. -/
inductive Setting where
  /-- The value of an option. -/
  | value (o : ValueOption) (v : Text)
  /-- A raised flag. -/
  | flag (f : Flag)
  /-- The directory. -/
  | directory (dir : Text)
  deriving DecidableEq

namespace Setting

/-- The value that is given to an option. -/
def value? (o : ValueOption) : Setting → Option Text
  | value p v => if p = o then some v else none
  | _ => none

/-- The directory that is given. -/
def directory? : Setting → Option Text
  | directory dir => some dir
  | _ => none

/-- The values that are given to an option, in order. -/
def values (o : ValueOption) (said : List Setting) : List Text :=
  said.filterMap (value? o)

/-- The directories that are given, in order. -/
def directories (said : List Setting) : List Text :=
  said.filterMap directory?

@[simp] theorem values_concat_value (o p : ValueOption) (v : Text) (said : List Setting) :
    values o (said ++ [value p v]) = values o said ++ if p = o then [v] else [] := by
  rw [values, List.filterMap_append, ← values]
  by_cases h : p = o <;> simp [value?, h]

@[simp] theorem values_concat_flag (o : ValueOption) (f : Flag) (said : List Setting) :
    values o (said ++ [flag f]) = values o said := by
  simp [values, value?]

@[simp] theorem values_concat_directory (o : ValueOption) (dir : Text) (said : List Setting) :
    values o (said ++ [directory dir]) = values o said := by
  simp [values, value?]

@[simp] theorem directories_concat_value (o : ValueOption) (v : Text) (said : List Setting) :
    directories (said ++ [value o v]) = directories said := by
  simp [directories, directory?]

@[simp] theorem directories_concat_flag (f : Flag) (said : List Setting) :
    directories (said ++ [flag f]) = directories said := by
  simp [directories, directory?]

@[simp] theorem directories_concat_directory (dir : Text) (said : List Setting) :
    directories (said ++ [directory dir]) = directories said ++ [dir] := by
  simp [directories, directory?]

end Setting

open Setting

/-! ## What settings add up to -/

namespace Settings

/-- Takes one thing that is said. -/
def accept (s : Settings) : Setting → Except Stop Settings
  | .value o v => s.take o v
  | .flag f => s.raise f
  | .directory dir => s.takeDir dir

/-- The settings that all that was said adds up to, where nothing is said too often. -/
def of (said : List Setting) : Settings where
  dir := (directories said).head?
  suffix := (values .suffix said).head?
  defaultTimeout := (values .defaultTimeout said).head?.bind seconds?
  networkTimeout := (values .networkTimeout said).head?.bind seconds?
  networkFiles := values .networkFile said
  skip := values .skip said
  recursive := .flag .recursive ∈ said
  check := .flag .check ∈ said
  diff := .flag .diff ∈ said

end Settings

/-- Nothing is said too often, numbers of seconds are some, the directory is not empty, and neither
the help nor the version is asked for. -/
structure Admissible (said : List Setting) : Prop where
  suffix : (values .suffix said).length ≤ 1
  defaultTimeout : (values .defaultTimeout said).length ≤ 1
  networkTimeout : (values .networkTimeout said).length ≤ 1
  readable : ∀ o, o = .defaultTimeout ∨ o = .networkTimeout →
    ∀ v ∈ values o said, ∃ n, seconds? v = some n
  flags : ∀ f, said.count (.flag f) ≤ 1
  help : .flag .help ∉ said
  version : .flag .version ∉ said
  directory : (directories said).length ≤ 1
  nonempty : [] ∉ directories said

/-- What is said first is admissible where all of it is. -/
theorem Admissible.of_append {front back : List Setting} (h : Admissible (front ++ back)) :
    Admissible front := by
  have hsub := List.sublist_append_left front back
  have hvalues (o : ValueOption) : (values o front).Sublist (values o (front ++ back)) :=
    hsub.filterMap _
  have hdirs : (Setting.directories front).Sublist (Setting.directories (front ++ back)) :=
    hsub.filterMap _
  exact {
    suffix := Nat.le_trans (hvalues _).length_le h.suffix
    defaultTimeout := Nat.le_trans (hvalues _).length_le h.defaultTimeout
    networkTimeout := Nat.le_trans (hvalues _).length_le h.networkTimeout
    readable := fun o ho v hv => h.readable o ho v ((hvalues o).subset hv)
    flags := fun f => Nat.le_trans (hsub.count_le _) (h.flags f)
    help := fun hm => h.help (hsub.subset hm)
    version := fun hm => h.version (hsub.subset hm)
    directory := Nat.le_trans hdirs.length_le h.directory
    nonempty := fun hm => h.nonempty (hdirs.subset hm) }

/-- Where nothing is said too often, taking one more thing gives what all of it adds up to. -/
theorem Settings.accept_of {said : List Setting} {x : Setting} (h : Admissible (said ++ [x])) :
    (of said).accept x = .ok (of (said ++ [x])) := by
  cases x with
  | value o v =>
    cases o with
    | suffix =>
      have hnone : values .suffix said = [] := by simpa using h.suffix
      simp [accept, take, once, of, hnone, Except.map]
    | defaultTimeout =>
      have hnone : values .defaultTimeout said = [] := by simpa using h.defaultTimeout
      obtain ⟨n, hn⟩ := h.readable .defaultTimeout (.inl rfl) v (by simp)
      simp [accept, take, once, of, hnone, Except.map, readSeconds, hn]
    | networkTimeout =>
      have hnone : values .networkTimeout said = [] := by simpa using h.networkTimeout
      obtain ⟨n, hn⟩ := h.readable .networkTimeout (.inr rfl) v (by simp)
      simp [accept, take, once, of, hnone, Except.map, readSeconds, hn]
    | networkFile => simp [accept, take, of]
    | skip => simp [accept, take, of]
  | flag f =>
    have hnone : .flag f ∉ said := by simpa [List.count_eq_zero] using h.flags f
    cases f with
    | recursive | check | diff => simp [accept, raise, onceRaised, of, hnone]
    | help => exact absurd (by simp) h.help
    | version => exact absurd (by simp) h.version
  | directory dir =>
    have hnone : directories said = [] := by simpa using h.directory
    have hne : dir ≠ [] := fun hdir => h.nonempty (by simp [hdir])
    simp [accept, takeDir, once, of, hnone, hne, Except.map]

/-- Taking one thing after the other gives what all of it adds up to. -/
theorem Settings.foldlM_accept {said : List Setting} (h : Admissible said) :
    said.foldlM accept {} = .ok (of said) := by
  induction said using List.reverseRecOn with
  | nil => rfl
  | append_singleton said x ih =>
    rw [List.foldlM_append, ih h.of_append, ok_bind, List.foldlM_cons, accept_of h, ok_bind]
    rfl

/-! ## What asks for a request -/

/-- What may be given once: it is not given, and then something else decides, or it is given with
one value that is fit. -/
def GivenOnce (given : List Text) (omitted : Prop) (fits : Text → Prop) : Prop :=
  given = [] ∧ omitted ∨ ∃ v, given = [v] ∧ fits v

namespace GivenOnce

variable {given given' : List Text} {omitted : Prop} {fits : Text → Prop} {n default : UInt64}

theorem length_le (h : GivenOnce given omitted fits) : given.length ≤ 1 := by
  obtain ⟨rfl, -⟩ | ⟨v, rfl, -⟩ := h
  · exact Nat.zero_le 1
  · exact Nat.le_refl 1

theorem perm (h : GivenOnce given omitted fits) (hp : given.Perm given') :
    GivenOnce given' omitted fits := by
  obtain ⟨rfl, ho⟩ | ⟨v, rfl, hv⟩ := h
  · exact .inl ⟨List.nil_perm.1 hp, ho⟩
  · exact .inr ⟨v, (List.singleton_perm.1 hp).symm, hv⟩

/-- The seconds that are given, if any, can be read. -/
theorem exists_seconds? (h : GivenOnce given omitted (WritesSeconds n)) {v : Text}
    (hv : v ∈ given) : ∃ n, seconds? v = some n := by
  obtain ⟨rfl, -⟩ | ⟨w, rfl, hw⟩ := h
  · cases hv
  · rw [List.mem_singleton.1 hv]
    exact ⟨n, hw.seconds?⟩

/-- The seconds that are read, or else the default, are those that were asked for. -/
theorem seconds_eq (h : GivenOnce given (n = default) (WritesSeconds n)) :
    (given.head?.bind seconds?).getD default = n := by
  obtain ⟨rfl, hn⟩ | ⟨v, rfl, hv⟩ := h
  · exact hn.symm
  · rw [List.head?_cons, Option.bind_some, hv.seconds?, Option.getD_some]

end GivenOnce

/-- Tells whether a request wants a flag. -/
def wants (r : Request) : Flag → Bool
  | .recursive => r.recursive
  | .check => r.mode = .check
  | .diff => r.mode = .diff
  | .help | .version => false

/-- All that is said, the directory apart, asks for a request. The suffix and the seconds are given
once at most, and where they are not, the request has the default. The names to skip are those
given, the network names too, but where none are given they are those built in. A flag is raised
once where the request wants it, and otherwise not. -/
structure AsksFor (r : Request) (said : List Setting) : Prop where
  suffix : GivenOnce (values .suffix said) (r.suffix = ({} : Request).suffix) (· = r.suffix)
  defaultTimeout : GivenOnce (values .defaultTimeout said)
    (r.budget.ordinarySeconds = ({} : Budget).ordinarySeconds)
    (WritesSeconds r.budget.ordinarySeconds)
  networkTimeout : GivenOnce (values .networkTimeout said)
    (r.budget.networkSeconds = ({} : Budget).networkSeconds)
    (WritesSeconds r.budget.networkSeconds)
  skip : ∀ name, name ∈ values .skip said ↔ name ∈ r.skip
  networkFiles :
    values .networkFile said = [] ∧ r.budget.networkFiles = ({} : Budget).networkFiles ∨
    values .networkFile said ≠ [] ∧
      ∀ name, name ∈ values .networkFile said ↔ name ∈ r.budget.networkFiles
  flags : ∀ f, said.count (.flag f) = if wants r f then 1 else 0

namespace AsksFor

variable {r : Request} {said said' : List Setting}

/-- What is asked for does not depend on the order in which it is said. -/
theorem perm (h : AsksFor r said) (hp : said.Perm said') : AsksFor r said' := by
  have hvalues (o : ValueOption) : (values o said).Perm (values o said') := hp.filterMap _
  have hmem (o : ValueOption) (name : Text) : name ∈ values o said' ↔ name ∈ values o said :=
    (hvalues o).mem_iff.symm
  exact {
    suffix := h.suffix.perm (hvalues _)
    defaultTimeout := h.defaultTimeout.perm (hvalues _)
    networkTimeout := h.networkTimeout.perm (hvalues _)
    skip := fun name => (hmem _ name).trans (h.skip name)
    networkFiles := by
      rcases h.networkFiles with ⟨hnone, hfiles⟩ | ⟨hsome, hfiles⟩
      · exact .inl ⟨List.nil_perm.1 (hnone ▸ hvalues .networkFile), hfiles⟩
      · refine .inr ⟨fun hnone => hsome ?_, fun name => (hmem _ name).trans (hfiles name)⟩
        exact List.perm_nil.1 (hnone ▸ hvalues .networkFile)
    flags := fun f => (hp.count_eq _).symm.trans (h.flags f) }

/-- What is asked for does not depend on the directory that is given. -/
theorem concat_directory (h : AsksFor r said) {dir : Text} :
    AsksFor r (said ++ [.directory dir]) where
  suffix := by simpa using h.suffix
  defaultTimeout := by simpa using h.defaultTimeout
  networkTimeout := by simpa using h.networkTimeout
  skip := by simpa using h.skip
  networkFiles := by simpa using h.networkFiles
  flags f := by simpa [List.count_append] using h.flags f

/-- What asks for a request says nothing too often. -/
theorem admissible (h : AsksFor r said) {dir : Text} (hne : dir ≠ [])
    (hdirs : directories said = [dir]) : Admissible said where
  suffix := h.suffix.length_le
  defaultTimeout := h.defaultTimeout.length_le
  networkTimeout := h.networkTimeout.length_le
  readable o ho v hv := by
    rcases ho with rfl | rfl
    · exact h.defaultTimeout.exists_seconds? hv
    · exact h.networkTimeout.exists_seconds? hv
  flags f := by
    rw [h.flags f]
    split <;> decide
  help := List.count_eq_zero.1 (h.flags .help)
  version := List.count_eq_zero.1 (h.flags .version)
  directory := by rw [hdirs]; exact Nat.le_refl 1
  nonempty := by simpa [hdirs, eq_comm] using hne

/-- A flag is raised when the request wants it. -/
theorem flag_mem_iff (h : AsksFor r said) (f : Flag) : .flag f ∈ said ↔ wants r f = true := by
  rw [← List.count_pos_iff, h.flags f]
  cases wants r f <;> simp

theorem decide_flag_mem (h : AsksFor r said) (f : Flag) : decide (.flag f ∈ said) = wants r f := by
  rw [Bool.eq_iff_iff, decide_eq_true_iff, h.flag_mem_iff f]

/-- The flags choose the mode that was asked for, and never two. -/
theorem mode_of (h : AsksFor r said) : (Settings.of said).mode = r.mode ∧
    ¬ ((Settings.of said).check = true ∧ (Settings.of said).diff = true) := by
  simp only [Settings.mode, Settings.of, h.decide_flag_mem, wants]
  cases r.mode <;> simp

/-- The options choose the budget that was asked for. -/
theorem budget_of (h : AsksFor r said) : (Settings.of said).budget = r.budget := by
  have hfiles : (if (values .networkFile said).isEmpty then ({} : Budget).networkFiles
      else .ofList (values .networkFile said)) = r.budget.networkFiles := by
    rcases h.networkFiles with ⟨hnone, hfiles⟩ | ⟨hsome, hfiles⟩
    · rw [hnone, hfiles]
      rfl
    · rw [if_neg (by simpa using hsome)]
      exact NameSet.ext_mem fun name => NameSet.mem_ofList.trans (hfiles name)
  show Budget.mk (((values .defaultTimeout said).head?.bind seconds?).getD _)
    (((values .networkTimeout said).head?.bind seconds?).getD _) _ = _
  rw [h.defaultTimeout.seconds_eq, h.networkTimeout.seconds_eq]
  exact congrArg _ hfiles

/-- What asks for a request, with its directory, adds up to settings that make it. -/
theorem request_of (h : AsksFor r said) {dir : Text} (hdir : r.dir = Path.ofText dir)
    (hdirs : directories said = [dir]) : (Settings.of said).request = r := by
  have hsuffix : ((values .suffix said).head?).getD ({} : Request).suffix = r.suffix := by
    obtain ⟨hnone, hs⟩ | ⟨v, hv, hs⟩ := h.suffix
    · rw [hnone, hs]
      rfl
    · rw [hv, ← hs]
      rfl
  have hskip : NameSet.ofList (values .skip said) = r.skip :=
    NameSet.ext_mem fun name => NameSet.mem_ofList.trans (h.skip name)
  have hdir' : ((directories said).head?.map Path.ofText).getD ({} : Request).dir = r.dir := by
    rw [hdirs, hdir]
    rfl
  show Request.mk (((directories said).head?.map Path.ofText).getD _)
    ((values .suffix said).head?.getD _) (.ofList (values .skip said))
    (decide (.flag .recursive ∈ said)) _ _ = _
  rw [hdir', hsuffix, hskip, h.decide_flag_mem, h.mode_of.1, h.budget_of]
  rfl

end AsksFor

/-! ## Every request can be asked for -/

/-- All that a request asks for, the directory apart. -/
def sayings (r : Request) : List Setting :=
  [.value .suffix r.suffix,
    .value .defaultTimeout (.ofNat r.budget.ordinarySeconds.toNat),
    .value .networkTimeout (.ofNat r.budget.networkSeconds.toNat)] ++
  r.skip.names.map (.value .skip) ++
  r.budget.networkFiles.names.map (.value .networkFile) ++
  (Flag.all.filter (wants r)).map .flag

theorem values_map_value (o p : ValueOption) (names : List Text) :
    values o (names.map (.value p)) = if p = o then names else [] := by
  induction names with
  | nil => simp [values]
  | cons name names ih =>
    rw [values] at ih
    rw [List.map_cons, values, List.filterMap_cons, ih]
    by_cases h : p = o <;> simp [value?, h]

theorem values_sayings (r : Request) (o : ValueOption) :
    values o (sayings r) = match o with
      | .suffix => [r.suffix]
      | .defaultTimeout => [.ofNat r.budget.ordinarySeconds.toNat]
      | .networkTimeout => [.ofNat r.budget.networkSeconds.toNat]
      | .networkFile => r.budget.networkFiles.names
      | .skip => r.skip.names := by
  have hflags : values o ((Flag.all.filter (wants r)).map .flag) = [] := by
    simp [values, value?, List.filterMap_map, Function.comp_def]
  rw [sayings, values, List.filterMap_append, List.filterMap_append, List.filterMap_append,
    ← values, ← values, ← values, ← values, values_map_value, values_map_value, hflags]
  cases o <;> simp [values, value?]

theorem directories_sayings (r : Request) : directories (sayings r) = [] := by
  refine List.filterMap_eq_nil_iff.2 fun x hx => ?_
  simp only [sayings, List.mem_append, List.mem_cons, List.mem_map] at hx
  obtain (((rfl | rfl | rfl | hx) | ⟨_, _, rfl⟩) | ⟨_, _, rfl⟩) | ⟨_, _, rfl⟩ := hx
  all_goals first | rfl | cases hx

/-- A number in decimal writes these seconds. -/
theorem writesSeconds_ofNat (n : UInt64) : WritesSeconds n (.ofNat n.toNat) :=
  ⟨[], 0, .inl rfl, rfl⟩

/-- Every request with network names can be asked for. -/
theorem asksFor_sayings {r : Request} (h : r.budget.networkFiles ≠ .empty) :
    AsksFor r (sayings r) where
  suffix := .inr ⟨_, values_sayings r .suffix, rfl⟩
  defaultTimeout := .inr ⟨_, values_sayings r .defaultTimeout, writesSeconds_ofNat _⟩
  networkTimeout := .inr ⟨_, values_sayings r .networkTimeout, writesSeconds_ofNat _⟩
  skip name := by
    rw [values_sayings]
    rfl
  networkFiles := by
    rw [values_sayings]
    refine .inr ⟨fun hnil : r.budget.networkFiles.names = [] => h ?_, fun _ => Iff.rfl⟩
    exact NameSet.ext_mem fun name => (congrArg (name ∈ ·) hnil).to_iff
  flags f := by
    have hflags : (sayings r).count (.flag f) = (Flag.all.filter (wants r)).count f := by
      rw [sayings, List.count_append,
        List.count_map_of_injective _ Setting.flag (fun _ _ => Setting.flag.inj)]
      simp [List.count_append, List.count_eq_zero]
    rw [hflags]
    cases hw : wants r f with
    | true =>
      rw [List.count_filter hw, if_pos rfl]
      cases f <;> rfl
    | false =>
      rw [if_neg Bool.false_ne_true]
      exact List.count_eq_zero.2 fun hf => by simp [hw] at hf

end Arguments

end TimeLimit
