import Mathlib.Data.List.Forall2
import Mathlib.Data.List.TakeWhile
import TimeLimit.Arguments.Reader
import TimeLimit.Proofs.Settings

/-!
# Arguments in any order

A thing that is said is written as a row of one or two arguments (`Written`). Reading a row leaves
the reader, once it looks at what is pending, with the settings that take this thing
(`Reader.foldlM_row`), and so rows one behind the other are read as what they say
(`Reader.foldlM_rows`). Since the order of what is said does not count, every request is read off
the rows that ask for it, in any order (`read_in_any_order`).
-/

namespace TimeLimit

namespace Arguments

/-- The text can stand for itself, as the value behind an option or as the directory: it is not
empty and does not start with a dash. -/
def StandsAlone (t : Text) : Prop :=
  t ≠ [] ∧ t.head? ≠ some '-'

/-- The ways to write what is said. -/
inductive Written : Setting → List Text → Prop where
  /-- An option with any value behind an equals sign. -/
  | joined (o : ValueOption) (v : Text) :
      Written (.value o v) ["--".toList ++ o.name ++ '=' :: v]
  /-- An option, and its value as an argument of its own. -/
  | apart (o : ValueOption) {v : Text} (hv : StandsAlone v) :
      Written (.value o v) ["--".toList ++ o.name, v]
  /-- A flag by its name. -/
  | long (f : Flag) : Written (.flag f) ["--".toList ++ f.name]
  /-- A flag by its letter. -/
  | short {c : Char} {f : Flag} (hf : Flag.ofLetter? c = some f) : Written (.flag f) [['-', c]]
  /-- The directory. -/
  | directory {dir : Text} (hdir : StandsAlone dir) : Written (.directory dir) [dir]

/-! ## Names -/

theorem ValueOption.ofName?_name (o : ValueOption) : ofName? o.name = some o := by
  cases o <;> decide

theorem Flag.ofName?_name (f : Flag) : ofName? f.name = some f := by
  cases f <;> decide

theorem ValueOption.ofName?_flag (f : Flag) : ofName? f.name = none := by
  cases f <;> decide

/-- A name holds no equals sign. -/
theorem ValueOption.not_mem_name (o : ValueOption) : '=' ∉ o.name := by
  cases o <;> decide

theorem Flag.not_mem_name (f : Flag) : '=' ∉ f.name := by
  cases f <;> decide

theorem ValueOption.name_ne_nil (o : ValueOption) : o.name ≠ [] := by
  cases o <;> decide

theorem Flag.name_ne_nil (f : Flag) : f.name ≠ [] := by
  cases f <;> decide

namespace Reader

theorem bne_of_mem_name {name : Text} (h : '=' ∉ name) : ∀ c ∈ name, (c != '=') = true :=
  fun _ hc => bne_iff_ne.2 (ne_of_mem_of_not_mem hc h)

/-- A name ends at the first equals sign, and its value may hold others. -/
theorem splitValue_joined {name : Text} (h : '=' ∉ name) (v : Text) :
    splitValue (name ++ '=' :: v) = (name, some v) := by
  have hname := bne_of_mem_name h
  rw [splitValue, List.takeWhile_append_of_pos hname, List.dropWhile_append_of_pos hname]
  simp

theorem splitValue_name {name : Text} (h : '=' ∉ name) : splitValue name = (name, none) := by
  have hname := bne_of_mem_name h
  rw [splitValue, List.takeWhile_eq_self_iff.2 hname, List.dropWhile_eq_nil_iff.2 hname]
  rfl

/-! ## Single arguments -/

variable {r : Reader} {s s' : Settings}

/-- A name behind two dashes is read with its value, if there is one. -/
theorem step_long (honly : r.directoriesOnly = false) {t : Text} (ht : t ≠ []) :
    r.step ("--".toList ++ t) = r.long (splitValue t).1 (splitValue t).2 := by
  obtain ⟨c, t, rfl⟩ := List.exists_cons_of_ne_nil ht
  show r.step ('-' :: '-' :: c :: t) = _
  simp [step, honly]

/-- A letter behind a dash is read as a flag. -/
theorem step_letter (honly : r.directoriesOnly = false) {c : Char} (hc : c ≠ '-') :
    r.step ['-', c] = r.letters [c] := by
  simp [step, honly, hc]

/-- What starts with no dash is read as it is. -/
theorem step_plain (honly : r.directoriesOnly = false) {t : Text} (ht : StandsAlone t) :
    r.step t = r.plain t := by
  obtain ⟨hne, hdash⟩ := ht
  obtain ⟨c, t, rfl⟩ := List.exists_cons_of_ne_nil hne
  have hc : c ≠ '-' := by simpa using hdash
  simp [step, honly, hc]

/-- Behind two dashes everything is a directory. -/
theorem step_behind (honly : r.directoriesOnly = true) (t : Text) : r.step t = r.directory t := by
  simp [step, honly]

/-! ## What is pending -/

/-- Once the reader looks at what is pending it has these settings; options may follow. -/
structure Settled (r : Reader) (s : Settings) : Prop where
  settle : r.settle = .ok s
  options : r.directoriesOnly = false

/-- Taking the value of an option leaves the directory as it is. -/
theorem dir_of_take {o : ValueOption} {v : Text} (h : s.take o v = .ok s') : s'.dir = s.dir := by
  have hmap {α : Type} (f : α → Settings) (hf : ∀ a, (f a).dir = s.dir) {x : Except Stop α}
      (hx : x.map f = .ok s') : s'.dir = s.dir := by
    cases x with
    | error e => cases hx
    | ok a =>
      cases hx
      exact hf a
  cases o with
  | suffix => exact hmap (fun x => { s with suffix := x }) (fun _ => rfl) h
  | defaultTimeout => exact hmap (fun x => { s with defaultTimeout := x }) (fun _ => rfl) h
  | networkTimeout => exact hmap (fun x => { s with networkTimeout := x }) (fun _ => rfl) h
  | networkFile | skip =>
    cases h
    rfl

/-- A directory is taken where there was none. -/
theorem dir_of_takeDir {dir : Text} (h : s.takeDir dir = .ok s') :
    s.dir = none ∧ s'.dir = some dir := by
  rw [Settings.takeDir] at h
  split at h
  · cases h
  · cases hd : s.dir with
    | none =>
      rw [hd] at h
      cases h
      exact ⟨rfl, rfl⟩
    | some d =>
      rw [hd] at h
      cases h

/-- A directory was read when the settings have one. -/
theorem hasDirectory_eq (h : r.settle = .ok s) : r.hasDirectory = s.dir.isSome := by
  rw [settle] at h
  rw [hasDirectory]
  cases hp : r.pending with
  | none =>
    rw [hp] at h
    cases h
    exact Bool.or_false _
  | some p =>
    rw [hp] at h
    cases p with
    | awaiting o => cases h
    | holding o v => rw [dir_of_take h, Bool.or_false]
    | directory dir => rw [(dir_of_takeDir h).2, Bool.or_true, Option.isSome_some]

theorem follow_eq (h : r.settle = .ok s) (p : Pending) :
    r.follow p = .ok { r with settings := s, pending := some p } := by
  rw [follow, h]
  rfl

/-- A directory is put in place of what is pending where the settings can take it. -/
theorem directory_eq {dir : Text} (h : r.settle = .ok s) (hs : s.takeDir dir = .ok s') :
    r.directory dir = .ok { r with settings := s, pending := some (.directory dir) } := by
  rw [directory, hasDirectory_eq h, (dir_of_takeDir hs).1, Option.isSome_none,
    if_neg Bool.false_ne_true, follow_eq h]

theorem flag_eq {f : Flag} (h : r.settle = .ok s) (hs : s.raise f = .ok s') :
    r.flag f = .ok { r with settings := s', pending := none } := by
  rw [flag, h, ok_bind, hs]
  rfl

theorem long_value {o : ValueOption} {v : Text} (h : r.settle = .ok s) (hs : s.take o v = .ok s') :
    r.long o.name (some v) = .ok { r with settings := s', pending := none } := by
  simp only [long, o.ofName?_name, h, ok_bind, hs]
  rfl

theorem long_option (o : ValueOption) : r.long o.name none = r.follow (.awaiting o) := by
  simp only [long, o.ofName?_name]

theorem long_flag (f : Flag) : r.long f.name none = r.flag f := by
  simp only [long, ValueOption.ofName?_flag, f.ofName?_name]

/-- What stands alone is the directory where no option waits for its value. -/
theorem plain_eq {dir : Text} (h : r.settle = .ok s) : r.plain dir = r.directory dir := by
  rw [plain]
  split
  · next o hp =>
    rw [settle, hp] at h
    cases h
  · rfl

/-! ## Rows -/

/-- A row is read as the thing it says: once the reader looks at what is pending, it has taken
it. -/
theorem foldlM_row {x : Setting} {row : List Text} (hr : r.Settled s) (hs : s.accept x = .ok s')
    (hrow : Written x row) : ∃ r' : Reader, row.foldlM step r = .ok r' ∧ r'.Settled s' := by
  obtain ⟨hsettle, honly⟩ := hr
  cases hrow with
  | joined o v =>
    refine ⟨{ r with settings := s', pending := none }, ?_, rfl, honly⟩
    rw [List.foldlM_cons, List.append_assoc, step_long honly (by simp),
      splitValue_joined o.not_mem_name, long_value hsettle hs]
    rfl
  | @apart o v hv =>
    -- the value is only taken when what is pending is looked at
    let waiting : Reader := { r with settings := s, pending := some (.awaiting o) }
    have hoption : r.step ("--".toList ++ o.name) = .ok waiting := by
      rw [step_long honly o.name_ne_nil, splitValue_name o.not_mem_name, long_option,
        follow_eq hsettle]
    have hvalue : waiting.step v = waiting.plain v := step_plain (r := waiting) honly hv
    refine ⟨{ waiting with pending := some (.holding o v) }, ?_, hs, honly⟩
    rw [List.foldlM_cons, hoption, ok_bind, List.foldlM_cons, hvalue]
    rfl
  | long f =>
    refine ⟨{ r with settings := s', pending := none }, ?_, rfl, honly⟩
    rw [List.foldlM_cons, step_long honly f.name_ne_nil, splitValue_name f.not_mem_name,
      long_flag, flag_eq hsettle hs]
    rfl
  | @short c f hf =>
    have hc : c ≠ '-' := by
      rintro rfl
      cases hf
    refine ⟨{ r with settings := s', pending := none }, ?_, rfl, honly⟩
    rw [List.foldlM_cons, step_letter honly hc, letters, hf]
    show ((r.flag f).bind fun r => r.letters []) >>= _ = _
    rw [flag_eq hsettle hs]
    rfl
  | @directory dir hdir =>
    refine ⟨{ r with settings := s, pending := some (.directory dir) }, ?_, hs, honly⟩
    rw [List.foldlM_cons, step_plain honly hdir, plain_eq hsettle, directory_eq hsettle hs]
    rfl

/-- Rows one behind the other are read as what they say. -/
theorem foldlM_rows {said : List Setting} {rows : List (List Text)} (hr : r.Settled s)
    (hs : said.foldlM Settings.accept s = .ok s') (hrows : List.Forall₂ Written said rows) :
    ∃ r' : Reader, rows.flatten.foldlM step r = .ok r' ∧ r'.Settled s' := by
  induction hrows generalizing r s with
  | nil =>
    cases hs
    exact ⟨r, rfl, hr⟩
  | @cons x row said rows hrow _ ih =>
    rw [List.foldlM_cons] at hs
    obtain ⟨s₁, hx, hs⟩ := bind_eq_ok_iff.1 hs
    obtain ⟨r₁, hread, hr₁⟩ := foldlM_row hr hx hrow
    obtain ⟨r', hreads, hr'⟩ := ih hr₁ hs
    refine ⟨r', ?_, hr'⟩
    rw [List.flatten_cons, List.foldlM_append, hread, ok_bind, hreads]

/-- Behind two dashes the directory is read whatever it starts with. -/
theorem foldlM_directory_last {dir : Text} (hr : r.Settled s) (hs : s.takeDir dir = .ok s') :
    ∃ r' : Reader, ["--".toList, dir].foldlM step r = .ok r' ∧ r'.settle = .ok s' := by
  let behind : Reader := { r with directoriesOnly := true }
  have hdash : r.step "--".toList = .ok behind := by simp [step, hr.options, behind]
  have hlast : behind.step dir =
      .ok { behind with settings := s, pending := some (.directory dir) } := by
    rw [step_behind rfl, directory_eq (r := behind) hr.settle hs]
  refine ⟨{ behind with settings := s, pending := some (.directory dir) }, ?_, hs⟩
  rw [List.foldlM_cons, hdash, ok_bind, List.foldlM_cons, hlast]
  rfl

end Reader

/-! ## Requests -/

section
variable {r : Request} {dir : Text} {said : List Setting} {rows : List (List Text)}

/-- A reader that has taken all that asks for a request makes this request. -/
theorem AsksFor.finish {reader : Reader} (h : AsksFor r said) (hdir : r.dir = Path.ofText dir)
    (hdirs : Setting.directories said = [dir])
    (hsettle : reader.settle = .ok (Settings.of said)) : reader.finish = .ok r := by
  obtain ⟨-, hmode⟩ := h.mode_of
  rw [Reader.finish, hsettle, ← h.request_of hdir hdirs]
  exact if_neg hmode

/-- What asks for a request is read as this request, the directory among the rows. -/
theorem read_rows (hne : dir ≠ []) (hdir : r.dir = Path.ofText dir) (h : AsksFor r said)
    (hdirs : Setting.directories said = [dir]) (hrows : List.Forall₂ Written said rows) :
    read rows.flatten = .ok r := by
  obtain ⟨reader, hread, hsettled⟩ := Reader.foldlM_rows (r := {}) ⟨rfl, rfl⟩
    (Settings.foldlM_accept (h.admissible hne hdirs)) hrows
  rw [read, hread, ok_bind, h.finish hdir hdirs hsettled.settle]

/-- What asks for a request is read as this request, the directory last behind two dashes. -/
theorem read_rows_directory (hne : dir ≠ []) (hdir : r.dir = Path.ofText dir) (h : AsksFor r said)
    (hdirs : Setting.directories said = []) (hrows : List.Forall₂ Written said rows) :
    read (rows.flatten ++ ["--".toList, dir]) = .ok r := by
  have hdirs' : Setting.directories (said ++ [.directory dir]) = [dir] := by simp [hdirs]
  have hadmissible := h.concat_directory.admissible hne hdirs'
  obtain ⟨reader, hread, hsettled⟩ := Reader.foldlM_rows (r := {}) ⟨rfl, rfl⟩
    (Settings.foldlM_accept hadmissible.of_append) hrows
  obtain ⟨reader', hread', hsettle'⟩ :=
    Reader.foldlM_directory_last hsettled (Settings.accept_of hadmissible)
  rw [read, List.foldlM_append, hread, ok_bind, hread', ok_bind,
    h.concat_directory.finish hdir hdirs' hsettle']

end

/-- Rows in another order say the same in another order. -/
theorem exists_perm_of_perm {said : List Setting} {rows rows' : List (List Text)}
    (hrows : List.Forall₂ Written said rows) (hp : rows'.Perm rows) :
    ∃ said', List.Forall₂ Written said' rows' ∧ said'.Perm said := by
  obtain ⟨said', hrows', hp'⟩ := List.perm_comp_forall₂ hp hrows.flip
  exact ⟨said', hrows'.flip, hp'⟩

/-- A way to write one thing; the directory aside, there is always this one. -/
def Setting.row : Setting → List Text
  | value o v => ["--".toList ++ o.name ++ '=' :: v]
  | flag f => ["--".toList ++ f.name]
  | directory dir => [dir]

/-- Where no directory is said, all that is said can be written. -/
theorem forall₂_row {said : List Setting} (h : Setting.directories said = []) :
    List.Forall₂ Written said (said.map Setting.row) := by
  refine List.forall₂_map_right_iff.2 (List.forall₂_same.2 fun x hx => ?_)
  cases x with
  | value o v => exact .joined o v
  | flag f => exact .long f
  | directory dir => cases List.filterMap_eq_nil_iff.1 h _ hx

/-- Every request with a directory and with network names can be written as rows of arguments that
ask for it, and however such rows are written and whatever their order, they are read as this very
request. The directory is given as a text; it stands anywhere among the rows, or last behind two
dashes. -/
theorem read_in_any_order (r : Request) {dir : Text} (hne : dir ≠ [])
    (hdir : r.dir = Path.ofText dir) :
    (r.budget.networkFiles ≠ .empty → ∃ said rows,
      AsksFor r said ∧ Setting.directories said = [] ∧ List.Forall₂ Written said rows) ∧
    ∀ (said : List Setting) (rows rows' : List (List Text)), AsksFor r said →
      List.Forall₂ Written said rows → rows'.Perm rows →
      (Setting.directories said = [dir] → read rows'.flatten = .ok r) ∧
      (Setting.directories said = [] → read (rows'.flatten ++ ["--".toList, dir]) = .ok r) := by
  refine ⟨fun hfiles => ?_, fun said rows rows' hasks hrows hp => ?_⟩
  · exact ⟨sayings r, _, asksFor_sayings hfiles, directories_sayings r,
      forall₂_row (directories_sayings r)⟩
  · obtain ⟨said', hrows', hp'⟩ := exists_perm_of_perm hrows hp
    have hasks' := hasks.perm hp'.symm
    have hdirs : (Setting.directories said').Perm (Setting.directories said) := hp'.filterMap _
    constructor
    · intro hone
      rw [hone] at hdirs
      exact read_rows hne hdir hasks' (List.perm_singleton.1 hdirs) hrows'
    · intro hnone
      rw [hnone] at hdirs
      exact read_rows_directory hne hdir hasks' (List.perm_nil.1 hdirs) hrows'

/-- A request with odd names and the longest timeout. -/
def oddRequest (dir : Text) : Request where
  dir := Path.ofText dir
  suffix := "=-a".toList
  skip := .ofList ["b c".toList, []]
  recursive := true
  mode := .check
  budget := { networkSeconds := 18446744073709551615 }

/-- The empty name may be given twice, and seconds with a sign and a zero in front. -/
theorem read_oddRequest :
    ("t=".toList ≠ [] ∧ (oddRequest "t=".toList).dir = Path.ofText "t=".toList) ∧
    ("-t".toList ≠ [] ∧ (oddRequest "-t".toList).dir = Path.ofText "-t".toList) ∧
    read ["--check".toList, "--network-timeout".toList, "+018446744073709551615".toList,
      "--skip=".toList, "t=".toList, "--skip".toList, "b c".toList, "--skip=".toList,
      "--suffix==-a".toList, "-r".toList] = .ok (oddRequest "t=".toList) ∧
    read ["--check".toList, "--network-timeout".toList, "+018446744073709551615".toList,
      "--skip=".toList, "--skip".toList, "b c".toList, "--skip=".toList,
      "--suffix==-a".toList, "-r".toList, "--".toList, "-t".toList] =
        .ok (oddRequest "-t".toList) := by
  let said : List Setting := [.flag .check,
    .value .networkTimeout "+018446744073709551615".toList, .value .skip [],
    .value .skip "b c".toList, .value .skip [], .value .suffix "=-a".toList, .flag .recursive]
  let rows : List (List Text) := [["--check".toList],
    ["--network-timeout".toList, "+018446744073709551615".toList], ["--skip=".toList],
    ["--skip".toList, "b c".toList], ["--skip=".toList], ["--suffix==-a".toList], ["-r".toList]]
  have hrows : List.Forall₂ Written said rows :=
    .cons (.long .check) (.cons (.apart .networkTimeout ⟨by decide, by decide⟩)
      (.cons (.joined .skip _) (.cons (.apart .skip ⟨by decide, by decide⟩)
        (.cons (.joined .skip _) (.cons (.joined .suffix _) (.cons (.short rfl) .nil))))))
  have hasks (dir : Text) : AsksFor (oddRequest dir) said := {
    suffix := .inr ⟨_, rfl, rfl⟩
    defaultTimeout := .inl ⟨rfl, rfl⟩
    networkTimeout := .inr ⟨_, rfl, ['+'], 1, .inr rfl, by
      show _ = ['+'] ++ (List.replicate 1 '0' ++ Text.ofNat (18446744073709551615 : UInt64).toNat)
      decide⟩
    skip := fun name => by
      show name ∈ ([[], "b c".toList, []] : List Text) ↔ name ∈ NameSet.ofList _
      rw [NameSet.mem_ofList]
      simp [or_comm]
    networkFiles := .inl ⟨rfl, rfl⟩
    flags := fun f => by cases f <;> rfl }
  refine ⟨⟨by decide, rfl⟩, ⟨by decide, rfl⟩, ?_, ?_⟩
  · have hp : (rows.insertIdx 3 ["t=".toList]).Perm (["t=".toList] :: rows) := by decide
    exact ((read_in_any_order (oddRequest "t=".toList) (by decide) rfl).2
      (.directory "t=".toList :: said) _ _
      ((hasks _).concat_directory.perm (List.perm_append_singleton _ _))
      (.cons (.directory ⟨by decide, by decide⟩) hrows) hp).1 rfl
  · exact ((read_in_any_order (oddRequest "-t".toList) (by decide) rfl).2
      said _ _ (hasks _) hrows (.refl _)).2 rfl

end Arguments

end TimeLimit
