import TimeLimit.Proofs.PathOrder
import TimeLimit.Proofs.Shape

/-!
# What a listing finds

A listing finds the files that it should, each once, in the order of their paths
(`listing_is_exact`). The rules are said without a search and in the bytes of names
(`Candidate.Qualifies`); a search obeys them (`Candidate.qualifies_iff`) because it goes down along
real directories only and compares the texts of names. Two guards are in these rules because the
listing is not exact without them (`listing_leaves_files_out`): a name that is no text ends in no
suffix, and a link is followed from where the path starts, with the links before it. The rules say
nothing of what is behind a name of a dot and bytes that are no text, which a search cannot tell
from one that is not hidden.
-/

namespace TimeLimit

/-! ## Names and their texts -/

/-- The name is the encoding of a text. -/
def Name.IsText (name : Name) : Prop :=
  ∃ t, name.bytes = Text.bytes t

theorem Name.text_eq_nil_iff_not_isText {name : Name} : name.text = [] ↔ ¬ name.IsText := by
  rw [text_eq_nil_iff, IsText, not_exists]

/-- A path leads to a file when a file stands where it leads. -/
theorem Tree.isFile_iff {t : Tree} {path : Path} : t.isFile path = true ↔
    ∃ x k, t.resolve path = .ok x ∧ t.get? x = some (.file k) := by
  unfold isFile entry
  cases t.resolve path with
  | error cause => simp [bind, Except.bind]
  | ok x =>
    cases hx : t.get? x with
    | none => simp [bind, Except.bind, hx]
    | some e => cases e <;> simp [bind, Except.bind, hx]

namespace Candidate

variable {sys : System} {t : Tree} {dir : Path} {suffix : Text} {recursive : Bool}
  {base : Location} {c : Candidate}

/-- A file is named right when its name is a text that ends in the suffix, or whatever its name is
if the suffix is empty. -/
theorem isNamed_text_iff {name : Name} : isNamed suffix name.text = true ↔
    suffix = [] ∨ ∃ t, name.bytes = Text.bytes t ∧ suffix <:+ t := by
  rw [isNamed, List.isSuffixOf_iff_suffix]
  constructor
  · intro h
    by_cases hname : name.text = []
    · rw [hname] at h
      exact .inl (List.suffix_nil.1 h)
    · rw [Name.text_eq_nil_iff_not_isText, not_not] at hname
      obtain ⟨t, ht⟩ := hname
      exact .inr ⟨t, ht, Name.text_of_bytes ht ▸ h⟩
  · rintro (rfl | ⟨t, ht, h⟩)
    · exact List.nil_suffix
    · rwa [Name.text_of_bytes ht]

/-- What is entered is told from the bytes of its name, unless they are a dot and no text. -/
theorem entersDirectory_text_iff {name : Name}
    (h : name.bytes.head? = some Path.dot → name.IsText) : entersDirectory name.text = true ↔
      name.bytes.head? ≠ some Path.dot ∧ name.bytes ≠ Path.ofText "build".toList := by
  rw [entersDirectory, Bool.and_eq_true, decide_eq_true_iff, decide_eq_true_iff]
  by_cases hname : name.IsText
  · obtain ⟨t, ht⟩ := hname
    have hdot : name.bytes.head? = some Path.dot ↔ t.head? = some '.' := by
      rw [ht]
      exact Text.head?_bytes (d := '.') (by decide) t
    have hbuild : name.bytes = Path.ofText "build".toList ↔ t = "build".toList := by
      rw [ht, Path.ofText]
      exact ⟨Text.bytes_injective, congrArg Text.bytes⟩
    rw [Name.text_of_bytes ht, ne_eq, ne_eq, ne_eq, ne_eq, hdot, hbuild]
  · rw [Name.text_eq_nil_iff_not_isText.2 hname]
    exact iff_of_true ⟨by decide, by decide⟩ ⟨mt h hname, fun hbuild => hname ⟨_, hbuild⟩⟩

/-! ## The rules -/

/-- What a listing of a directory that stands at a location is to find: a file below it whose name
is a text that ends in the suffix, or any file if the suffix is empty. It is a regular file, or a
symbolic link whose path leads to one. The directories on the way are directories and no links, the
system does not refuse to list them, their names neither start with a dot nor are `build`, and there
are some only in a recursive listing. -/
structure Qualifies (sys : System) (t : Tree) (dir : Path) (suffix : Text) (recursive : Bool)
    (base : Location) (c : Candidate) : Prop where
  named : suffix = [] ∨ ∃ text, c.name.bytes = Text.bytes text ∧ suffix <:+ text
  flat : recursive = false → c.dirs = []
  entered : ∀ d ∈ c.dirs,
    d.bytes.head? ≠ some Path.dot ∧ d.bytes ≠ Path.ofText "build".toList
  dirs : ∀ p, p <+: c.dirs → t.get? (base ++ p) = some .dir
  open_ : ∀ p, p <+: c.dirs → sys.closed (p.foldl Path.join dir) = none
  file : (∃ k, t.get? (base ++ c.names) = some (.file k)) ∨
    ∃ target x k, t.get? (base ++ c.names) = some (.link target) ∧
      t.resolve (c.path dir) = .ok x ∧ t.get? x = some (.file k)

/-- The path of a regular file below a directory leads to it, if it is not too long. -/
theorem resolve_path (hdir : t.directory dir = .ok base)
    (hdirs : ∀ p, p <+: c.dirs → t.get? (base ++ p) = some .dir) {k : Content}
    (hfile : t.get? (base ++ c.names) = some (.file k))
    (hsize : (c.path dir).length ≤ Path.sizeLimit) :
    t.resolve (c.path dir) = .ok (base ++ c.names) := by
  obtain ⟨hnul, hne, -, -⟩ := Tree.resolve_eq_ok_iff.1 (Tree.directory_eq_ok_iff.1 hdir).1
  have hwalk := walk_path hdir hdirs hfile fun target htarget => by cases htarget
  exact Tree.resolve_eq_ok_iff.2 ⟨Path.nul_not_mem_foldl_join hnul _,
    Path.foldl_join_ne_nil hne _, hsize, hwalk⟩

/-- What is listed is what the rules ask for, where no directory hides behind a name of no text. -/
theorem qualifies_iff (hdir : t.directory dir = .ok base)
    (hhidden : ∀ d ∈ c.dirs, d.bytes.head? = some Path.dot → d.IsText) :
    Listed sys t dir suffix recursive base c ↔
      Qualifies sys t dir suffix recursive base c ∧ (c.path dir).length ≤ Path.sizeLimit := by
  have hentered : (∀ d ∈ c.dirs, entersDirectory d.text = true) ↔ ∀ d ∈ c.dirs,
      d.bytes.head? ≠ some Path.dot ∧ d.bytes ≠ Path.ofText "build".toList :=
    forall_congr' fun d => forall_congr' fun hd => entersDirectory_text_iff (hhidden d hd)
  constructor
  · rintro ⟨hnamed, hflat, henters, hdirs, hopen, ⟨e, he, hne⟩, hisFile⟩
    obtain ⟨x, k, hx, hk⟩ := Tree.isFile_iff.1 hisFile
    refine ⟨⟨isNamed_text_iff.1 hnamed, hflat, hentered.1 henters, hdirs, hopen, ?_⟩,
      length_path_le hisFile⟩
    cases e with
    | file k => exact .inl ⟨k, he⟩
    | dir => exact absurd rfl hne
    | link target => exact .inr ⟨target, x, k, he, hx, hk⟩
  · rintro ⟨⟨hnamed, hflat, henters, hdirs, hopen, hfile⟩, hsize⟩
    refine ⟨isNamed_text_iff.2 hnamed, hflat, hentered.2 henters, hdirs, hopen, ?_,
      Tree.isFile_iff.2 ?_⟩
    · rcases hfile with ⟨k, hk⟩ | ⟨target, -, -, htarget, -⟩
      · exact ⟨_, hk, fun he => by cases he⟩
      · exact ⟨_, htarget, fun he => by cases he⟩
    · rcases hfile with ⟨k, hk⟩ | ⟨-, x, k, -, hx, hk⟩
      · exact ⟨_, k, resolve_path hdir hdirs hk hsize, hk⟩
      · exact ⟨x, k, hx, hk⟩

/-- A search that may go down far enough gives the listing, however far it may go. -/
theorem search_eq_listing {cs : List Candidate} {n : Nat}
    (hcs : listing sys t dir suffix recursive = .ok cs) (hn : Path.sizeLimit < n) :
    (search sys t dir suffix recursive n []).map inOrder = .ok cs := by
  obtain ⟨base, hdir, hopen, rfl⟩ := exists_of_listing hcs
  have hlist := System.list_eq_ok_iff.2 ⟨base, hdir, hopen, rfl⟩
  rw [inOrder_found_congr hdir hdir hn (Nat.lt_succ_self _) fun _ => Iff.rfl]
  obtain ⟨n, rfl⟩ : ∃ m, n = m + 1 := ⟨n - 1, by omega⟩
  rw [search_eq_found hlist]
  rfl

end Candidate

open Candidate in
/-- **Listings are exact.** A listing fails exactly when the directory itself is not listed, since
no directory is there or the system refuses, and with that cause. Otherwise a file below the
directory is in the listing exactly when it qualifies and its path is not too long for the system;
nothing is said here of files below a directory whose name starts with a dot and is no text. The
paths of the listing come one strictly before the other in the order of paths, so none comes twice.
A tree that holds the same entries in another order gives the same listing, and so does a search
that may go further down: the search ends by itself, whatever links there are. -/
theorem listing_is_exact (sys : System) (t : Tree) (dir : Path) (suffix : Text)
    (recursive : Bool) :
    (∀ cause, listing sys t dir suffix recursive = .error cause ↔
      t.directory dir = .error cause ∨
        (∃ base, t.directory dir = .ok base) ∧ sys.closed dir = some cause) ∧
    ∀ cs, listing sys t dir suffix recursive = .ok cs → ∃ base, t.directory dir = .ok base ∧
      (∀ c, (∀ d ∈ c.dirs, d.bytes.head? = some Path.dot → d.IsText) →
        (c ∈ cs ↔ c.Qualifies sys t dir suffix recursive base ∧
          (c.path dir).length ≤ Path.sizeLimit)) ∧
      (cs.map (path dir)).Pairwise Path.Before ∧ (cs.map (path dir)).Nodup ∧
      (∀ t', (∀ loc, t'.get? loc = t.get? loc) →
        listing sys t' dir suffix recursive = .ok cs) ∧
      ∀ n, Path.sizeLimit < n → (search sys t dir suffix recursive n []).map inOrder = .ok cs := by
  refine ⟨fun cause => ?_, fun cs hcs => ?_⟩
  · cases hdir : t.directory dir with
    | error cause' =>
      rw [listing_of_no_directory hdir]
      simp
    | ok base =>
      rw [listing_of_directory hdir]
      cases sys.closed dir <;> simp
  · obtain ⟨base, hdir, -, hfound⟩ := exists_of_listing hcs
    have hbefore : (cs.map (path dir)).Pairwise Path.Before :=
      pairwise_path hdir (nodup_listing hcs) (hfound ▸ pairwise_inOrder _)
    refine ⟨base, hdir, fun c hhidden => ?_, hbefore, hbefore.imp Path.Before.ne,
      fun t' hget => ?_, fun n hn => search_eq_listing hcs hn⟩
    · rw [mem_listing_iff hcs hdir, qualifies_iff hdir hhidden]
    · have hshape : t.SameShape t' := fun loc => by rw [hget]
      rw [listing_of_sameShape sys hshape, hcs]

/-- A directory with a file, a directory with another one, one that is hidden, and two links: to the
file, and to the directory itself. -/
def tangled : Tree where
  entries := [([.letter 19], .dir),
    ([.letter 19, .letter 18], .link [0x2E]),
    ([.letter 19, .letter 11], .link [0x61]),
    ([.letter 19, .letter 0], .file (.text [])),
    ([.letter 19, .letter 20], .dir),
    ([.letter 19, .letter 20, .letter 1], .file (.text [])),
    ([.letter 19, ⟨[0x2E, 0x68], by decide⟩], .dir),
    ([.letter 19, ⟨[0x2E, 0x68], by decide⟩, .letter 2], .file (.text []))]
  nodup := by decide

/-- The file behind the link and the one in the directory are listed; what could be reached through
the link to the directory is not, and neither is what is hidden. -/
theorem listing_of_tangled :
    ∃ cs, Candidate.listing System.plain tangled [0x74] [] true = .ok cs ∧
      ⟨[], .letter 11⟩ ∈ cs ∧ ⟨[.letter 20], .letter 1⟩ ∈ cs ∧ ⟨[.letter 18], .letter 0⟩ ∉ cs ∧
      ⟨[⟨[0x2E, 0x68], by decide⟩], .letter 2⟩ ∉ cs := by
  have hdir : tangled.directory [0x74] = .ok [.letter 19] := by decide
  obtain ⟨cs, hcs⟩ := Candidate.exists_listing_iff.2
    (⟨by decide, rfl⟩ : tangled.entry [0x74] = .ok .dir ∧ System.plain.closed [0x74] = none)
  obtain ⟨base, hbase, hmem, -⟩ := (listing_is_exact System.plain tangled [0x74] [] true).2 cs hcs
  rw [hdir] at hbase
  cases hbase
  have hflat {names : List Name} : true = false → names = [] := fun h => by cases h
  have hbuild {name : Name} (h : name.bytes.length ≠ 5) :
      name.bytes ≠ Path.ofText "build".toList := by
    intro hname
    rw [hname, Path.ofText, Text.length_bytes] at h
    exact h rfl
  have hlink : (⟨[], .letter 11⟩ : Candidate) ∈ cs := by
    refine (hmem _ (List.forall_mem_nil _)).2 ⟨⟨.inl rfl, hflat, List.forall_mem_nil _,
      fun p hp => ?_, fun _ _ => rfl, .inr ?_⟩, by decide⟩
    · rw [List.prefix_nil.1 hp]
      decide
    · exact ⟨[0x61], [.letter 19, .letter 0], .text [], by decide, by decide, by decide⟩
  have hdown : (⟨[.letter 20], .letter 1⟩ : Candidate) ∈ cs := by
    refine (hmem _ ?_).2 ⟨⟨.inl rfl, hflat, ?_, fun p hp => ?_, fun _ _ => rfl,
      .inl ⟨.text [], by decide⟩⟩, by decide⟩
    · rw [List.forall_mem_singleton]
      exact fun h => absurd h (by decide)
    · rw [List.forall_mem_singleton]
      exact ⟨by decide, hbuild (by decide)⟩
    · rcases List.prefix_concat_iff.1 (show p <+: [] ++ [.letter 20] from hp) with rfl | hp
      · decide
      · rw [List.prefix_nil.1 hp]
        decide
  refine ⟨cs, hcs, hlink, hdown, fun hc => ?_, fun hc => ?_⟩
  · have hhidden : ∀ d ∈ [Name.letter 18], d.bytes.head? = some Path.dot → d.IsText := by
      rw [List.forall_mem_singleton]
      exact fun h => absurd h (by decide)
    have hdirs := ((hmem _ hhidden).1 hc).1.dirs [.letter 18] (List.prefix_refl _)
    exact absurd hdirs (by decide)
  · have hhidden : ∀ d ∈ [(⟨[0x2E, 0x68], by decide⟩ : Name)],
        d.bytes.head? = some Path.dot → d.IsText := by
      rw [List.forall_mem_singleton]
      exact fun _ => ⟨".h".toList, rfl⟩
    exact absurd rfl (((hmem _ hhidden).1 hc).1.entered _ (List.mem_singleton_self _)).1

/-- A file, a link to it, a file whose name is no text, and a link to where they stand. -/
def looped : Tree where
  entries := [([.letter 0], .file (.text [])), ([.letter 11], .link [0x61]),
    ([⟨[0xE9, 0x61], by decide⟩], .file (.text [])), ([.letter 18], .link [0x2E])]
  nodup := by decide

/-- A path that leads back to where it starts through as many links as may be followed. -/
def throughLinks : Path :=
  (List.replicate (Tree.linkLimit - 1) [0x73, Path.slash]).flatten ++ [0x73]

/-- **Some files are left out of listings.** A regular file whose name ends in the bytes of the
suffix is not listed if its name is no text. A symbolic link that leads to a regular file is not
listed if the path of the directory takes as many links as may be followed. -/
theorem listing_leaves_files_out :
    (∃ cs, Candidate.listing System.plain looped [0x2E] ['a'] false = .ok cs ∧
      ⟨[], ⟨[0xE9, 0x61], by decide⟩⟩ ∉ cs ∧
      looped.get? [⟨[0xE9, 0x61], by decide⟩] = some (.file (.text []))) ∧
    ∃ cs, Candidate.listing System.plain looped throughLinks [] false = .ok cs ∧
      ⟨[], .letter 11⟩ ∉ cs ∧ looped.directory throughLinks = .ok [] ∧
      looped.resolve [0x6C] = .ok [.letter 0] ∧
      looped.get? [.letter 0] = some (.file (.text [])) := by
  have hplain : Candidate.listing System.plain looped [0x2E] ['a'] false =
      .ok [⟨[], .letter 0⟩] := Candidate.listing_of_search (by decide) (by decide)
  have hlinks : Candidate.listing System.plain looped throughLinks [] false =
      .ok [⟨[], .letter 0⟩, ⟨[], ⟨[0xE9, 0x61], by decide⟩⟩] :=
    Candidate.listing_of_search (by decide +kernel) (by decide)
  exact ⟨⟨_, hplain, by decide, by decide⟩, _, hlinks, by decide, by decide +kernel, by decide,
    by decide⟩

end TimeLimit
