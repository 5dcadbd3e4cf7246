import Mathlib.Logic.Relation
import TimeLimit.Proofs.Checked.Tail
import TimeLimit.Proofs.Place

/-!
# Checked scans

A revision as a loop over offsets: a `Cursor` says how far the source has been copied and where the
next header is looked for, each step locates the test that the header opens and, where a limit is
wanted, copies the source up to the end of the body and the new tail behind it. All slices are
checked. The invariant (`Cursor.At`) is that the source splits at the two offsets, the first of them
not behind the second, so both are on character boundaries. Every step keeps it, for a header whose
test never closes, for a test with a limit and for one without (`Checked.step_stray`,
`Checked.step_limited`, `Checked.step_wanting`). So no step panics (`Checked.step_at`), and the loop
ends with the revision of the source (`Checked.revise_eq`); what holds wherever it stands is
collected in `revise_never_panics`.
-/

namespace TimeLimit

/-- Where a scan stands, and what it has gathered. -/
structure Cursor where
  /-- Up to this offset the source has been copied. -/
  copied : Nat
  /-- From this offset on the next header is looked for. -/
  pos : Nat
  text : Text
  added : Nat
  limited : Nat
  unterminated : List Unterminated

namespace Checked

/-- Where a scan starts. -/
def start : Cursor :=
  ⟨0, 0, [], 0, 0, []⟩

/-- Tells whether the test at an extent has a time limit; its tail is looked at when its header sets
none. -/
def isLimited (source : Text) (e : Extent) : Except Panic Bool := do
  let header ← slice e.start e.brace source
  if Limit.isSetIn header then return true
  else
    let close ← sub e.stop 1
    let tail ← slice e.bodyEnd close source
    return Limit.isSetIn tail

/-- Copies the source up to the end of a test, with a limit added to its tail. -/
def splice (source : Text) (seconds : UInt64) (s : Cursor) (e : Extent) : Except Panic Cursor := do
  let kept ← slice s.copied e.bodyEnd source
  let close ← sub e.stop 1
  let tail ← slice e.bodyEnd close source
  let tail ← withLimit seconds tail
  return { s with
    copied := close, pos := e.stop, text := s.text ++ kept ++ tail, added := s.added + 1 }

/-- One step of a scan; there is none when no further header is found. -/
def step (source : Text) (seconds : UInt64) (s : Cursor) : Except Panic (Option Cursor) :=
  match Mark.find? source s.pos with
  | none => .ok none
  | some m => do
    match ← locate source m with
    | .error u =>
      return some { s with pos := m.brace + 1, unterminated := s.unterminated ++ [u] }
    | .ok e =>
      -- the line goes to the log only, but it is looked up like any other
      let _ ← lineOf source e.start
      if ← isLimited source e then
        return some { s with pos := e.stop, limited := s.limited + 1 }
      else
        let s ← splice source seconds s e
        return some s

section
variable {source : Text} {seconds : UInt64} {s s' : Cursor} {m : Mark}

theorem step_of_error (hm : Mark.find? source s.pos = some m) {u : Unterminated}
    (hl : Extent.locate source m = .error u) :
    step source seconds s =
      .ok (some { s with pos := m.brace + 1, unterminated := s.unterminated ++ [u] }) := by
  simp only [step, hm, locate_eq, ok_bind, hl]
  rfl

theorem step_of_ok (hm : Mark.find? source s.pos = some m) {e : Extent}
    (hl : Extent.locate source m = .ok e) :
    step source seconds s = isLimited source e >>= fun limited =>
      if limited then .ok (some { s with pos := e.stop, limited := s.limited + 1 })
      else splice source seconds s e >>= fun s' => .ok (some s') := by
  simp only [step, hm, locate_eq, lineOf_eq, ok_bind, hl]
  rfl

theorem pos_of_splice {e : Extent} (h : splice source seconds s e = .ok s') :
    s'.pos = e.stop := by
  simp only [splice, bind_eq_ok_iff] at h
  obtain ⟨kept, -, close, -, tail, -, tail', -, h⟩ := h
  cases h
  rfl

/-- A step goes on where the visit of its header ends. -/
theorem pos_of_step (h : step source seconds s = .ok (some s')) :
    ∃ m, Mark.find? source s.pos = some m ∧ s'.pos = (Visit.of source m).next := by
  cases hm : Mark.find? source s.pos with
  | none =>
    rw [step, hm] at h
    cases h
  | some m =>
    refine ⟨m, rfl, ?_⟩
    rw [Visit.next, Visit.of]
    cases hl : Extent.locate source m with
    | error u =>
      rw [step_of_error hm hl] at h
      cases h
      rfl
    | ok e =>
      rw [step_of_ok hm hl, bind_eq_ok_iff] at h
      obtain ⟨limited, -, h⟩ := h
      split at h
      · cases h
        rfl
      · obtain ⟨s₁, hs₁, h⟩ := bind_eq_ok_iff.1 h
        cases h
        exact pos_of_splice hs₁

/-- What is left to scan gets less with each step. -/
theorem size_sub_pos_lt (h : step source seconds s = .ok (some s')) :
    Text.size source - s'.pos < Text.size source - s.pos := by
  obtain ⟨m, hm, hpos⟩ := pos_of_step h
  rw [hpos]
  exact Visit.size_sub_next_lt hm

end

/-- Scans a source from a cursor on. -/
def run (source : Text) (seconds : UInt64) (s : Cursor) : Except Panic Revision :=
  match _h : step source seconds s with
  | .error p => .error p
  | .ok none => do
    let rest ← slice s.copied (Text.size source) source
    return ⟨s.text ++ rest, s.added, s.limited, s.unterminated⟩
  | .ok (some s') => run source seconds s'
termination_by Text.size source - s.pos
decreasing_by exact size_sub_pos_lt ‹_›

/-- Revises a source with checked offsets. -/
def revise (source : Text) (seconds : UInt64) : Except Panic Revision :=
  run source seconds start

end Checked

/-! ## The invariant -/

/-- The source splits where a cursor stands: `done` has been copied, `pending` has been scanned but
not copied, and no word goes on in the rest. -/
structure Cursor.At (source done pending rest : Text) (s : Cursor) : Prop where
  source_eq : source = done ++ pending ++ rest
  copied_eq : s.copied = Text.size done
  pos_eq : s.pos = Text.size (done ++ pending)
  free : Text.standsFree (done ++ pending).getLast? = true

/-- What has been copied has been scanned, and both are in the source. -/
theorem Cursor.At.bounds {source done pending rest : Text} {s : Cursor}
    (h : s.At source done pending rest) : s.copied ≤ s.pos ∧ s.pos ≤ Text.size source := by
  rw [h.copied_eq, h.pos_eq, h.source_eq, Text.size_append done, Text.size_append (done ++ pending),
    Text.size_append done]
  omega

/-- No word goes on behind a character that belongs to none. -/
theorem Text.standsFree_concat {c : Char} (h : standsFree (some c) = true) (t : Text) :
    standsFree (t ++ [c]).getLast? = true := by
  rwa [List.getLast?_concat]

namespace Checked

/-! ### Tests in the source -/

section
variable {source pre post : Text} {c : TestCase}

theorem sub_stop (offset : Nat) (c : TestCase) :
    sub (c.extentAt offset).stop 1 = .ok (c.extentAt offset).closeParen := by
  refine sub_of_le ?_
  have : (')').utf8Size = 1 := rfl
  simp only [TestCase.extentAt, TestCase.text, Text.size_append, Text.size_cons, Text.size_nil]
  omega

theorem slice_header (hs : source = pre ++ c.text ++ post) :
    slice (c.extentAt (Text.size pre)).start (c.extentAt (Text.size pre)).brace source =
      .ok c.header.text := by
  have := slice_append pre c.header.text (c.body ++ c.tail ++ [')'] ++ post)
  rw [Text.size_append] at this
  simpa [TestCase.extentAt, TestCase.text, hs] using this

theorem slice_tail (hs : source = pre ++ c.text ++ post) :
    slice (c.extentAt (Text.size pre)).bodyEnd (c.extentAt (Text.size pre)).closeParen source =
      .ok c.tail := by
  have := slice_append (pre ++ c.header.text ++ c.body) c.tail (')' :: post)
  rw [TestCase.closeParen_extentAt]
  simpa [TestCase.extentAt, TestCase.text, hs, Nat.add_assoc] using this

theorem isLimited_eq (hs : source = pre ++ c.text ++ post) :
    isLimited source (c.extentAt (Text.size pre)) = .ok c.isLimited := by
  rw [isLimited, slice_header hs, ok_bind, TestCase.isLimited]
  cases Limit.isSetIn c.header.text with
  | true => rfl
  | false =>
    rw [sub_stop]
    simp only [ok_bind, slice_tail hs]
    rfl

/-- A search comes to a test where no word goes on, and locates it. -/
theorem find?_test {before : Text} (hs : source = pre ++ (before ++ c.text ++ post))
    (hfree : Text.standsFree pre.getLast? = true) (hl : Opening.Leads before c.header)
    (hc : c.Closed) :
    ∃ m, Mark.find? source (Text.size pre) = some m ∧
      Extent.locate source m = .ok (c.extentAt (Text.size (pre ++ before))) := by
  obtain ⟨k, -, hof, rfl⟩ := hc.exists_closing post
  have htext := TestCase.text_ofClosing c.header k
  rw [hof] at htext
  have hs' : source = pre ++ (before ++ c.header.text ++ '{' :: k.text) := by
    rw [hs, List.append_assoc, htext, List.append_assoc]
  have hhere : source = pre ++ before ++ c.text ++ k.rest := by simp [hs]
  have hvisit := congrArg Visit.found (Option.some.inj (Piece.visit?_test hhere hc))
  rw [Place.offset_origin_past] at hvisit
  exact ⟨_, Mark.find?_of_leads hs' hfree hl, hvisit.symm⟩

end

variable {source done pending rest before : Text} {s : Cursor} (seconds : UInt64)

/-- No header is left. -/
theorem step_plain (h : s.At source done pending rest) (hnone : Opening.first? none rest = none) :
    step source seconds s = .ok none := by
  rw [step, h.pos_eq, Mark.find?_of_first?_none h.source_eq h.free hnone]

/-- A header whose test never closes is reported and passed. -/
theorem step_stray {hd : Header} {u : Unclosed}
    (h : s.At source done pending (before ++ hd.text ++ '{' :: rest))
    (hl : Opening.Leads before hd) (hc : Closing.of rest = .error u) :
    ∃ s', step source seconds s = .ok (some s') ∧
      s'.At source done (pending ++ (before ++ (hd.text ++ ['{']))) rest ∧
      s'.text = s.text ∧ s'.added = s.added ∧ s'.limited = s.limited ∧
      ∃ report, (Piece.stray hd u).unterminated? (Place.origin.past (done ++ pending ++ before)) =
        some report ∧ s'.unterminated = s.unterminated ++ [report] := by
  have hfind := Mark.find?_of_leads h.source_eq h.free hl
  have hhere : source = done ++ pending ++ before ++ hd.text ++ '{' :: rest := by
    simp [h.source_eq]
  have hlocate := congrArg Visit.found (Option.some.inj (Piece.visit?_stray hhere hc))
  rw [← h.pos_eq] at hfind
  refine ⟨_, step_of_error hfind hlocate.symm, ⟨?_, h.copied_eq, ?_, ?_⟩, rfl, rfl, rfl, _, rfl,
    rfl⟩
  · simp [h.source_eq]
  · have : ('{').utf8Size = 1 := rfl
    simp [Nat.add_assoc, this]
  · have := Text.standsFree_concat (c := '{') (by decide) (done ++ (pending ++ (before ++ hd.text)))
    simpa using this

/-- A test that has a limit is passed. -/
theorem step_limited {c : TestCase} (h : s.At source done pending (before ++ c.text ++ rest))
    (hl : Opening.Leads before c.header) (hc : c.Closed) (hlimited : c.isLimited = true) :
    ∃ s', step source seconds s = .ok (some s') ∧
      s'.At source done (pending ++ (before ++ c.text)) rest ∧
      s'.text = s.text ∧ s'.added = s.added ∧ s'.limited = s.limited + 1 ∧
      s'.unterminated = s.unterminated := by
  obtain ⟨m, hfind, hlocate⟩ := find?_test h.source_eq h.free hl hc
  have hhere : source = done ++ pending ++ before ++ c.text ++ rest := by simp [h.source_eq]
  rw [← h.pos_eq] at hfind
  refine ⟨{ s with
    pos := (c.extentAt (Text.size (done ++ pending ++ before))).stop
    limited := s.limited + 1 }, ?_, ⟨?_, h.copied_eq, ?_, ?_⟩, rfl, rfl, rfl, rfl⟩
  · rw [step_of_ok hfind hlocate, isLimited_eq hhere, hlimited]
    rfl
  · simp [h.source_eq]
  · simp [TestCase.extentAt, Nat.add_assoc]
  · have := Text.standsFree_concat (c := ')') (by decide)
      (done ++ (pending ++ (before ++ (c.header.text ++ c.body ++ c.tail))))
    simpa [TestCase.text] using this

/-- A test that wants a limit is copied up to its closing parenthesis, with the limit. -/
theorem step_wanting {c : TestCase} (h : s.At source done pending (before ++ c.text ++ rest))
    (hl : Opening.Leads before c.header) (hc : c.Closed) (hlimited : c.isLimited = false) :
    ∃ s', step source seconds s = .ok (some s') ∧
      s'.At source (done ++ (pending ++ before ++ c.header.text ++ c.body ++ c.tail)) [')'] rest ∧
      s'.text = s.text ++ (pending ++ before ++ c.header.text ++ c.body) ++
        Tail.withLimit seconds c.tail ∧
      s'.added = s.added + 1 ∧ s'.limited = s.limited ∧ s'.unterminated = s.unterminated := by
  obtain ⟨m, hfind, hlocate⟩ := find?_test h.source_eq h.free hl hc
  have hhere : source = done ++ pending ++ before ++ c.text ++ rest := by simp [h.source_eq]
  rw [← h.pos_eq] at hfind
  have hkept : slice s.copied (c.extentAt (Text.size (done ++ pending ++ before))).bodyEnd source =
      .ok (pending ++ before ++ c.header.text ++ c.body) := by
    have := slice_append done (pending ++ before ++ c.header.text ++ c.body)
      (c.tail ++ [')'] ++ rest)
    simpa [h.copied_eq, hhere, TestCase.extentAt, TestCase.text, Nat.add_assoc] using this
  have hclose : (c.extentAt (Text.size (done ++ pending ++ before))).closeParen =
      Text.size (done ++ (pending ++ before ++ c.header.text ++ c.body ++ c.tail)) := by
    rw [TestCase.closeParen_extentAt]
    simp [TestCase.extentAt, Nat.add_assoc]
  refine ⟨{ s with
    copied := (c.extentAt (Text.size (done ++ pending ++ before))).closeParen
    pos := (c.extentAt (Text.size (done ++ pending ++ before))).stop
    text := s.text ++ (pending ++ before ++ c.header.text ++ c.body) ++
      Tail.withLimit seconds c.tail
    added := s.added + 1 }, ?_, ⟨?_, hclose, ?_, ?_⟩, rfl, rfl, rfl, rfl⟩
  · rw [step_of_ok hfind hlocate, isLimited_eq hhere, hlimited, splice, hkept, sub_stop]
    simp only [ok_bind, slice_tail hhere, withLimit_eq]
    rfl
  · simp [hhere, TestCase.text]
  · simp [TestCase.extentAt, TestCase.text, Nat.add_assoc]
  · exact Text.standsFree_concat (by decide) _

/-! ## Runs -/

theorem run_of_none (hstep : step source seconds s = .ok none) :
    run source seconds s =
      (slice s.copied (Text.size source) source).map fun rest =>
        ⟨s.text ++ rest, s.added, s.limited, s.unterminated⟩ := by
  rw [run]
  split
  · next hs =>
    rw [hstep] at hs
    cases hs
  · cases slice s.copied (Text.size source) source <;> rfl
  · next hs =>
    rw [hstep] at hs
    cases hs

theorem run_of_some {s' : Cursor} (hstep : step source seconds s = .ok (some s')) :
    run source seconds s = run source seconds s' := by
  rw [run]
  split
  · next hs =>
    rw [hstep] at hs
    cases hs
  · next hs =>
    rw [hstep] at hs
    cases hs
  · next hs =>
    rw [hstep] at hs
    cases hs
    rfl

/-- From where a cursor stands, a scan gathers what the pieces of the rest give. -/
theorem run_eq {pieces : List Piece} (ho : Outlined rest pieces)
    (h : s.At source done pending rest) :
    run source seconds s = .ok
      { text := s.text ++ pending ++ pieces.flatMap fun p => (p.withLimit seconds).text
        added := s.added + pieces.countP Piece.wantsLimit
        limited := s.limited + pieces.countP Piece.isLimited
        unterminated := s.unterminated ++
          collect Piece.unterminated? (Place.origin.past (done ++ pending)) pieces } := by
  induction ho generalizing s done pending with
  | @plain t hnone =>
    have hslice := slice_to_end done (pending ++ t)
    rw [← List.append_assoc, ← h.source_eq, ← h.copied_eq] at hslice
    rw [run_of_none seconds (step_plain seconds h hnone), hslice, collect_cons_none rfl]
    simp [Except.map, Piece.withLimit, Piece.text, Piece.wantsLimit, Piece.isLimited]
  | @stray before hd rest u pieces hl hc ho ih =>
    obtain ⟨s', hstep, h', htext, hadded, hlimited, report, hreport, hun⟩ :=
      step_stray seconds h hl hc
    rw [run_of_some seconds hstep, ih h', htext, hadded, hlimited, hun, collect_cons_none rfl,
      Piece.text, Place.past_past, collect_cons_some hreport, Piece.text, Place.past_past]
    simp [Piece.withLimit, Piece.text, Piece.wantsLimit, Piece.isLimited]
  | @test before c rest pieces hl hc ho ih =>
    rw [collect_cons_none rfl, collect_cons_none rfl, Piece.text, Piece.text, Place.past_past,
      Place.past_past]
    cases hlim : c.isLimited with
    | true =>
      obtain ⟨s', hstep, h', htext, hadded, hlimited, hun⟩ := step_limited seconds h hl hc hlim
      rw [run_of_some seconds hstep, ih h', htext, hadded, hlimited, hun]
      simp [Piece.withLimit, Piece.text, Piece.wantsLimit, Piece.isLimited, hlim, Nat.add_assoc,
        Nat.add_comm 1]
    | false =>
      obtain ⟨s', hstep, h', htext, hadded, hlimited, hun⟩ := step_wanting seconds h hl hc hlim
      rw [run_of_some seconds hstep, ih h', htext, hadded, hlimited, hun]
      simp [Piece.withLimit, Piece.text, TestCase.text, Piece.wantsLimit, Piece.isLimited, hlim,
        Nat.add_assoc, Nat.add_comm 1]

theorem at_start (source : Text) : start.At source [] [] source :=
  ⟨rfl, rfl, rfl, rfl⟩

/-- A scan gives the revision of its source. -/
theorem revise_eq (source : Text) : revise source seconds = .ok (Revision.of source seconds) := by
  rw [revise, run_eq seconds (outlined_outline source) (at_start source)]
  simp [start, Revision.of, collect]

/-! ## Reached cursors -/

/-- Where a cursor stands at a split of the source, no step panics: there is none, or it comes to a
cursor that stands at a split again. -/
theorem step_at (h : s.At source done pending rest) :
    step source seconds s = .ok none ∨
      ∃ s', step source seconds s = .ok (some s') ∧
        ∃ done pending rest, s'.At source done pending rest := by
  obtain ⟨pieces, ho⟩ : ∃ pieces, Outlined rest pieces := ⟨_, outlined_outline rest⟩
  cases ho with
  | plain hnone => exact .inl (step_plain seconds h hnone)
  | stray hl hc =>
    obtain ⟨s', hstep, h', -⟩ := step_stray seconds h hl hc
    exact .inr ⟨s', hstep, _, _, _, h'⟩
  | @test before c rest pieces hl hc =>
    cases hlim : c.isLimited with
    | true =>
      obtain ⟨s', hstep, h', -⟩ := step_limited seconds h hl hc hlim
      exact .inr ⟨s', hstep, _, _, _, h'⟩
    | false =>
      obtain ⟨s', hstep, h', -⟩ := step_wanting seconds h hl hc hlim
      exact .inr ⟨s', hstep, _, _, _, h'⟩

/-- A cursor that a scan comes to from another one. -/
def Reaches (source : Text) (seconds : UInt64) : Cursor → Cursor → Prop :=
  Relation.ReflTransGen fun s s' => step source seconds s = .ok (some s')

/-- The next header that is found from a cursor on opens a test that closes, at an extent. -/
def Locates (source : Text) (s : Cursor) (e : Extent) : Prop :=
  ∃ m, Mark.find? source s.pos = some m ∧ locate source m = .ok (.ok e)

section
variable {source : Text} {seconds : UInt64} {s s' : Cursor} {e : Extent}

/-- Every cursor of a scan stands at a split of the source. -/
theorem at_of_reaches (h : Reaches source seconds start s) :
    ∃ done pending rest, s.At source done pending rest := by
  induction h with
  | refl => exact ⟨_, _, _, at_start source⟩
  | tail _ hstep ih =>
    obtain ⟨done, pending, rest, h⟩ := ih
    rcases step_at seconds h with hnone | ⟨s', hsome, h'⟩
    · rw [hnone] at hstep
      cases hstep
    · rw [hsome] at hstep
      cases hstep
      exact h'

/-- A step moves on. -/
theorem pos_lt_of_step (h : step source seconds s = .ok (some s')) : s.pos < s'.pos := by
  obtain ⟨m, hm, hpos⟩ := pos_of_step h
  have := Mark.le_start_of_find? hm
  have := (Mark.fits_of_find? hm).start_lt_brace
  have := Visit.brace_lt_next source m
  omega

theorem pos_le_of_reaches (h : Reaches source seconds s s') : s.pos ≤ s'.pos := by
  induction h with
  | refl => exact Nat.le_refl _
  | tail _ hstep ih => exact Nat.le_trans ih (Nat.le_of_lt (pos_lt_of_step hstep))

/-- A located test stands behind the cursor, its parts behind each other, and all in the source. -/
theorem Locates.bounds (h : Locates source s e) :
    s.pos ≤ e.start ∧ e.start < e.brace ∧ e.brace < e.bodyEnd ∧ e.bodyEnd < e.stop ∧
      e.stop ≤ Text.size source := by
  obtain ⟨m, hm, hl⟩ := h
  rw [locate_eq, Except.ok.injEq] at hl
  obtain ⟨hstart, hbrace, hbody, hstop⟩ := Extent.bounds_of_locate hl
  have hle := Mark.le_start_of_find? hm
  have hlt := (Mark.fits_of_find? hm).start_lt_brace
  rw [← hstart] at hle hlt
  rw [← hbrace] at hlt
  exact ⟨hle, hlt, hbody, hstop, Extent.stop_le_size_of_locate hl⟩

/-- Where a test is located, the next step goes on behind it. -/
theorem Locates.pos_of_step (h : Locates source s e)
    (hstep : step source seconds s = .ok (some s')) : s'.pos = e.stop := by
  obtain ⟨m, hm, hl⟩ := h
  rw [locate_eq, Except.ok.injEq] at hl
  obtain ⟨m', hm', hpos⟩ := Checked.pos_of_step hstep
  rw [hm] at hm'
  cases hm'
  rw [hpos, Visit.next, Visit.of, hl]

end

end Checked

/-- A scan with checked offsets ends without a panic, with the revision of the source. Wherever it
stands, it has not copied further than it has come, and it has not left the source; its next step
moves on; and a test that it locates there has its parts in order, inside the source, and ends
before every test starts that is located after it. -/
theorem revise_never_panics (source : Text) (seconds : UInt64) :
    Checked.revise source seconds = .ok (Revision.of source seconds) ∧
    ∀ s, Checked.Reaches source seconds Checked.start s →
      s.copied ≤ s.pos ∧ s.pos ≤ Text.size source ∧
      (∃ next, Checked.step source seconds s = .ok next) ∧
      (∀ s', Checked.step source seconds s = .ok (some s') → s.pos < s'.pos) ∧
      ∀ e, Checked.Locates source s e →
        (s.pos ≤ e.start ∧ e.start < e.brace ∧ e.brace < e.bodyEnd ∧ e.bodyEnd < e.stop ∧
          e.stop ≤ Text.size source) ∧
        ∀ s' t e', Checked.step source seconds s = .ok (some s') →
          Checked.Reaches source seconds s' t → Checked.Locates source t e' →
          e.stop ≤ e'.start := by
  refine ⟨Checked.revise_eq seconds source, fun s hs => ?_⟩
  obtain ⟨done, pending, rest, h⟩ := Checked.at_of_reaches hs
  have hnext : ∃ next, Checked.step source seconds s = .ok next := by
    rcases Checked.step_at seconds h with hnone | ⟨s', hsome, -⟩
    · exact ⟨none, hnone⟩
    · exact ⟨some s', hsome⟩
  refine ⟨h.bounds.1, h.bounds.2, hnext, fun s' => Checked.pos_lt_of_step,
    fun e he => ⟨he.bounds, fun s' t e' hstep ht he' => ?_⟩⟩
  calc e.stop = s'.pos := (he.pos_of_step hstep).symm
    _ ≤ t.pos := Checked.pos_le_of_reaches ht
    _ ≤ e'.start := he'.bounds.1

end TimeLimit
