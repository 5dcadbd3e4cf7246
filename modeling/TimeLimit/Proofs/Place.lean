import TimeLimit.Proofs.Outline
import TimeLimit.Proofs.Visit

/-!
# Visits and pieces

The scan by offsets and the outline of a source tell the same: the visits are the pieces that start
with a header, in order, each at the place where its piece stands (`visits_eq_collect`). So what a
revision reports of a source can be read off the visits: how many tests it gives a limit
(`Revision.added_eq`), how many have one (`Revision.limited_eq`), and which headers belong to no
test (`Revision.unterminated_eq`).
-/

namespace TimeLimit

/-! ## Places of pieces -/

namespace Place

@[simp] theorem past_nil (p : Place) : p.past [] = p :=
  rfl

@[simp] theorem past_past (p : Place) (s t : Text) : (p.past s).past t = p.past (s ++ t) := by
  simp [past, Nat.add_assoc]

@[simp] theorem offset_origin_past (s : Text) : (origin.past s).offset = Text.size s :=
  Nat.zero_add _

@[simp] theorem line_origin_past (s : Text) : (origin.past s).line = 1 + Text.lineEnds s :=
  rfl

/-- The place that so many more bytes and lines stand before. -/
def moved (bytes lines : Nat) (p : Place) : Place :=
  ⟨p.offset + bytes, p.line + lines⟩

theorem past_moved (bytes lines : Nat) (p : Place) (t : Text) :
    (p.moved bytes lines).past t = (p.past t).moved bytes lines := by
  simp only [past, moved, mk.injEq]
  omega

theorem moved_moved (a b c d : Nat) (p : Place) :
    (p.moved a b).moved c d = p.moved (a + c) (b + d) := by
  simp only [moved, Nat.add_assoc]

/-- Behind a text, places are moved by its bytes and its lines. -/
theorem origin_past_eq_moved (s : Text) :
    origin.past s = origin.moved (Text.size s) (Text.lineEnds s) :=
  rfl

end Place

/-- The report on a header that so many more bytes and lines stand before. -/
def Unterminated.moved (bytes lines : Nat) (u : Unterminated) : Unterminated :=
  { u with start := u.start + bytes, line := u.line + lines }

/-- The report on a moved piece is the moved report. -/
theorem Piece.unterminated?_moved (bytes lines : Nat) (p : Place) (x : Piece) :
    x.unterminated? (p.moved bytes lines) =
      (x.unterminated? p).map (Unterminated.moved bytes lines) := by
  cases x <;> rfl

/-- A placed piece stands behind those before it. -/
theorem exists_of_mem_placed {p q : Place} {xs : List Piece} {x : Piece}
    (h : (q, x) ∈ placed p xs) :
    ∃ ys zs, xs = ys ++ x :: zs ∧ q = p.past (ys.flatMap Piece.text) := by
  induction xs generalizing p with
  | nil => cases h
  | cons y xs ih =>
    cases h with
    | head => exact ⟨[], xs, rfl, rfl⟩
    | tail _ h =>
      obtain ⟨ys, zs, rfl, rfl⟩ := ih h
      exact ⟨y :: ys, zs, rfl, by simp⟩

/-- What a function reads off pieces that stand behind each other from a place on. -/
def collect {α : Type} (f : Place → Piece → Option α) (p : Place) (pieces : List Piece) : List α :=
  (placed p pieces).filterMap fun x => f x.1 x.2

section
variable {α : Type} {f : Place → Piece → Option α} {p : Place} {x : Piece}

@[simp] theorem collect_nil : collect f p [] = [] :=
  rfl

theorem collect_cons_none (h : f p x = none) (xs : List Piece) :
    collect f p (x :: xs) = collect f (p.past x.text) xs :=
  List.filterMap_cons_none h

theorem collect_cons_some {a : α} (h : f p x = some a) (xs : List Piece) :
    collect f p (x :: xs) = a :: collect f (p.past x.text) xs :=
  List.filterMap_cons_some h

theorem collect_append (xs ys : List Piece) :
    collect f p (xs ++ ys) = collect f p xs ++ collect f (p.past (xs.flatMap Piece.text)) ys := by
  induction xs generalizing p with
  | nil => rfl
  | cons x xs ih =>
    rw [List.cons_append, List.flatMap_cons, ← Place.past_past]
    cases hx : f p x with
    | none => rw [collect_cons_none hx, collect_cons_none hx, ih]
    | some a => rw [collect_cons_some hx, collect_cons_some hx, ih, List.cons_append]

end

/-! ## Visits of pieces -/

/-- Where a test stands that starts at an offset. -/
def TestCase.extentAt (offset : Nat) (c : TestCase) : Extent where
  start := offset
  brace := offset + Text.size c.header.text
  bodyEnd := offset + Text.size (c.header.text ++ c.body)
  stop := offset + Text.size c.text

/-- The visit of a piece at a place, if the piece starts with a header. -/
def Piece.visit? (p : Place) : Piece → Option Visit
  | .plain _ => none
  | .stray h u =>
    some ⟨⟨p.offset, p.offset + Text.size h.text⟩, .error ⟨p.offset, p.line, u⟩⟩
  | .test c =>
    some ⟨⟨p.offset, p.offset + Text.size c.header.text⟩, .ok (c.extentAt p.offset)⟩

namespace Extent

/-- A text behind a brace is what is left when all up to the brace is dropped. -/
theorem dropBytes_brace {pre t : Text} {m : Mark} (hb : m.brace = Text.size pre) :
    Text.dropBytes (m.brace + 1) (pre ++ '{' :: t) = t := by
  have := Text.dropBytes_size_append (pre ++ ['{']) t
  rwa [Text.size_append, ← hb, List.append_assoc] at this

/-- Behind the brace of a mark stands what does not close. -/
theorem locate_of_error {pre t : Text} {m : Mark} (hb : m.brace = Text.size pre) {u : Unclosed}
    (hc : Closing.of t = .error u) :
    locate (pre ++ '{' :: t) m =
      .error ⟨m.start, Text.lineAt m.start (pre ++ '{' :: t), u⟩ := by
  unfold locate locateFrom
  rw [dropBytes_brace hb, hc]

/-- Behind the brace of a mark stands what closes. -/
theorem locate_of_ok {pre t : Text} {m : Mark} (hb : m.brace = Text.size pre) {k : Closing}
    (hc : Closing.of t = .ok k) :
    locate (pre ++ '{' :: t) m =
      .ok ⟨m.start, m.brace, m.brace + 1 + Text.size k.inside + 1,
        m.brace + 1 + Text.size k.inside + 1 + Text.size k.tail + 1⟩ := by
  have htake : Text.takeBytes (m.brace + 1) (pre ++ '{' :: t) = pre ++ ['{'] := by
    have := Text.takeBytes_size_append (pre ++ ['{']) t
    rwa [Text.size_append, ← hb, List.append_assoc] at this
  have hsize : Text.size (pre ++ ['{']) = m.brace + 1 := by
    rw [Text.size_append, hb]
    rfl
  unfold locate locateFrom
  rw [dropBytes_brace hb, hc, htake, hsize]

end Extent

namespace Piece

/-- The visit of a piece ends where the piece does. -/
theorem next_of_visit? {p : Place} {x : Piece} {v : Visit} (h : x.visit? p = some v) :
    v.next = (p.past x.text).offset := by
  cases x with
  | plain t => cases h
  | stray hd u =>
    cases h
    show p.offset + Text.size hd.text + 1 = p.offset + Text.size (hd.text ++ ['{'])
    rw [Text.size_append, Nat.add_assoc]
    rfl
  | test c =>
    cases h
    rfl

/-- A header whose test never closes is visited at its place. -/
theorem visit?_stray {source pre rest : Text} {h : Header} {u : Unclosed}
    (hs : source = pre ++ h.text ++ '{' :: rest) (hc : Closing.of rest = .error u) :
    (stray h u).visit? (Place.origin.past pre) =
      some (.of source ⟨Text.size pre, Text.size (pre ++ h.text)⟩) := by
  subst hs
  have hline :
      Text.lineAt (Text.size pre) (pre ++ h.text ++ '{' :: rest) = 1 + Text.lineEnds pre := by
    rw [List.append_assoc, Text.lineAt_size_append]
  rw [Visit.of, Extent.locate_of_error rfl hc, hline]
  simp [visit?]

/-- A test that closes is visited at its place. -/
theorem visit?_test {source pre rest : Text} {c : TestCase} (hs : source = pre ++ c.text ++ rest)
    (hc : c.Closed) :
    (test c).visit? (Place.origin.past pre) =
      some (.of source ⟨Text.size pre, Text.size (pre ++ c.header.text)⟩) := by
  obtain ⟨k, hk, hof, rfl⟩ := hc.exists_closing rest
  have htext := TestCase.text_ofClosing c.header k
  rw [hof] at htext
  have hbody : '{' :: k.inside ++ ['}'] = c.body := congrArg TestCase.body hof
  have htail : k.tail = c.tail := congrArg TestCase.tail hof
  have hbrace : ('{').utf8Size = 1 ∧ ('}').utf8Size = 1 ∧ (')').utf8Size = 1 := ⟨rfl, rfl, rfl⟩
  rw [List.append_assoc, htext, ← List.append_assoc] at hs
  rw [Visit.of, hs, Extent.locate_of_ok rfl hk, htail]
  simp only [visit?, TestCase.extentAt, TestCase.text, Place.offset_origin_past, ← hbody,
    Text.size_append, Text.size_cons, Text.size_nil, Option.some.injEq, Visit.mk.injEq,
    Except.ok.injEq, Extent.mk.injEq, true_and]
  omega

end Piece

namespace Mark

variable {source pre before rest : Text} {h : Header}

/-- A search from behind a part of a source, where no word goes on, finds the first header of the
rest. -/
theorem find?_of_leads (hs : source = pre ++ (before ++ h.text ++ '{' :: rest))
    (hfree : Text.standsFree pre.getLast? = true) (hl : Opening.Leads before h) :
    find? source (Text.size pre) =
      some ⟨Text.size (pre ++ before), Text.size (pre ++ before ++ h.text)⟩ := by
  rw [hs, find?, Text.takeBytes_size_append, Text.dropBytes_size_append,
    Opening.first?_congr (q := none) hfree, hl rest]
  simp only [Option.map_some, Text.size_append]

theorem find?_of_first?_none (hs : source = pre ++ rest)
    (hfree : Text.standsFree pre.getLast? = true) (h : Opening.first? none rest = none) :
    find? source (Text.size pre) = none := by
  rw [hs, find?, Text.takeBytes_size_append, Text.dropBytes_size_append,
    Opening.first?_congr (q := none) hfree, h]
  rfl

end Mark

/-- A scan that starts there comes first to this header. -/
theorem visitsFrom_of_leads {source pre before rest : Text} {h : Header}
    (hs : source = pre ++ (before ++ h.text ++ '{' :: rest))
    (hfree : Text.standsFree pre.getLast? = true) (hl : Opening.Leads before h) :
    ∃ v, v = .of source ⟨Text.size (pre ++ before), Text.size (pre ++ before ++ h.text)⟩ ∧
      visitsFrom source (Text.size pre) = v :: visitsFrom source v.next :=
  ⟨_, rfl, visitsFrom_of_find? (Mark.find?_of_leads hs hfree hl)⟩

/-- From there on, it visits the pieces of the rest that start with a header. -/
theorem Outlined.visitsFrom_eq {t : Text} {pieces : List Piece} (h : Outlined t pieces)
    {source pre : Text} (hs : source = pre ++ t) (hfree : Text.standsFree pre.getLast? = true) :
    visitsFrom source (Text.size pre) = collect Piece.visit? (Place.origin.past pre) pieces := by
  induction h generalizing pre with
  | @plain t h =>
    rw [visitsFrom_of_find?_none (Mark.find?_of_first?_none hs hfree h), collect_cons_none rfl,
      collect_nil]
  | @stray before hd rest u pieces hl hc ho ih =>
    obtain ⟨v, hv, hvisits⟩ := visitsFrom_of_leads hs hfree hl
    have hhere : source = pre ++ before ++ hd.text ++ '{' :: rest := by simp [hs]
    have hnext : source = pre ++ before ++ (hd.text ++ ['{']) ++ rest := by simp [hs]
    have hvisit := Piece.visit?_stray hhere hc
    have hrest := ih hnext (by simp; decide)
    rw [← hv] at hvisit
    rw [hvisits, collect_cons_none rfl, Piece.text, Place.past_past, collect_cons_some hvisit,
      Piece.next_of_visit? hvisit, Place.past_past, Place.offset_origin_past, Piece.text, hrest]
  | @test before c rest pieces hl hc ho ih =>
    obtain ⟨k, -, hof, rfl⟩ := hc.exists_closing rest
    have htext := TestCase.text_ofClosing c.header k
    rw [hof] at htext
    have hs' : source = pre ++ (before ++ c.header.text ++ '{' :: k.text) := by
      rw [hs, List.append_assoc, htext, List.append_assoc]
    obtain ⟨v, hv, hvisits⟩ := visitsFrom_of_leads hs' hfree hl
    have hnext : source = pre ++ before ++ c.text ++ k.rest := by simp [hs]
    have hvisit := Piece.visit?_test hnext hc
    have hrest := ih hnext (by simp [TestCase.text]; decide)
    rw [← hv] at hvisit
    rw [hvisits, collect_cons_none rfl, Piece.text, Place.past_past, collect_cons_some hvisit,
      Piece.next_of_visit? hvisit, Place.past_past, Place.offset_origin_past, Piece.text, hrest]

/-- The visits of a source are those of its pieces. -/
theorem visits_eq_collect (source : Text) :
    visits source = collect Piece.visit? .origin (outline source) :=
  (outlined_outline source).visitsFrom_eq (List.nil_append source).symm rfl

/-! ## Reports -/

namespace TestCase

/-- The header of a located test is read off the source. -/
theorem headerText_extentAt {source pre post : Text} {c : TestCase}
    (hs : source = pre ++ c.text ++ post) :
    (c.extentAt (Text.size pre)).headerText source = c.header.text := by
  have := Text.slice_append pre c.header.text (c.body ++ c.tail ++ [')'] ++ post)
  rw [Text.size_append] at this
  simpa [Extent.headerText, extentAt, hs, text] using this

/-- A test closes behind its tail. -/
theorem closeParen_extentAt (offset : Nat) (c : TestCase) :
    (c.extentAt offset).closeParen = (c.extentAt offset).bodyEnd + Text.size c.tail := by
  show offset + Text.size (c.header.text ++ c.body ++ c.tail ++ [')']) - 1 =
    offset + Text.size (c.header.text ++ c.body) + Text.size c.tail
  have : (')').utf8Size = 1 := rfl
  simp only [Text.size_append, Text.size_cons, Text.size_nil]
  omega

/-- The tail of a located test is read off the source. -/
theorem tailText_extentAt {source pre post : Text} {c : TestCase}
    (hs : source = pre ++ c.text ++ post) :
    (c.extentAt (Text.size pre)).tailText source = c.tail := by
  have := Text.slice_append (pre ++ c.header.text ++ c.body) c.tail (')' :: post)
  have hbody :
      (c.extentAt (Text.size pre)).bodyEnd = Text.size (pre ++ c.header.text ++ c.body) := by
    simp [extentAt]
  have hclose : (c.extentAt (Text.size pre)).closeParen =
      Text.size (pre ++ c.header.text ++ c.body ++ c.tail) := by
    rw [closeParen_extentAt, hbody, Text.size_append _ c.tail]
  have hsrc : source = pre ++ c.header.text ++ c.body ++ c.tail ++ ')' :: post := by
    simp [hs, text]
  rw [Extent.tailText, hclose, hbody, hsrc, this]

theorem isLimited_extentAt {source pre post : Text} {c : TestCase}
    (hs : source = pre ++ c.text ++ post) :
    (c.extentAt (Text.size pre)).isLimited source = c.isLimited := by
  rw [Extent.isLimited, headerText_extentAt hs, tailText_extentAt hs, isLimited]

end TestCase

/-- A placed piece of a source stands there. -/
theorem exists_of_mem_placed_outline {source : Text} {q : Place} {x : Piece}
    (h : (q, x) ∈ placed .origin (outline source)) :
    ∃ pre post, source = pre ++ x.text ++ post ∧ q = Place.origin.past pre := by
  obtain ⟨ys, zs, hxs, rfl⟩ := exists_of_mem_placed h
  refine ⟨ys.flatMap Piece.text, zs.flatMap Piece.text, ?_, rfl⟩
  have := flatMap_text_outline source
  rw [hxs] at this
  simpa using this.symm

/-- A test that a visit located is a piece of the source, and stands where the extent says. -/
theorem exists_piece_of_visit {source : Text} {v : Visit} {e : Extent} (hv : v ∈ visits source)
    (he : v.found = .ok e) : ∃ ys c zs, outline source = ys ++ Piece.test c :: zs ∧
      e = c.extentAt (Text.size (ys.flatMap Piece.text)) ∧ v.mark.start = e.start := by
  rw [visits_eq_collect, collect, List.mem_filterMap] at hv
  obtain ⟨⟨q, x⟩, hmem, hx⟩ := hv
  obtain ⟨ys, zs, houtline, rfl⟩ := exists_of_mem_placed hmem
  cases x with
  | plain t => cases hx
  | stray h u =>
    cases hx
    cases he
  | test c =>
    cases hx
    cases he
    exact ⟨ys, c, zs, houtline, by rw [Place.offset_origin_past], rfl⟩

/-- What holds of as many visits as of pieces. -/
theorem countP_visits {source : Text} {f : Visit → Bool} {g : Piece → Bool}
    (h : ∀ pre x post, source = pre ++ x.text ++ post →
      ((x.visit? (Place.origin.past pre)).map f).getD false = g x) :
    (visits source).countP f = (outline source).countP g := by
  rw [visits_eq_collect, collect, List.countP_filterMap, ← map_snd_placed .origin (outline source),
    List.countP_map, map_snd_placed]
  refine List.countP_congr fun y hy => ?_
  obtain ⟨pre, post, hs, hq⟩ := exists_of_mem_placed_outline hy
  rw [hq, h pre y.2 post hs]
  rfl

/-- What is read off the visits, is read off the placed pieces. -/
theorem filterMap_visits {α : Type} {source : Text} {f : Visit → Option α}
    {g : Place → Piece → Option α}
    (h : ∀ pre x post, source = pre ++ x.text ++ post →
      (x.visit? (Place.origin.past pre)).bind f = g (Place.origin.past pre) x) :
    (visits source).filterMap f = collect g .origin (outline source) := by
  rw [visits_eq_collect, collect, List.filterMap_filterMap]
  refine List.filterMap_congr fun y hy => ?_
  obtain ⟨pre, post, hs, hq⟩ := exists_of_mem_placed_outline hy
  rw [hq, h pre y.2 post hs]

namespace Revision

/-- As many tests are given a limit as visits come to a test without one. -/
theorem added_eq (source : Text) (seconds : UInt64) :
    (of source seconds).added = (visits source).countP (Visit.wantsLimit source) := by
  refine (countP_visits fun pre x post hs => ?_).symm
  cases x with
  | plain t => rfl
  | stray h u => rfl
  | test c =>
    have := TestCase.isLimited_extentAt hs
    simp [Piece.visit?, Visit.wantsLimit, Piece.wantsLimit, this]

/-- As many tests have a limit as visits come to a test with one. -/
theorem limited_eq (source : Text) (seconds : UInt64) :
    (of source seconds).limited = (visits source).countP (Visit.isLimited source) := by
  refine (countP_visits fun pre x post hs => ?_).symm
  cases x with
  | plain t => rfl
  | stray h u => rfl
  | test c =>
    have := TestCase.isLimited_extentAt hs
    simp [Piece.visit?, Visit.isLimited, Piece.isLimited, this]

/-- The visits whose test never closes are reported, in order. -/
theorem unterminated_eq (source : Text) (seconds : UInt64) :
    (of source seconds).unterminated = (visits source).filterMap Visit.unterminated? := by
  refine (filterMap_visits (g := Piece.unterminated?) fun pre x post _ => ?_).symm
  cases x <;> rfl

end Revision

end TimeLimit
