import TimeLimit.Proofs.Place

/-!
# Which parenthesis a test ends with

Behind the body of a test one parenthesis counts as open, whatever the header opened. The one that
closes it belongs to the call around the closure: of the parentheses in a header, the end of the
test closes the one that has a single parenthesis behind it in the header, the closure's own
(`Extent.closesFrom_iff`). That is the parenthesis of the test call when the header opens no others
(`call_end_closes_test_iff`). When the closure is wrapped in a further call, the end that is found
is the end of that call (`call_end_in_wrapped_closure`).
-/

namespace TimeLimit

open TimeLimit.Bracket

/-- A located test is a test of the source, and stands where the extent says. -/
theorem Extent.exists_test_of_locate {source : Text} {m : Mark} {e : Extent} (hm : m.Fits source)
    (he : locate source m = .ok e) :
    ∃ (pre : Text) (c : TestCase) (post : Text), source = pre ++ c.text ++ post ∧
      c.header.WellFormed ∧ c.Closed ∧ e = c.extentAt (Text.size pre) := by
  obtain ⟨pre, h, rest, hs, hw, -, hstart, hbrace⟩ := hm
  rw [← Text.size_append] at hbrace
  cases hk : Closing.of rest with
  | error u =>
    rw [hs, locate_of_error hbrace hk] at he
    cases he
  | ok k =>
    have htext := TestCase.text_ofClosing h k
    rw [← (Closing.of_eq_ok_iff.1 hk).1] at htext
    have hsource : source = pre ++ (TestCase.ofClosing h k).text ++ k.rest := by
      rw [hs, List.append_assoc, List.append_assoc, htext]
    have hclosed := TestCase.closed_ofClosing h hk
    refine ⟨pre, .ofClosing h k, k.rest, hsource, hw, hclosed, ?_⟩
    -- the visit of the test at its place is the visit of the mark
    have hmark : (⟨Text.size pre, Text.size (pre ++ h.text)⟩ : Mark) = m := by
      rw [← hstart, ← hbrace]
    have hvisit := Option.some.inj (Piece.visit?_test hsource hclosed)
    have hfound := congrArg Visit.found hvisit
    rw [Place.offset_origin_past] at hfound
    exact Except.ok.inj (he.symm.trans (hmark ▸ hfound).symm)

/-- A test ends with its parenthesis. -/
theorem TestCase.slice_closeParen_extentAt (pre : Text) (c : TestCase) (post : Text) :
    Text.slice (c.extentAt (Text.size pre)).closeParen (c.extentAt (Text.size pre)).stop
      (pre ++ c.text ++ post) = [')'] := by
  have := Text.slice_append (pre ++ (c.header.text ++ c.body ++ c.tail)) [')'] post
  have hstop : (c.extentAt (Text.size pre)).stop =
      Text.size (pre ++ (c.header.text ++ c.body ++ c.tail) ++ [')']) := by
    simp [extentAt, text]
  have hclose : (c.extentAt (Text.size pre)).closeParen =
      Text.size (pre ++ (c.header.text ++ c.body ++ c.tail)) := by
    rw [closeParen_extentAt]
    simp [extentAt, Nat.add_assoc]
  rw [hclose, hstop]
  simpa [text] using this

/-- A single opener, and one closer behind it, make a balanced text. -/
theorem Bracket.balanced_of_one_pair {opener closer : Char} (hne : opener ≠ closer)
    {inner back : Text} (hone : inner.count opener = 1) (hinner : closer ∉ inner)
    (hopener : opener ∉ back) (hcloser : closer ∉ back) :
    Balanced opener closer (inner ++ closer :: back) := by
  have hmem : opener ∈ inner := List.count_pos_iff.1 (by omega)
  obtain ⟨a, b, rfl, ha⟩ := List.eq_append_cons_of_mem hmem
  rw [List.count_append, List.count_eq_zero.2 ha, List.count_cons_self] at hone
  have hb : opener ∉ b := List.count_eq_zero.1 (by omega)
  rw [List.mem_append, List.mem_cons, not_or, not_or] at hinner
  have hpair := (balanced_of_not_mem hb hinner.2.2).wrap hne
  have := ((balanced_of_not_mem ha hinner.1).append hpair).append
    (balanced_of_not_mem hopener hcloser)
  simpa using this

namespace Header

/-- Of a header, what stands behind one of its parentheses closes the one and opens no other behind
it. -/
theorem WellFormed.exists_of_opener {h : Header} (hw : h.WellFormed) {front back : Text}
    (e : h.text = front ++ '(' :: back) :
    ∃ inner, back = inner ++ ')' :: h.back ∧ ')' ∉ inner ∧ '(' ∉ h.back := by
  have hclosed := hw.closer_not_mem_front
  have hback := hw.not_mem_back (x := '(') (by decide) (by decide)
  rw [text_eq] at e
  rcases List.append_eq_append_iff.1 e with ⟨c, rfl, hc⟩ | ⟨c, hfront, hc⟩
  · -- the parenthesis would stand in the back
    cases c with
    | nil => simp at hc
    | cons x c =>
      obtain ⟨rfl, hrest⟩ := List.cons.inj hc
      exact absurd (by simp [hrest]) hback
  · cases c with
    | nil => simp at hc
    | cons x c =>
      obtain ⟨rfl, hrest⟩ := List.cons.inj hc
      rw [hfront, List.mem_append, List.mem_cons, not_or, not_or] at hclosed
      exact ⟨c, hrest, hclosed.2.2, hback⟩

end Header

namespace Extent

variable {source : Text} {m : Mark} {e : Extent}

/-- The parenthesis that ends a test closes the one that a part of the header stands behind: with
that one open, the count over this part and then over the tail comes back to zero at the end of the
test, and not before. The body is left out. -/
def ClosesFrom (source : Text) (e : Extent) (part : Text) : Prop :=
  closing '(' ')' (part ++ e.tailText source ++ [')']) = some (part ++ e.tailText source, [])

instance (source : Text) (e : Extent) (part : Text) : Decidable (e.ClosesFrom source part) :=
  inferInstanceAs (Decidable (closing _ _ _ = _))

theorem closesFrom_iff_balanced {part : Text} :
    e.ClosesFrom source part ↔ Balanced '(' ')' (part ++ e.tailText source) := by
  rw [ClosesFrom, closing_eq_some_iff (by decide)]
  constructor
  · rintro ⟨-, hcount, hopen⟩
    exact ⟨hcount, hopen⟩
  · rintro ⟨hcount, hopen⟩
    exact ⟨rfl, hcount, hopen⟩

/-- Of the parentheses in a header, the end of the test closes the one behind which the header opens
a single further one. -/
theorem closesFrom_iff (hm : m.Fits source) (he : locate source m = .ok e) {front back : Text}
    (hheader : e.headerText source = front ++ '(' :: back) :
    e.ClosesFrom source back ↔ back.count '(' = 1 := by
  obtain ⟨pre, c, post, hs, hw, hclosed, rfl⟩ := exists_test_of_locate hm he
  obtain ⟨-, -, -, htail⟩ := hclosed
  rw [TestCase.headerText_extentAt hs] at hheader
  obtain ⟨inner, rfl, hinner, hback⟩ := hw.exists_of_opener hheader
  have hcloser : ')' ∉ c.header.back := hw.not_mem_back (by decide) (by decide)
  have hcount := htail.count_eq
  rw [closesFrom_iff_balanced, TestCase.tailText_extentAt hs]
  have hopened : (inner ++ ')' :: c.header.back).count '(' = inner.count '(' := by
    rw [List.count_append, List.count_cons_of_ne (by decide), List.count_eq_zero.2 hback,
      Nat.add_zero]
  have hclosedBy : (inner ++ ')' :: c.header.back).count ')' = 1 := by
    rw [List.count_append, List.count_cons_self, List.count_eq_zero.2 hcloser,
      List.count_eq_zero.2 hinner]
  constructor
  · intro h
    have := h.count_eq
    rw [List.count_append, hclosedBy, List.count_append] at this
    omega
  · intro h
    rw [hopened] at h
    exact (balanced_of_one_pair (by decide) h hinner hback hcloser).append htail

end Extent

/-- Every located test ends with a `)`, and it is the one that closes the parenthesis behind the
keyword exactly when the header opens two parentheses, that one and the closure's. Any other
parenthesis of the header is the one that is closed exactly when the header opens a single further
one behind it. -/
theorem call_end_closes_test_iff {source : Text} {offset : Nat} {m : Mark} {e : Extent}
    (hm : Mark.find? source offset = some m) (he : Extent.locate source m = .ok e) :
    Text.slice e.closeParen e.stop source = [')'] ∧
    (∃ gap rest, e.headerText source = Header.testWord ++ gap ++ '(' :: rest ∧
      (∀ c ∈ gap, Text.isBlank c = true) ∧
      (e.ClosesFrom source rest ↔ (e.headerText source).count '(' = 2)) ∧
    ∀ front back, e.headerText source = front ++ '(' :: back →
      (e.ClosesFrom source back ↔ back.count '(' = 1) := by
  have hfits := Mark.fits_of_find? hm
  obtain ⟨pre, c, post, hs, hw, -, hextent⟩ := Extent.exists_test_of_locate hfits he
  have hheader : e.headerText source =
      Header.testWord ++ c.header.gap ++ '(' :: (c.header.arguments ++ ')' :: c.header.back) := by
    rw [hextent, TestCase.headerText_extentAt hs, Header.text_eq, Header.front]
    simp
  refine ⟨?_, ⟨_, _, hheader, hw.gap_blank, ?_⟩,
    fun front back hheader => Extent.closesFrom_iff hfits he hheader⟩
  · rw [hextent, hs]
    exact TestCase.slice_closeParen_extentAt pre c post
  · have hgap : '(' ∉ Header.testWord ++ c.header.gap := by
      rw [List.mem_append, not_or]
      exact ⟨by decide, Text.not_mem_of_isBlank hw.gap_blank (by decide)⟩
    have hcount : (e.headerText source).count '(' =
        (c.header.arguments ++ ')' :: c.header.back).count '(' + 1 := by
      rw [hheader, List.count_append, List.count_eq_zero.2 hgap, List.count_cons_self, Nat.zero_add]
    rw [Extent.closesFrom_iff hfits he hheader, hcount]
    omega

/-- A call in the tail and blanks behind the keyword do no harm: the header opens two parentheses,
and the test ends where its own is closed. -/
theorem call_end_of_plain_test :
    ∃ (source : Text) (m : Mark) (e : Extent) (gap rest : Text),
      source = "// )\n test ('x', () async \x7b(\x7d, skip: f(1));".toList ∧
      Mark.find? source 3 = some m ∧ Extent.locate source m = .ok e ∧
      e.headerText source = Header.testWord ++ gap ++ '(' :: rest ∧
      (e.headerText source).count '(' = 2 ∧ e.ClosesFrom source rest := by
  let source : Text := "// )\n test ('x', () async \x7b(\x7d, skip: f(1));".toList
  have hfind : Mark.find? source 3 = some ⟨6, 26⟩ := by decide
  have hlocate : Extent.locate source ⟨6, 26⟩ = .ok ⟨6, 26, 29, 42⟩ := by decide
  have hcount : (Extent.headerText source ⟨6, 26, 29, 42⟩).count '(' = 2 := by decide
  obtain ⟨-, ⟨gap, rest, hheader, -, hiff⟩, -⟩ := call_end_closes_test_iff hfind hlocate
  exact ⟨source, _, _, gap, rest, rfl, hfind, hlocate, hheader, hcount, hiff.2 hcount⟩

/-- A closure in a further call ends the test at the end of that call, where the count from the
parenthesis behind the keyword has not come back to zero. -/
theorem call_end_in_wrapped_closure :
    ¬ ∀ (source : Text) (offset : Nat) (m : Mark) (e : Extent) (gap rest : Text),
      Mark.find? source offset = some m → Extent.locate source m = .ok e →
      e.headerText source = Header.testWord ++ gap ++ '(' :: rest →
      (∀ c ∈ gap, Text.isBlank c = true) → e.ClosesFrom source rest := by
  intro h
  let source : Text := "test('x', wrap(() async \x7b\x7d));".toList
  have hfind : Mark.find? source 0 = some ⟨0, 24⟩ := by decide
  have hlocate : Extent.locate source ⟨0, 24⟩ = .ok ⟨0, 24, 26, 27⟩ := by decide
  have hcloses := h source 0 _ _ [] "'x', wrap(() async ".toList hfind hlocate (by decide) nofun
  exact absurd hcloses (by decide)

end TimeLimit
