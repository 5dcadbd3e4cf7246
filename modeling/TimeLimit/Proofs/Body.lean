import TimeLimit.Proofs.OneTest
import TimeLimit.Proofs.Stable

/-!
# Bodies do not count

What stands in the body of a located test decides nothing (`revision_ignores_body`): with any other
body, the scan comes to the same verdicts on all headers, and the revision is the same text with the
other body in its place. A new body may hold marks of a limit, parentheses that do not balance,
quotes, comments and whole tests; it only has to end where its first brace closes.

This holds for a test with no header before it whose call never closes. The search for the end of
such a call runs through the bodies behind it, so a parenthesis in one of them may close it.
-/

namespace TimeLimit

open TimeLimit.Bracket

/-! ## Another body -/

/-- What closes at the end of a text is balanced before that. -/
theorem Bracket.balanced_of_closing {t inside : Text}
    (h : closing '{' '}' t = some (inside, [])) :
    t = inside ++ ['}'] ∧ Balanced '{' '}' inside := by
  obtain ⟨ht, hcount, hopen⟩ := (closing_eq_some_iff (by decide)).1 h
  exact ⟨ht, hcount, hopen⟩

/-- A test that closes does so with every other body that does. -/
theorem TestCase.Closed.with_body {c : TestCase} (h : c.Closed) {inside : Text}
    (hb : Balanced '{' '}' inside) : Closed { c with body := '{' :: inside ++ ['}'] } := by
  obtain ⟨-, -, -, hp⟩ := h
  exact ⟨inside, rfl, hb, hp⟩

/-- With another body that closes, a test is cut where it was, and so are all others, unless the
search for the end of a header before it runs through the body. -/
theorem Outlined.with_body {t : Text} {ys zs : List Piece} {c : TestCase}
    (h : Outlined t (ys ++ .test c :: zs)) (hys : ∀ y ∈ ys, y.isStray = false) {inside : Text}
    (hb : Balanced '{' '}' inside) :
    Outlined ((ys ++ .test { c with body := '{' :: inside ++ ['}'] } :: zs).flatMap Piece.text)
      (ys ++ .test { c with body := '{' :: inside ++ ['}'] } :: zs) := by
  generalize hps : ys ++ Piece.test c :: zs = ps at h
  induction h generalizing ys with
  | plain h => obtain _ | ⟨y, _ | ⟨z, ys⟩⟩ := ys <;> simp at hps
  | stray hl hc ho ih =>
    obtain _ | ⟨y, _ | ⟨z, ys⟩⟩ := ys <;>
      simp only [List.nil_append, List.cons_append, List.cons.injEq, reduceCtorEq, false_and,
        and_false] at hps
    obtain ⟨rfl, rfl, rfl⟩ := hps
    have := hys _ (List.mem_cons_of_mem _ List.mem_cons_self)
    cases this
  | @test before c' rest pieces hl hc ho ih =>
    obtain _ | ⟨y, _ | ⟨z, ys⟩⟩ := ys <;>
      simp only [List.nil_append, List.cons_append, List.cons.injEq, reduceCtorEq,
        false_and] at hps
    · -- this is the test with the other body
      obtain ⟨rfl, hc', rfl⟩ := hps
      cases hc'
      have hrest := ho.flatMap_text
      have := Outlined.test (c := { c with body := '{' :: inside ++ ['}'] }) hl (hc.with_body hb) ho
      simpa [Piece.text, hrest] using this
    · obtain ⟨rfl, rfl, rfl⟩ := hps
      have ih := ih (fun y hy => hys y (List.mem_cons_of_mem _ (List.mem_cons_of_mem _ hy))) rfl
      simpa [Piece.text] using Outlined.test hl hc ih

/-- The other body changes no verdict. -/
theorem filterMap_verdict?_with_body (ys zs : List Piece) (c : TestCase) (body : Text) :
    (ys ++ .test { c with body } :: zs).filterMap Piece.verdict? =
      (ys ++ .test c :: zs).filterMap Piece.verdict? := by
  rw [List.filterMap_append, List.filterMap_append]
  rfl

/-- What does not look at bodies counts the same. -/
theorem countP_with_body {f : Piece → Bool} {c : TestCase} {body : Text}
    (hf : f (.test { c with body }) = f (.test c)) (ys zs : List Piece) :
    (ys ++ .test { c with body } :: zs).countP f = (ys ++ .test c :: zs).countP f := by
  rw [List.countP_append, List.countP_append, List.countP_cons, List.countP_cons, hf]

/-! ## Where the body stands in the revision -/

/-- The tail of a test in the revision. -/
def TestCase.revisedTail (seconds : UInt64) (c : TestCase) : Text :=
  if c.isLimited then c.tail else Tail.withLimit seconds c.tail

/-- A revision changes nothing of a test but its tail, and does not look at its body. -/
theorem Piece.withLimit_test (seconds : UInt64) (c : TestCase) :
    (test c).withLimit seconds = test { c with tail := c.revisedTail seconds } := by
  rw [withLimit, TestCase.revisedTail]
  split <;> rfl

/-- The text of a revision around a test. -/
theorem Revision.text_around {source : Text} {ys zs : List Piece} {c : TestCase}
    (h : outline source = ys ++ .test c :: zs) (seconds : UInt64) :
    (of source seconds).text =
      (ys.flatMap fun x => (x.withLimit seconds).text) ++ c.header.text ++ c.body ++
        (c.revisedTail seconds ++ ')' :: zs.flatMap fun x => (x.withLimit seconds).text) := by
  simp only [of, h, List.flatMap_append, List.flatMap_cons, Piece.withLimit_test]
  simp [Piece.text, TestCase.text]

/-- Slots of pieces stand before the place where the pieces end. -/
theorem lt_offset_of_mem_collect_slot? {p : Place} {xs : List Piece} {s : Slot}
    (h : s ∈ collect Piece.slot? p xs) : s.offset < (p.past (xs.flatMap Piece.text)).offset := by
  induction xs generalizing p with
  | nil => cases h
  | cons x xs ih =>
    rw [List.flatMap_cons, ← Place.past_past]
    have hle : (p.past x.text).offset ≤ ((p.past x.text).past (xs.flatMap Piece.text)).offset :=
      Nat.le_add_right _ _
    cases hx : x.slot? p with
    | none =>
      rw [collect_cons_none hx] at h
      exact ih h
    | some s' =>
      rw [collect_cons_some hx] at h
      cases h with
      | head => exact Nat.lt_of_lt_of_le (Piece.bounds_of_slot? hx).2 hle
      | tail _ h => exact ih h

/-- Revised pieces are longer by the words of their slots. -/
theorem size_revised (seconds : UInt64) (p : Place) (xs : List Piece) :
    Text.size (xs.flatMap fun x => (x.withLimit seconds).text) =
      Text.size (xs.flatMap Piece.text) + Slot.width seconds (collect Piece.slot? p xs) := by
  induction xs generalizing p with
  | nil => rfl
  | cons x xs ih =>
    rw [List.flatMap_cons, List.flatMap_cons, Text.size_append, Text.size_append,
      ih (p.past x.text)]
    cases hx : x.slot? p with
    | none =>
      rw [collect_cons_none hx, Piece.withLimit_eq_self (Piece.slot?_eq_none_iff.1 hx)]
      omega
    | some s =>
      obtain ⟨front, back, htext, -, -, hword⟩ := Piece.exists_of_slot? hx
      rw [collect_cons_some hx, Slot.width, hword, htext]
      simp only [Text.size_append]
      omega

/-- The revised pieces before a place in a source take as many bytes as the source does up to there,
and the words that went in before. -/
theorem size_revised_before {source : Text} {ys zs : List Piece} (h : outline source = ys ++ zs)
    (seconds : UInt64) :
    Text.size (ys.flatMap fun x => (x.withLimit seconds).text) =
      Text.size (ys.flatMap Piece.text) +
        Slot.widthBefore seconds (slots source) (Text.size (ys.flatMap Piece.text)) := by
  have hearlier : ∀ s ∈ collect Piece.slot? .origin ys,
      s.offset < (Place.origin.past (ys.flatMap Piece.text)).offset :=
    fun s hs => lt_offset_of_mem_collect_slot? hs
  have hwidth := widthBefore_append_collect seconds hearlier zs
  rw [← collect_append, ← h, ← slots_eq_collect, Place.offset_origin_past] at hwidth
  rw [hwidth, size_revised seconds .origin]

/-- The body of a test in the revision stands where it stood, behind the words that went in before
the test. -/
theorem body_in_revision {source : Text} {ys zs : List Piece} {c : TestCase} {e : Extent}
    (h : outline source = ys ++ .test c :: zs)
    (he : e = c.extentAt (Text.size (ys.flatMap Piece.text))) (seconds : UInt64) :
    e.brace + Slot.widthBefore seconds (slots source) e.start =
        Text.size ((ys.flatMap fun x => (x.withLimit seconds).text) ++ c.header.text) ∧
      e.bodyEnd + Slot.widthBefore seconds (slots source) e.start =
        Text.size ((ys.flatMap fun x => (x.withLimit seconds).text) ++ c.header.text ++
          c.body) := by
  subst he
  have hsize := size_revised_before h seconds
  simp only [TestCase.extentAt, Text.size_append, hsize]
  omega

/-! ## Two runs -/

/-- Of the pieces before a test, none is a header without an end if no visit before it is. -/
theorem isStray_eq_false_of_visits {source : Text} {ys zs : List Piece}
    (h : outline source = ys ++ zs)
    (hbefore : ∀ w ∈ visits source, w.mark.start < Text.size (ys.flatMap Piece.text) →
      w.unterminated? = none) : ∀ y ∈ ys, y.isStray = false := by
  intro y hy
  cases y with
  | plain t => rfl
  | test c => rfl
  | stray hd u =>
    obtain ⟨ys₁, ys₂, rfl⟩ := List.append_of_mem hy
    have hvisit : ∃ w ∈ visits source, w.mark.start = Text.size (ys₁.flatMap Piece.text) ∧
        w.unterminated? ≠ none := by
      rw [visits_eq_collect, h, List.append_assoc, collect_append, List.cons_append,
        collect_cons_some (f := Piece.visit?) rfl]
      exact ⟨_, List.mem_append_right _ List.mem_cons_self, Place.offset_origin_past _, nofun⟩
    obtain ⟨w, hw, hstart, hreported⟩ := hvisit
    refine absurd (hbefore w hw ?_) hreported
    have := ('{').utf8Size_pos
    rw [hstart, List.flatMap_append, List.flatMap_cons, Piece.text]
    simp only [Text.size_append, Text.size_cons]
    omega

/-- **Bodies do not count.** Let a visit have located a test, and no visit before it have come to a
header whose test never closes. Write over the body of that test any text whose first character is a
brace that closes at its last one. Then the scan of the new source comes to the same verdicts in the
same order, so a revision reports the same numbers, and its text is that of the first source with
the new body written over the old one, behind the words that went in before the test. -/
theorem revision_ignores_body {source : Text} {v : Visit} {e : Extent} (hv : v ∈ visits source)
    (he : v.found = .ok e)
    (hbefore : ∀ w ∈ visits source, w.mark.start < v.mark.start → w.unterminated? = none)
    {body t inside : Text} (hbody : body = '{' :: t)
    (hclose : closing '{' '}' t = some (inside, [])) (seconds : UInt64) :
    let source' := Text.overwrite e.brace e.bodyEnd body source
    let shift := Slot.widthBefore seconds (slots source) e.start
    let r := Revision.of source seconds
    let r' := Revision.of source' seconds
    r'.added = r.added ∧ r'.limited = r.limited ∧
      r'.unterminated.length = r.unterminated.length ∧
      Text.slice (e.brace + shift) (e.bodyEnd + shift) r.text = e.bodyText source ∧
      r'.text = Text.overwrite (e.brace + shift) (e.bodyEnd + shift) body r.text ∧
      (visits source').map (Visit.verdict source') =
        (visits source).map (Visit.verdict source) := by
  intro source' shift r r'
  obtain ⟨ys, c, zs, houtline, rfl, hstart⟩ := exists_piece_of_visit hv he
  obtain ⟨rfl, hb⟩ := balanced_of_closing hclose
  rw [← List.cons_append] at hbody
  have hys := isStray_eq_false_of_visits houtline fun w hw hlt => hbefore w hw (hstart ▸ hlt)
  have houtline' : outline source' = ys ++ .test { c with body } :: zs := by
    have houtlined := (outlined_iff.2 houtline).with_body hys hb
    rw [← hbody] at houtlined
    exact (congrArg outline (overwrite_body houtline body)).trans houtlined.outline_eq
  have hsource := flatMap_text_outline source
  rw [houtline, text_around] at hsource
  have hbodyText := Text.slice_append (ys.flatMap Piece.text ++ c.header.text) c.body
    (c.tail ++ ')' :: zs.flatMap Piece.text)
  obtain ⟨hbrace, hbodyEnd⟩ := body_in_revision houtline rfl seconds
  refine ⟨?_, ?_, ?_, ?_, ?_, ?_⟩
  · show (outline source').countP Piece.wantsLimit = (outline source).countP Piece.wantsLimit
    rw [houtline', houtline, countP_with_body rfl]
  · show (outline source').countP Piece.isLimited = (outline source).countP Piece.isLimited
    rw [houtline', houtline, countP_with_body rfl]
  · rw [Revision.length_unterminated, Revision.length_unterminated, houtline', houtline,
      countP_with_body rfl]
  · rw [hbrace, hbodyEnd, Revision.text_around houtline, Text.slice_append, Extent.bodyText]
    rw [hsource] at hbodyText
    simp only [TestCase.extentAt, ← Text.size_append, ← List.append_assoc, hbodyText]
  · rw [hbrace, hbodyEnd, Revision.text_around houtline, Text.overwrite_append,
      Revision.text_around houtline']
    rfl
  · rw [map_verdict_visits, map_verdict_visits, houtline', houtline, filterMap_verdict?_with_body]

/-- A body that names a limit, opens a parenthesis and holds another test counts for nothing: both
tests of the source still lack a limit. -/
theorem revision_ignores_limit_in_body :
    ∃ (source body t inside : Text) (v : Visit) (e : Extent),
      source = "test('a', () async \x7b\x7d); test('b', () async \x7bx\x7d, skip: 1);".toList ∧
      body = "\x7btest('c', () async \x7b timeout: ( ' // \x7d) \x7d".toList ∧
      v ∈ visits source ∧ v.found = .ok e ∧
      (∀ w ∈ visits source, w.mark.start < v.mark.start → w.unterminated? = none) ∧
      body = '{' :: t ∧ closing '{' '}' t = some (inside, []) ∧
      (Revision.of (Text.overwrite e.brace e.bodyEnd body source) 30).added =
        (Revision.of source 30).added ∧
      (visits (Text.overwrite e.brace e.bodyEnd body source)).map
        (Visit.verdict (Text.overwrite e.brace e.bodyEnd body source)) =
          [.ok false, .ok false] := by
  let source : Text :=
    "test('a', () async \x7b\x7d); test('b', () async \x7bx\x7d, skip: 1);".toList
  let t : Text := "test('c', () async \x7b timeout: ( ' // \x7d) \x7d".toList
  let first : Visit := .of source ⟨0, 19⟩
  let v : Visit := .of source ⟨24, 43⟩
  have hfirst : Mark.find? source 0 = some ⟨0, 19⟩ := by decide
  have hnext : first.next = 22 := by decide
  have hsecond : Mark.find? source 22 = some ⟨24, 43⟩ := by decide
  have hlast : v.next = 56 := by decide
  have hnone : Mark.find? source 56 = none := by decide
  have hvisits : visits source = [first, v] := by
    rw [visits, visitsFrom_of_find? hfirst, hnext, visitsFrom_of_find? hsecond, hlast,
      visitsFrom_of_find?_none hnone]
  have hv : v ∈ visits source := by simp [hvisits]
  have he : v.found = .ok ⟨24, 43, 46, 56⟩ := by decide
  have hbefore : ∀ w ∈ visits source, w.mark.start < v.mark.start → w.unterminated? = none := by
    rw [hvisits]
    decide
  have hclose : closing '{' '}' t = some (t.dropLast, []) := by decide
  obtain ⟨hadded, -, -, -, -, hverdicts⟩ := revision_ignores_body hv he hbefore rfl hclose 30
  refine ⟨source, '{' :: t, t, t.dropLast, v, _, rfl, rfl, hv, he, hbefore, rfl, hclose, hadded, ?_⟩
  rw [hverdicts, hvisits]
  decide

end TimeLimit
