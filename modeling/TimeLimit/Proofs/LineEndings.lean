import TimeLimit.Listing
import TimeLimit.Proofs.Crlf
import TimeLimit.Proofs.LastArgument
import TimeLimit.Proofs.Place

/-!
# Line endings do not matter

A source with a carriage return before every line feed is revised as the source without them
(`revision_of_crlf`): the same tests are given a limit at the same places, the same headers are
reported, on the same lines, and the listing of what changed is the same. The carriage returns are
blanks, so a tail is cut behind the same argument (`Tail.split_crlf`); they stand before line feeds,
so they belong to the ends of lines, and a text has the lines it had (`Text.lines_crlf`).
-/

namespace TimeLimit

/-! ## Tails -/

namespace Text

/-- A text ends in the character that it ended in. -/
theorem getLast?_crlf (t : Text) : (crlf t).getLast? = t.getLast? := by
  rcases List.eq_nil_or_concat t with rfl | ⟨s, c, rfl⟩
  · rfl
  · rw [List.concat_eq_append, List.getLast?_concat, crlf_append]
    by_cases hc : c = '\n'
    · subst hc
      rw [crlf_lineEnd, crlf_nil, List.append_cons, List.getLast?_concat]
    · rw [crlf_cons hc, crlf_nil, List.getLast?_concat]

end Text

namespace Tail

/-- What is kept of a tail is kept with its carriage returns. From the last line up, a carriage
return at the end of the line before is a blank that does not matter. -/
theorem kept_crlf (tail : Text) : (split (Text.crlf tail)).1 = Text.crlf (split tail).1 := by
  induction hn : tail.length using Nat.strongRecOn generalizing tail with
  | ind n ih =>
    obtain ⟨front, line, rfl, hfront, hline⟩ := exists_lastLine tail
    have hcode : '\n' ∉ (splitLine line).1 := fun h =>
      hline (splitLine_append line ▸ List.mem_append_left _ h)
    rcases hfront with rfl | ⟨front, rfl⟩
    · rw [List.nil_append, Text.crlf_eq_self hline, Text.crlf_eq_self]
      exact fun h => hline (split_append line ▸ List.mem_append_left _ h)
    · have hkept := ih front.length (by simp at hn; omega) front rfl
      rw [List.append_assoc, List.singleton_append, Text.crlf_append, Text.crlf_lineEnd,
        Text.crlf_eq_self hline, List.append_cons, split_append_line _ hline,
        split_append_line _ hline, split_append_blank _ (by decide), hkept]
      split
      · rfl
      · rw [Text.crlf_append, Text.crlf_lineEnd, Text.crlf_eq_self hcode, List.append_assoc]
        rfl

/-- A tail with carriage returns is cut where it was. -/
theorem split_crlf (tail : Text) :
    split (Text.crlf tail) = (Text.crlf (split tail).1, Text.crlf (split tail).2) := by
  have hcut := split_append (Text.crlf tail)
  conv at hcut => rhs; rw [← split_append tail, Text.crlf_append, ← kept_crlf]
  exact Prod.ext (kept_crlf tail) (List.append_cancel_left hcut)

/-- A tail is given a limit at the same place and in the same form. -/
theorem withLimit_crlf (seconds : UInt64) (tail : Text) :
    withLimit seconds (Text.crlf tail) = Text.crlf (withLimit seconds tail) := by
  have hform : insertion (Text.crlf (split tail).1) seconds = insertion (split tail).1 seconds := by
    rw [insertion, insertion, Text.getLast?_crlf]
  have hself := Text.crlf_eq_self (not_mem_insertion (by decide) (by decide) (split tail).1 seconds)
  rw [withLimit, withLimit, split_crlf, Text.crlf_append, Text.crlf_append, hself, hform]

end Tail

/-! ## Revisions -/

namespace Piece

theorem withLimit_crlf (seconds : UInt64) (p : Piece) :
    p.crlf.withLimit seconds = (p.withLimit seconds).crlf := by
  cases p with
  | plain t => rfl
  | stray h u => rfl
  | test c =>
    rw [crlf, withLimit, withLimit, c.isLimited_crlf]
    split
    · rfl
    · simp only [TestCase.crlf, crlf, Tail.withLimit_crlf]

theorem isLimited_crlf (p : Piece) : p.crlf.isLimited = p.isLimited := by
  cases p with
  | plain t => rfl
  | stray h u => rfl
  | test c => exact c.isLimited_crlf

theorem wantsLimit_crlf (p : Piece) : p.crlf.wantsLimit = p.wantsLimit := by
  cases p with
  | plain t => rfl
  | stray h u => rfl
  | test c => exact congrArg (!·) c.isLimited_crlf

end Piece

/-- The report on the same header in the source with carriage returns: one more byte stands before
it for every line feed that does. -/
def Unterminated.crlf (source : Text) (u : Unterminated) : Unterminated :=
  { u with start := u.start + Text.lineEnds (Text.takeBytes u.start source) }

/-- Behind a part of a source, the headers whose test never closes are reported on the same lines
and for the same brackets. -/
theorem collect_unterminated?_crlf (pre : Text) (pieces : List Piece) :
    collect Piece.unterminated? (Place.origin.past pre.crlf) (pieces.map Piece.crlf) =
      (collect Piece.unterminated? (Place.origin.past pre) pieces).map
        (Unterminated.crlf (pre ++ pieces.flatMap Piece.text)) := by
  induction pieces generalizing pre with
  | nil => rfl
  | cons x pieces ih =>
    have hpast : (Place.origin.past pre.crlf).past x.crlf.text =
        Place.origin.past (pre ++ x.text).crlf := by
      rw [Place.past_past, Piece.text_crlf, Text.crlf_append]
    have hrest := ih (pre ++ x.text)
    rw [List.append_assoc, ← hpast] at hrest
    rw [List.map_cons, List.flatMap_cons]
    cases hx : x.unterminated? (Place.origin.past pre) with
    | none =>
      have hx' : x.crlf.unterminated? (Place.origin.past pre.crlf) = none := by
        cases x <;> first | rfl | cases hx
      rw [collect_cons_none hx, collect_cons_none hx', hrest, Place.past_past]
    | some u =>
      have hx' : x.crlf.unterminated? (Place.origin.past pre.crlf) =
          some (u.crlf (pre ++ (x.text ++ pieces.flatMap Piece.text))) := by
        cases x with
        | plain t => cases hx
        | test c => cases hx
        | stray h unclosed =>
          cases hx
          simp [Piece.crlf, Piece.unterminated?, Unterminated.crlf, Text.size_crlf,
            Text.lineEnds_crlf]
      rw [collect_cons_some hx, collect_cons_some hx', hrest, Place.past_past, List.map_cons]

namespace Revision

/-- The revision has carriage returns where the source has. -/
theorem text_crlf (source : Text) (seconds : UInt64) :
    (of source.crlf seconds).text = (of source seconds).text.crlf := by
  simp only [of, outline_crlf, List.flatMap_map, Piece.withLimit_crlf, Piece.text_crlf]
  exact List.flatMap_assoc.symm

theorem added_crlf (source : Text) (seconds : UInt64) :
    (of source.crlf seconds).added = (of source seconds).added := by
  simp only [of, outline_crlf, List.countP_map]
  exact List.countP_congr fun p _ => by simp [p.wantsLimit_crlf]

theorem limited_crlf (source : Text) (seconds : UInt64) :
    (of source.crlf seconds).limited = (of source seconds).limited := by
  simp only [of, outline_crlf, List.countP_map]
  exact List.countP_congr fun p _ => by simp [p.isLimited_crlf]

theorem unterminated_crlf (source : Text) (seconds : UInt64) :
    (of source.crlf seconds).unterminated =
      (of source seconds).unterminated.map (Unterminated.crlf source) := by
  have h := collect_unterminated?_crlf [] (outline source)
  rw [List.nil_append, flatMap_text_outline, ← outline_crlf] at h
  exact h

/-- A revision holds no carriage return that the source does not hold. -/
theorem not_mem_text {x : Char} (hd : x.isDigit = false) (hx : x ∉ Tail.insertion [] 0)
    {source : Text} (h : x ∉ source) (seconds : UInt64) : x ∉ (of source seconds).text := by
  rw [← flatMap_text_outline source, List.mem_flatMap] at h
  intro hmem
  obtain ⟨p, hp, hmem⟩ := List.mem_flatMap.1 hmem
  refine h ⟨p, hp, ?_⟩
  cases p with
  | plain t => exact hmem
  | stray hd u => exact hmem
  | test c =>
    rw [Piece.withLimit] at hmem
    split at hmem
    · exact hmem
    · have hinsertion := Tail.not_mem_insertion hd hx (Tail.split c.tail).1 seconds
      have htail (hnew : x ∈ Tail.withLimit seconds c.tail) : x ∈ c.tail := by
        rw [← Tail.split_append c.tail]
        simpa [Tail.withLimit, hinsertion] using hnew
      simp only [Piece.text, TestCase.text, List.mem_append] at hmem ⊢
      exact hmem.imp_left (.imp_right htail)

end Revision

/-! ## Listings -/

namespace Text

/-- Without its carriage returns, the new text is the old one. -/
theorem filter_crlf {t : Text} (h : '\r' ∉ t) : (crlf t).filter (· != '\r') = t := by
  induction t with
  | nil => rfl
  | cons c t ih =>
    rw [List.mem_cons, not_or] at h
    by_cases hc : c = '\n'
    · subst hc
      rw [crlf_lineEnd, List.filter_cons_of_neg (by decide), List.filter_cons_of_pos (by decide),
        ih h.2]
    · rw [crlf_cons hc, List.filter_cons_of_pos (by simpa using Ne.symm h.1), ih h.2]

theorem linesFrom_crlf {line t : Text} (hline : '\r' ∉ line) (ht : '\r' ∉ t) :
    linesFrom line (crlf t) = linesFrom line t := by
  induction t generalizing line with
  | nil => rfl
  | cons c t ih =>
    rw [List.mem_cons, not_or] at ht
    by_cases hc : c = '\n'
    · subst hc
      have hdrop : dropReturn line = line := by
        cases line with
        | nil => rfl
        | cons x line =>
          rw [dropReturn.eq_def]
          split
          · next h => exact absurd (by simp [h]) hline
          · rfl
      rw [crlf_lineEnd, linesFrom, if_neg (by decide), linesFrom, if_pos rfl, linesFrom, if_pos rfl,
        ih List.not_mem_nil ht.2, hdrop]
      rfl
    · rw [crlf_cons hc, linesFrom, linesFrom, if_neg hc, if_neg hc, ih _ ht.2]
      rw [List.mem_cons, not_or]
      exact ⟨ht.1, hline⟩

/-- The carriage returns belong to the ends of lines. -/
theorem lines_crlf {t : Text} (h : '\r' ∉ t) : lines (crlf t) = lines t :=
  linesFrom_crlf List.not_mem_nil h

end Text

/-- Two texts are listed as they were. -/
theorem Listing.between?_crlf {old new : Text} (hold : '\r' ∉ old) (hnew : '\r' ∉ new) :
    between? old.crlf new.crlf = between? old new := by
  have heq : old.crlf = new.crlf ↔ old = new := by
    refine ⟨fun h => ?_, congrArg Text.crlf⟩
    rw [← Text.filter_crlf hold, h, Text.filter_crlf hnew]
  simp only [between?, heq, changes, sideBySide, Text.lines_crlf hold, Text.lines_crlf hnew]

/-- **Line endings do not matter.** A source without carriage returns is revised as it is with one
before every line feed: the new text is the one with carriage returns, as many tests are given a
limit and as many have one, and the headers whose test never closes are reported on the same lines
and for the same brackets, each behind one more byte for every line feed before it. The listing of
what changed is the same. -/
theorem revision_of_crlf {source : Text} (h : '\r' ∉ source) (seconds : UInt64) :
    (Revision.of source.crlf seconds).text = (Revision.of source seconds).text.crlf ∧
    (Revision.of source.crlf seconds).added = (Revision.of source seconds).added ∧
    (Revision.of source.crlf seconds).limited = (Revision.of source seconds).limited ∧
    (Revision.of source.crlf seconds).unterminated =
      (Revision.of source seconds).unterminated.map (fun u =>
        { u with start := u.start + Text.lineEnds (Text.takeBytes u.start source) }) ∧
    Listing.between? source.crlf (Revision.of source seconds).text.crlf =
      Listing.between? source (Revision.of source seconds).text :=
  ⟨Revision.text_crlf source seconds, Revision.added_crlf source seconds,
    Revision.limited_crlf source seconds, Revision.unterminated_crlf source seconds,
    Listing.between?_crlf h (Revision.not_mem_text (by decide) (by decide) h seconds)⟩

/-- A header in the first lines never closes, and a test behind it has a comment in its tail. -/
theorem revision_of_crlf_behind_stray_header :
    ∃ source : Text,
      source = "\ntest('a', () async \x7b\ntest('b', () async \x7b\n\x7d, // x\n);".toList ∧
      '\r' ∉ source ∧
      (Revision.of source 5).added = 1 ∧
      (Revision.of source 5).unterminated = [⟨1, 2, .body⟩] ∧
      (Revision.of source.crlf 5).added = 1 ∧
      (Revision.of source.crlf 5).unterminated = [⟨2, 2, .body⟩] ∧
      (Revision.of source.crlf 5).text = (Revision.of source 5).text.crlf ∧
      Listing.between? source.crlf (Revision.of source 5).text.crlf =
        Listing.between? source (Revision.of source 5).text := by
  let source : Text :=
    "\ntest('a', () async \x7b\ntest('b', () async \x7b\n\x7d, // x\n);".toList
  let first : Visit := .of source ⟨1, 20⟩
  let second : Visit := .of source ⟨22, 41⟩
  have hfirst : Mark.find? source 0 = some ⟨1, 20⟩ := by decide
  have hnext : first.next = 21 := by decide
  have hsecond : Mark.find? source 21 = some ⟨22, 41⟩ := by decide
  have hlast : second.next = 52 := by decide
  have hnone : Mark.find? source 52 = none := by decide
  have hvisits : visits source = [first, second] := by
    rw [visits, visitsFrom_of_find? hfirst, hnext, visitsFrom_of_find? hsecond, hlast,
      visitsFrom_of_find?_none hnone]
  have hadded : (Revision.of source 5).added = 1 := by
    rw [Revision.added_eq, hvisits]
    decide
  have hunterminated : (Revision.of source 5).unterminated = [⟨1, 2, .body⟩] := by
    rw [Revision.unterminated_eq, hvisits]
    decide
  have hreturn : '\r' ∉ source := by decide
  obtain ⟨htext, hadded', -, hunterminated', hlisting⟩ := revision_of_crlf hreturn 5
  refine ⟨source, rfl, hreturn, hadded, hunterminated, hadded'.trans hadded, ?_, htext, hlisting⟩
  rw [hunterminated', hunterminated]
  decide

end TimeLimit
