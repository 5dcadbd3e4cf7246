import TimeLimit.Proofs.Checked.Locate

/-!
# The first balance behind an offset

Where a bracket closes can be said without a search and without a depth: at the first offset such
that the bytes from the bracket on close one more bracket than they open (`ClosesFirst`). The search
over bytes finds exactly that offset (`Checked.matchingClose_eq_some_iff`), because the depth that
it carries is at every byte the number of brackets still to be closed (`BalancesAt`). So a test is
located by two such offsets, and it is reported as unterminated, for one of its brackets, exactly
when an offset is missing (`Extent.locateFrom_eq_ok_iff`, `Extent.locateFrom_eq_error_iff`). For
marks of machine words this holds at every brace but the last word of all
(`locate_iff_closes_first`), where the search starts again at the front (`locate_behind_last_word`).
-/

namespace TimeLimit

open Text (byte bytes)

/-! ## Counts over bytes -/

/-- The first `n` bytes close `depth` more brackets than they open, and fewer bytes do not. -/
structure BalancesAt (opener closer : UInt8) (depth : Nat) (bs : List UInt8) (n : Nat) : Prop where
  le_length : n ≤ bs.length
  count_eq : (bs.take n).count closer = (bs.take n).count opener + depth
  count_ne : ∀ k < n, (bs.take k).count closer ≠ (bs.take k).count opener + depth

namespace BalancesAt

variable {opener closer b : UInt8} {depth n : Nat} {bs : List UInt8}

theorem zero_iff : BalancesAt opener closer depth bs 0 ↔ depth = 0 := by
  constructor
  · intro h
    simpa using h.count_eq.symm
  · rintro rfl
    exact ⟨Nat.zero_le _, by simp, nofun⟩

theorem iff_of_depth_zero : BalancesAt opener closer 0 bs n ↔ n = 0 := by
  constructor
  · intro h
    refine Nat.eq_zero_of_not_pos fun hn => h.count_ne 0 hn ?_
    simp
  · rintro rfl
    exact zero_iff.2 rfl

/-- Behind one more byte in front there is as much to be closed as before, and more by one behind an
opening and less by one behind a closing bracket. -/
theorem cons_iff {depth' : Nat} (hdepth : 0 < depth)
    (hb : [b].count opener + depth = [b].count closer + depth') :
    BalancesAt opener closer depth (b :: bs) (n + 1) ↔ BalancesAt opener closer depth' bs n := by
  have hcount (x : UInt8) (k : Nat) :
      ((b :: bs).take (k + 1)).count x = [b].count x + (bs.take k).count x := by
    rw [List.take_succ_cons, ← List.singleton_append, List.count_append]
  constructor
  · intro h
    have hlength := h.le_length
    have heq := h.count_eq
    rw [hcount, hcount] at heq
    rw [List.length_cons] at hlength
    refine ⟨by omega, by omega, fun k hk => ?_⟩
    have hne := h.count_ne (k + 1) (by omega)
    rw [hcount, hcount] at hne
    omega
  · intro h
    have hlength := h.le_length
    have heq := h.count_eq
    refine ⟨by rw [List.length_cons]; omega, by rw [hcount, hcount]; omega, fun k hk => ?_⟩
    cases k with
    | zero => simpa using Nat.ne_of_lt hdepth
    | succ k =>
      have hne := h.count_ne k (by omega)
      rw [hcount, hcount]
      omega

/-- What is found from an offset on stands behind one byte at least, and there it is what is found
from the next offset on. -/
theorem exists_cons_iff {depth' offset stop : Nat} (hdepth : 0 < depth)
    (hb : [b].count opener + depth = [b].count closer + depth') :
    (∃ n, stop = offset + n ∧ BalancesAt opener closer depth (b :: bs) n) ↔
      ∃ n, stop = offset + 1 + n ∧ BalancesAt opener closer depth' bs n := by
  constructor
  · rintro ⟨n, rfl, h⟩
    cases n with
    | zero =>
      have := zero_iff.1 h
      omega
    | succ n => exact ⟨n, by omega, (cons_iff hdepth hb).1 h⟩
  · rintro ⟨n, rfl, h⟩
    exact ⟨n + 1, by omega, (cons_iff hdepth hb).2 h⟩

end BalancesAt

/-- The search carries as its depth how many more brackets are to be closed than opened, and stops
where that many are. -/
theorem Checked.matchingClose_eq_some_iff {opener closer : UInt8} (hne : opener ≠ closer)
    {depth offset stop : Nat} (hdepth : 0 < depth) {bs : List UInt8} :
    matchingClose opener closer depth offset bs = .ok (some stop) ↔
      ∃ n, stop = offset + n ∧ BalancesAt opener closer depth bs n := by
  induction bs generalizing depth offset with
  | nil =>
    refine iff_of_false nofun ?_
    rintro ⟨n, -, h⟩
    obtain rfl : n = 0 := Nat.le_zero.1 h.le_length
    have := BalancesAt.zero_iff.1 h
    omega
  | cons b bs ih =>
    rw [matchingClose]
    by_cases ho : b = opener
    · subst ho
      have hcloser : [b].count closer = 0 := List.count_eq_zero.2 (by simpa using hne.symm)
      have hb : [b].count b + depth = [b].count closer + (depth + 1) := by
        rw [hcloser, List.count_singleton_self]
        omega
      rw [if_pos rfl, ih (Nat.succ_pos depth), BalancesAt.exists_cons_iff hdepth hb]
    have hopener : [b].count opener = 0 := List.count_eq_zero.2 (by simpa using Ne.symm ho)
    rw [if_neg ho]
    by_cases hc : b = closer
    · subst hc
      obtain ⟨depth, rfl⟩ : ∃ d, depth = d + 1 := ⟨depth - 1, by omega⟩
      have hb : [b].count opener + (depth + 1) = [b].count b + depth := by
        rw [hopener, List.count_singleton_self]
        omega
      rw [if_pos rfl, sub_of_le hdepth, Nat.add_sub_cancel, BalancesAt.exists_cons_iff hdepth hb]
      cases depth with
      | zero =>
        simp only [Except.ok.injEq, Option.some.injEq, BalancesAt.iff_of_depth_zero,
          exists_eq_right, Nat.add_zero]
        exact eq_comm
      | succ depth => exact ih (Nat.succ_pos depth)
    · have hcloser : [b].count closer = 0 := List.count_eq_zero.2 (by simpa using Ne.symm hc)
      have hb : [b].count opener + depth = [b].count closer + depth := by rw [hopener, hcloser]
      rw [if_neg hc, ih hdepth, BalancesAt.exists_cons_iff hdepth hb]

/-! ## Offsets in a source -/

/-- The bytes of a text between two offsets. -/
def Text.bytesBetween (start stop : Nat) (t : Text) : List UInt8 :=
  ((bytes t).drop start).take (stop - start)

/-- Behind an offset, `stop` is the first one such that the bytes between the two close one more
bracket than they open. -/
structure ClosesFirst (opener closer : Char) (source : Text) (start stop : Nat) : Prop where
  start_lt : start < stop
  stop_le : stop ≤ Text.size source
  one_more : (source.bytesBetween start stop).count (byte closer) =
    (source.bytesBetween start stop).count (byte opener) + 1
  no_shorter : ∀ k, start ≤ k → k < stop → (source.bytesBetween start k).count (byte closer) ≠
    (source.bytesBetween start k).count (byte opener) + 1

namespace ClosesFirst

variable {opener closer : Char} {source : Text} {start stop stop' : Nat}

/-- There is one such offset at most. -/
theorem eq (h : ClosesFirst opener closer source start stop)
    (h' : ClosesFirst opener closer source start stop') : stop = stop' := by
  rcases Nat.lt_trichotomy stop stop' with hlt | heq | hlt
  · exact absurd h.one_more (h'.no_shorter stop (Nat.le_of_lt h.start_lt) hlt)
  · exact heq
  · exact absurd h'.one_more (h.no_shorter stop' (Nat.le_of_lt h'.start_lt) hlt)

/-- It does not depend on what follows it. -/
theorem append (h : ClosesFirst opener closer source start stop) (t : Text) :
    ClosesFirst opener closer (source ++ t) start stop := by
  obtain ⟨hlt, hle, hcount, hno⟩ := h
  have hrange {k : Nat} (hk : k ≤ stop) :
      Text.bytesBetween start k (source ++ t) = source.bytesBetween start k := by
    have hlength := Text.length_bytes source
    rw [Text.bytesBetween, Text.bytesBetween, bytes, List.flatMap_append, ← bytes,
      List.drop_append_of_le_length (by omega),
      List.take_append_of_le_length (by rw [List.length_drop]; omega)]
  refine ⟨hlt, by rw [Text.size_append]; omega, ?_, fun k hk hks => ?_⟩
  · rw [hrange (Nat.le_refl stop)]
    exact hcount
  · rw [hrange (Nat.le_of_lt hks)]
    exact hno k hk hks

/-- In the bytes behind the first offset it is where one more bracket is closed. -/
theorem iff_balancesAt : ClosesFirst opener closer source start stop ↔
    ∃ n, stop = start + n ∧
      BalancesAt (byte opener) (byte closer) 1 ((bytes source).drop start) n := by
  have hlength : ((bytes source).drop start).length = Text.size source - start := by
    rw [List.length_drop, Text.length_bytes]
  constructor
  · rintro ⟨hlt, hle, hcount, hno⟩
    refine ⟨stop - start, by omega, by omega, hcount, fun k hk => ?_⟩
    have hne := hno (start + k) (Nat.le_add_right start k) (by omega)
    rwa [Text.bytesBetween, Nat.add_sub_cancel_left] at hne
  · rintro ⟨n, rfl, h⟩
    have hpos : 0 < n := Nat.pos_of_ne_zero fun hn => by
      subst hn
      exact absurd (BalancesAt.zero_iff.1 h) (by decide)
    have hle := h.le_length
    refine ⟨by omega, by omega, ?_, fun k hk hks => h.count_ne (k - start) (by omega)⟩
    rw [Text.bytesBetween, Nat.add_sub_cancel_left]
    exact h.count_eq

end ClosesFirst

/-! ## Located tests -/

namespace Checked

/-- A search from an offset on finds the first offset that closes, if there is one. -/
theorem close_eq_some_iff {opener closer : Char} (hopener : opener.toNat < 128)
    (hcloser : closer.toNat < 128) (hne : opener ≠ closer) {source : Text} {start stop : Nat} :
    close opener closer start source = .ok (some stop) ↔
      ClosesFirst opener closer source start stop := by
  rw [ClosesFirst.iff_balancesAt, close]
  split
  · next hlt =>
    refine iff_of_false (fun hnone => ?_) ?_
    · cases hnone
    rintro ⟨n, rfl, h⟩
    have hle := h.le_length
    rw [List.length_drop] at hle
    obtain rfl : n = 0 := by omega
    exact absurd (BalancesAt.zero_iff.1 h) (by decide)
  · exact matchingClose_eq_some_iff (mt (Text.byte_inj hopener hcloser).1 hne) Nat.one_pos

/-- A search from an offset on ends, with the first offset that closes or with none. -/
theorem exists_close_eq {opener closer : Char} (hopener : opener.toNat < 128)
    (hcloser : closer.toNat < 128) (hne : opener ≠ closer) (source : Text) (start : Nat) :
    ∃ found, close opener closer start source = .ok found ∧
      ∀ stop, found = some stop ↔ ClosesFirst opener closer source start stop := by
  refine ⟨_, close_eq hopener hcloser hne start source, fun stop => ?_⟩
  rw [← close_eq_some_iff hopener hcloser hne, close_eq hopener hcloser hne, Except.ok.injEq]

end Checked

/-- The line of an offset is one more than the line feeds among the bytes before it. -/
theorem Text.lineAt_eq_count (offset : Nat) (source : Text) :
    lineAt offset source = 1 + ((bytes source).take offset).count (byte '\n') := by
  have hline := Checked.lineOf_eq source offset
  rw [Checked.lineOf, Checked.front, if_neg (by omega)] at hline
  have htake : (bytes source).take (min offset (bytes source).length) =
      (bytes source).take offset := List.take_eq_take_iff.2 (by omega)
  rw [← Except.ok.inj hline, htake, Nat.add_comm]

namespace Extent

variable {source : Text} {m : Mark} {offset : Nat} {e : Extent}

/-- From an offset on a test is located, or it is reported for the first of its brackets that never
closes. -/
theorem locateFrom_cases (source : Text) (m : Mark) (offset : Nat) :
    (¬ ∃ bodyEnd, ClosesFirst '{' '}' source offset bodyEnd) ∧
        locateFrom source m offset = .error ⟨m.start, Text.lineAt m.start source, .body⟩ ∨
      ∃ bodyEnd, ClosesFirst '{' '}' source offset bodyEnd ∧
        ((¬ ∃ stop, ClosesFirst '(' ')' source bodyEnd stop) ∧
            locateFrom source m offset = .error ⟨m.start, Text.lineAt m.start source, .call⟩ ∨
          ∃ stop, ClosesFirst '(' ')' source bodyEnd stop ∧
            locateFrom source m offset = .ok ⟨m.start, m.brace, bodyEnd, stop⟩) := by
  obtain ⟨body, hbody, hbodyEnd⟩ := Checked.exists_close_eq (by decide : ('{').toNat < 128)
    (by decide : ('}').toNat < 128) (by decide) source offset
  have hlocate := Checked.locateFrom_eq source m offset
  rw [Checked.locateFrom, hbody, ok_bind] at hlocate
  cases body with
  | none =>
    rw [Checked.lineOf_eq] at hlocate
    refine .inl ⟨?_, (Except.ok.inj hlocate).symm⟩
    rintro ⟨bodyEnd, h⟩
    cases (hbodyEnd bodyEnd).2 h
  | some bodyEnd =>
    obtain ⟨call, hcall, hstop⟩ := Checked.exists_close_eq (by decide : ('(').toNat < 128)
      (by decide : (')').toNat < 128) (by decide) source bodyEnd
    simp only [hcall, ok_bind] at hlocate
    refine .inr ⟨bodyEnd, (hbodyEnd bodyEnd).1 rfl, ?_⟩
    cases call with
    | none =>
      rw [Checked.lineOf_eq] at hlocate
      refine .inl ⟨?_, (Except.ok.inj hlocate).symm⟩
      rintro ⟨stop, h⟩
      cases (hstop stop).2 h
    | some stop => exact .inr ⟨stop, (hstop stop).1 rfl, (Except.ok.inj hlocate).symm⟩

/-- A test is located at the two offsets where its brackets close first. -/
theorem locateFrom_eq_ok_iff : locateFrom source m offset = .ok e ↔
    e.start = m.start ∧ e.brace = m.brace ∧ ClosesFirst '{' '}' source offset e.bodyEnd ∧
      ClosesFirst '(' ')' source e.bodyEnd e.stop := by
  obtain ⟨start, brace, bodyEnd, stop⟩ := e
  constructor
  · intro h
    rcases locateFrom_cases source m offset with
      ⟨-, h'⟩ | ⟨bodyEnd', hb, ⟨-, h'⟩ | ⟨stop', hs, h'⟩⟩ <;> rw [h'] at h <;> cases h
    exact ⟨rfl, rfl, hb, hs⟩
  · rintro ⟨rfl, rfl, hb, hs⟩
    rcases locateFrom_cases source m offset with ⟨hno, -⟩ | ⟨bodyEnd', hb', hcall⟩
    · exact absurd ⟨_, hb⟩ hno
    · obtain rfl := hb'.eq hb
      rcases hcall with ⟨hno, -⟩ | ⟨stop', hs', h⟩
      · exact absurd ⟨_, hs⟩ hno
      · rw [h, hs'.eq hs]

/-- A test is unterminated when one of the two offsets is missing, the body's first. -/
theorem locateFrom_eq_error_iff {u : Unterminated} : locateFrom source m offset = .error u ↔
    u.start = m.start ∧ u.line = Text.lineAt m.start source ∧
      (u.unclosed = .body ∧ (¬ ∃ bodyEnd, ClosesFirst '{' '}' source offset bodyEnd) ∨
        u.unclosed = .call ∧ ∃ bodyEnd, ClosesFirst '{' '}' source offset bodyEnd ∧
          ¬ ∃ stop, ClosesFirst '(' ')' source bodyEnd stop) := by
  obtain ⟨start, line, unclosed⟩ := u
  constructor
  · intro h
    rcases locateFrom_cases source m offset with
      ⟨hno, h'⟩ | ⟨bodyEnd, hb, ⟨hno, h'⟩ | ⟨stop, hs, h'⟩⟩ <;> rw [h'] at h <;> cases h
    · exact ⟨rfl, rfl, .inl ⟨rfl, hno⟩⟩
    · exact ⟨rfl, rfl, .inr ⟨rfl, bodyEnd, hb, hno⟩⟩
  · rintro ⟨rfl, rfl, ⟨rfl, hno⟩ | ⟨rfl, bodyEnd, hb, hno⟩⟩
    · rcases locateFrom_cases source m offset with ⟨-, h⟩ | ⟨bodyEnd, hb, -⟩
      · exact h
      · exact absurd ⟨_, hb⟩ hno
    · rcases locateFrom_cases source m offset with ⟨hno', -⟩ | ⟨bodyEnd', hb', hcall⟩
      · exact absurd ⟨_, hb⟩ hno'
      · obtain rfl := hb'.eq hb
        rcases hcall with ⟨-, h⟩ | ⟨stop, hs, -⟩
        · exact h
        · exact absurd ⟨_, hs⟩ hno

end Extent

/-- The word behind a word is one more, but for the last word of all. -/
theorem toNat_add_one {w : UInt64} (h : w.toNat + 1 < UInt64.size) :
    (w + 1).toNat = w.toNat + 1 := by
  rw [UInt64.toNat_add]
  exact Nat.mod_eq_of_lt h

end TimeLimit
