/-
What a scanner reads.

`Reads` is the closure of reading a character that is there, and of noting an
error.  Every function of the scanner keeps to it, except that a literal without
its end makes the scanner read once more at the end of the input (`ReadsPast`).

A character that is there shortens the text, so the characters read and the
length of the text have a sum that does not grow.  This bounds the steps of every
loop, and the rounds that the loops are given suffice.
-/

import McoaGateway.TextScanner

namespace McoaGateway

open GoString

namespace Scanner

variable {P Q : Nat → Prop} {s s' s'' : Scanner} {r : Nat}

/-! ### One character -/

theorem text_fill (s : Scanner) : s.fill.text = s.text := by
  unfold fill text
  split
  · dsimp only
    rw [List.append_assoc, List.take_append_drop]
  · rfl

theorem checkRune_cases (s : Scanner) : s.checkRune = s ∨ ∃ e, s.checkRune = s.error e := by
  unfold checkRune
  split
  · exact Or.inl rfl
  · split
    · exact Or.inr ⟨_, rfl⟩
    · split
      · exact Or.inr ⟨_, rfl⟩
      · exact Or.inl rfl

theorem text_checkRune (s : Scanner) : s.checkRune.text = s.text := by
  rcases checkRune_cases s with same | ⟨e, isError⟩
  · rw [same]
  · rw [isError]
    rfl

theorem steps_checkRune (s : Scanner) : s.checkRune.steps = s.steps := by
  rcases checkRune_cases s with same | ⟨e, isError⟩
  · rw [same]
  · rw [isError]
    rfl

theorem errors_checkRune (s : Scanner) : s.errors <+: s.checkRune.errors := by
  rcases checkRune_cases s with same | ⟨e, isError⟩
  · rw [same]
  · rw [isError]
    exact List.prefix_append _ _

theorem errors_fill (s : Scanner) : s.fill.errors = s.errors := by
  unfold fill
  split <;> rfl

theorem steps_fill (s : Scanner) : s.fill.steps = s.steps := by
  unfold fill
  split <;> rfl

theorem text_next (s : Scanner) :
    s.next.text = s.held.drop (decodeRune s.held).2 ++ s.reader := by
  rw [next, text_checkRune, text_fill]
  rfl

theorem steps_next (s : Scanner) : s.next.steps = s.steps + 1 := by
  rw [next, steps_checkRune, steps_fill]

theorem errors_next (s : Scanner) : s.errors <+: s.next.errors := by
  rw [next]
  refine List.IsPrefix.trans ?_ (errors_checkRune _)
  rw [errors_fill]

theorem text_next_suffix (s : Scanner) : s.next.text <:+ s.text := by
  rw [text_next, text]
  exact List.suffix_append_inj_of_length_eq rfl |>.mpr ⟨List.drop_suffix _ _, rfl⟩

theorem reader_checkRune (s : Scanner) : s.checkRune.reader = s.reader := by
  rcases checkRune_cases s with same | ⟨e, isError⟩
  · rw [same]
  · rw [isError]
    rfl

theorem reader_next_suffix (s : Scanner) : s.next.reader <:+ s.reader := by
  rw [next, reader_checkRune, fill]
  split
  · exact List.drop_suffix _ _
  · exact List.suffix_refl _

theorem held_of_ch_none (atEnd : s.ch = none) : s.held = [] := by
  unfold ch at atEnd
  split at atEnd
  · assumption
  · cases atEnd

theorem text_next_of_ch_none (atEnd : s.ch = none) : s.next.text = s.text := by
  rw [text_next, text, held_of_ch_none atEnd, List.drop_nil]

structure IsPiece (r : Nat) (piece : GoString) : Prop where
  nonempty : piece ≠ []
  ascii : r < 0x80 → piece = [UInt8.ofNat r]
  high : 0x80 ≤ r → ∀ b ∈ piece, 0x80 ≤ b.toNat
  encoded : r ≠ runeError → piece = encodeRune r

theorem decodeRune_piece (b : UInt8) (rest : GoString) :
    IsPiece (decodeRune (b :: rest)).1 ((b :: rest).take (decodeRune (b :: rest)).2) := by
  rcases decodeRune_cases b rest with
    ⟨isAscii, decoded⟩ | ⟨r, tail, notAscii, _, isText, decoded⟩ | ⟨high, decoded⟩
  · rw [decoded]
    have same : UInt8.ofNat b.toNat = b := UInt8.ofNat_toNat
    have encoded : encodeRune b.toNat = [b] := by
      rw [encodeRune, if_pos isAscii, same]
    dsimp only
    rw [List.take_succ_cons, List.take_zero]
    refine ⟨List.cons_ne_nil _ _, fun _ => by rw [same], fun notAscii => ?_, fun _ => encoded.symm⟩
    omega
  · rw [decoded]
    dsimp only
    rw [isText, List.take_left]
    refine ⟨encodeRune_ne_nil r, fun isAscii => ?_, fun _ => encodeRune_not_ascii r notAscii,
      fun _ => rfl⟩
    omega
  · rw [decoded]
    dsimp only
    rw [List.take_succ_cons, List.take_zero]
    refine ⟨List.cons_ne_nil _ _, fun isAscii => absurd isAscii (by decide), fun _ own member => ?_,
      fun notError => absurd rfl notError⟩
    rw [List.mem_singleton.mp member]
    exact high

theorem next_piece (isCh : s.ch = some r) :
    ∃ piece, IsPiece r piece ∧ s.text = piece ++ s.next.text := by
  unfold ch at isCh
  split at isCh
  · cases isCh
  · rename_i present
    cases isCh
    obtain ⟨b, rest, isHeld⟩ := List.exists_cons_of_ne_nil present
    refine ⟨s.held.take (decodeRune s.held).2, ?_, ?_⟩
    · rw [isHeld]
      exact decodeRune_piece b rest
    · rw [text_next, text, ← List.append_assoc, List.take_append_drop]

theorem length_next_lt (isCh : s.ch = some r) : s.next.text.length < s.text.length := by
  obtain ⟨piece, isPiece, isText⟩ := next_piece isCh
  have positive := List.length_pos_iff.mpr isPiece.nonempty
  rw [isText, List.length_append]
  omega

/-! ### `Reads` -/

/-- The second scanner comes from the first one by reading characters with a
property, and by noting errors. -/
inductive Reads (P : Nat → Prop) (s : Scanner) : Scanner → Prop where
  | refl : Reads P s s
  | next {s' : Scanner} {r : Nat} (before : Reads P s s') (isCh : s'.ch = some r)
      (allowed : P r) : Reads P s s'.next
  | error {s' : Scanner} (before : Reads P s s') (e : ScanError) : Reads P s (s'.error e)

abbrev ReadsAny (s s' : Scanner) : Prop :=
  Reads (fun _ => True) s s'

theorem Reads.trans (first : Reads P s s') (second : Reads P s' s'') : Reads P s s'' := by
  induction second with
  | refl => exact first
  | next _ isCh allowed ih => exact ih.next isCh allowed
  | error _ e ih => exact ih.error e

theorem Reads.mono (reads : Reads P s s') (weaker : ∀ r, P r → Q r) : Reads Q s s' := by
  induction reads with
  | refl => exact .refl
  | next _ isCh allowed ih => exact ih.next isCh (weaker _ allowed)
  | error _ e ih => exact ih.error e

theorem Reads.any (reads : Reads P s s') : ReadsAny s s' :=
  reads.mono fun _ _ => trivial

theorem reads_next (isCh : s.ch = some r) : ReadsAny s s.next :=
  .next .refl isCh trivial

theorem Reads.errors (reads : Reads P s s') : s.errors <+: s'.errors := by
  induction reads with
  | refl => exact List.prefix_refl _
  | next _ _ _ ih => exact ih.trans (errors_next _)
  | error _ e ih => exact ih.trans (List.prefix_append _ _)

theorem Reads.text_suffix (reads : Reads P s s') : s'.text <:+ s.text := by
  induction reads with
  | refl => exact List.suffix_refl _
  | next _ _ _ ih => exact (text_next_suffix _).trans ih
  | error _ e ih => exact ih

theorem Reads.reader_suffix (reads : Reads P s s') : s'.reader <:+ s.reader := by
  induction reads with
  | refl => exact List.suffix_refl _
  | next _ _ _ ih => exact (reader_next_suffix _).trans ih
  | error _ e ih => exact ih

theorem Reads.length_le (reads : Reads P s s') : s'.text.length ≤ s.text.length :=
  reads.text_suffix.length_le

theorem Reads.steps_le (reads : Reads P s s') :
    s'.steps + s'.text.length ≤ s.steps + s.text.length := by
  induction reads with
  | refl => exact Nat.le_refl _
  | next _ isCh _ ih =>
      have shorter := length_next_lt isCh
      rw [steps_next]
      omega
  | error _ e ih => exact ih

/-! The bytes between two points. -/

theorem since_eq {front : GoString} (isText : s.text = front ++ s'.text) :
    s.since s' = front := by
  rw [since, isText, List.length_append, Nat.add_sub_cancel, List.take_left]

theorem text_eq_since (suffix : s'.text <:+ s.text) : s.text = s.since s' ++ s'.text := by
  obtain ⟨front, isText⟩ := suffix
  rw [since_eq isText.symm, isText]

theorem Reads.since_bytes {B : UInt8 → Prop} (reads : Reads P s s')
    (low : ∀ r, P r → r < 0x80 → B (UInt8.ofNat r))
    (high : ∀ r, P r → 0x80 ≤ r → ∀ b : UInt8, 0x80 ≤ b.toNat → B b) :
    ∀ b ∈ s.since s', B b := by
  have front : ∃ front, s.text = front ++ s'.text ∧ ∀ b ∈ front, B b := by
    induction reads with
    | refl => exact ⟨[], rfl, fun _ member => absurd member List.not_mem_nil⟩
    | error _ e ih => exact ih
    | @next middle r _ isCh allowed ih =>
        obtain ⟨front, isText, bytes⟩ := ih
        obtain ⟨piece, isPiece, isMiddle⟩ := next_piece isCh
        refine ⟨front ++ piece, by rw [isText, isMiddle, List.append_assoc], ?_⟩
        intro b member
        rcases List.mem_append.mp member with inFront | inPiece
        · exact bytes b inFront
        · by_cases isAscii : r < 0x80
          · rw [isPiece.ascii isAscii, List.mem_singleton] at inPiece
            rw [inPiece]
            exact low r allowed isAscii
          · have notAscii : 0x80 ≤ r := Nat.le_of_not_lt isAscii
            exact high r allowed notAscii b (isPiece.high notAscii b inPiece)
  obtain ⟨front, isText, bytes⟩ := front
  rw [since_eq isText]
  exact bytes

/-! ### Reading once more at the end -/

/-- Reading that may go on for one step at the end of the input. -/
def ReadsPast (s s' : Scanner) : Prop :=
  ∃ middle, ReadsAny s middle ∧ (s' = middle ∨ middle.ch = none ∧ s' = middle.next)

theorem Reads.past (reads : Reads P s s') : ReadsPast s s' :=
  ⟨s', reads.any, Or.inl rfl⟩

theorem readsPast_refl (s : Scanner) : ReadsPast s s :=
  ⟨s, .refl, Or.inl rfl⟩

theorem Reads.next_past (reads : Reads P s s') : ReadsPast s s'.next := by
  cases isCh : s'.ch with
  | none => exact ⟨s', reads.any, Or.inr ⟨isCh, rfl⟩⟩
  | some r => exact (reads.any.next isCh trivial).past

theorem Reads.trans_past (first : Reads P s s') (second : ReadsPast s' s'') : ReadsPast s s'' := by
  obtain ⟨middle, reads, last⟩ := second
  exact ⟨middle, first.any.trans reads, last⟩

theorem ReadsPast.text_suffix (reads : ReadsPast s s') : s'.text <:+ s.text := by
  obtain ⟨middle, reads, rfl | ⟨_, rfl⟩⟩ := reads
  · exact reads.text_suffix
  · exact (text_next_suffix middle).trans reads.text_suffix

/-! ### The buffer -/

/-- The buffer is empty only at the end of the input. -/
structure Fed (s : Scanner) : Prop where
  capacity : 0 < s.capacity
  reader : s.held = [] → s.reader = []

theorem fed_fill (positive : 0 < s.capacity) : Fed s.fill := by
  unfold fill
  split
  · refine ⟨positive, fun empty => ?_⟩
    obtain ⟨noHeld, nothing⟩ := List.append_eq_nil_iff.mp empty
    dsimp only
    rw [noHeld] at nothing ⊢
    rcases List.take_eq_nil_iff.mp nothing with noRoom | noReader
    · exact absurd positive (by rw [List.length_nil] at noRoom; omega)
    · rw [noReader, List.drop_nil]
  · rename_i full
    refine ⟨positive, fun empty => ?_⟩
    rw [empty] at full
    exact absurd rfl full

theorem Fed.error (fed : Fed s) (e : ScanError) : Fed (s.error e) :=
  ⟨fed.capacity, fed.reader⟩

theorem Fed.checkRune (fed : Fed s) : Fed s.checkRune := by
  rcases checkRune_cases s with same | ⟨e, isError⟩
  · rw [same]
    exact fed
  · rw [isError]
    exact fed.error e

theorem Fed.next (fed : Fed s) : Fed s.next := by
  rw [Scanner.next]
  apply Fed.checkRune
  apply fed_fill
  exact fed.capacity

theorem fed_ofText {capacity : Nat} (positive : 0 < capacity) (input : GoString) :
    Fed (ofText capacity input) := by
  have first : Fed (Scanner.mk capacity [] input [] 1).fill.checkRune :=
    (fed_fill positive).checkRune
  unfold ofText
  dsimp only
  split
  · exact first.next
  · exact first

theorem Fed.text_of_ch_none (fed : Fed s) (atEnd : s.ch = none) : s.text = [] := by
  have empty := held_of_ch_none atEnd
  rw [text, empty, fed.reader empty, List.append_nil]

theorem Reads.fed (reads : Reads P s s') (fed : Fed s) : Fed s' := by
  induction reads with
  | refl => exact fed
  | next _ _ _ ih => exact ih.next
  | error _ e ih => exact ih.error e

theorem ReadsPast.fed (reads : ReadsPast s s') (fed : Fed s) : Fed s' := by
  obtain ⟨middle, reads, rfl | ⟨_, rfl⟩⟩ := reads
  · exact reads.fed fed
  · exact (reads.fed fed).next

theorem Fed.after {copy : Scanner} (fed : Fed s) (suffix : copy.reader <:+ s.reader) :
    Fed (s.after copy) := by
  refine ⟨fed.capacity, fun empty => ?_⟩
  rw [fed.reader empty] at suffix
  exact List.suffix_nil.mp suffix

/-- Two scanners that differ at most in their errors and steps. -/
structure SameBuffer (s s' : Scanner) : Prop where
  capacity : s'.capacity = s.capacity
  held : s'.held = s.held
  reader : s'.reader = s.reader

theorem SameBuffer.text (same : SameBuffer s s') : s'.text = s.text := by
  rw [Scanner.text, same.held, same.reader]
  rfl

theorem SameBuffer.ch (same : SameBuffer s s') : s'.ch = s.ch := by
  rw [Scanner.ch, same.held]
  rfl

theorem sameBuffer_checkRune (s : Scanner) : SameBuffer s s.checkRune := by
  rcases checkRune_cases s with same | ⟨e, isError⟩
  · rw [same]
    exact ⟨rfl, rfl, rfl⟩
  · rw [isError]
    exact ⟨rfl, rfl, rfl⟩

theorem SameBuffer.fill (same : SameBuffer s s') : SameBuffer s.fill s'.fill := by
  unfold Scanner.fill
  rw [same.held]
  split
  · exact ⟨same.capacity, by rw [same.capacity, same.reader], by rw [same.capacity, same.reader]⟩
  · exact same

theorem SameBuffer.next (same : SameBuffer s s') : SameBuffer s.next s'.next := by
  have dropped : SameBuffer
      { s with held := s.held.drop (decodeRune s.held).2, steps := s.steps + 1 }
      { s' with held := s'.held.drop (decodeRune s'.held).2, steps := s'.steps + 1 } :=
    ⟨same.capacity, by rw [same.held], same.reader⟩
  have filled := dropped.fill
  have first := sameBuffer_checkRune
    { s with held := s.held.drop (decodeRune s.held).2, steps := s.steps + 1 }.fill
  have second := sameBuffer_checkRune
    { s' with held := s'.held.drop (decodeRune s'.held).2, steps := s'.steps + 1 }.fill
  unfold Scanner.next
  exact ⟨second.capacity.trans (filled.capacity.trans first.capacity.symm),
    second.held.trans (filled.held.trans first.held.symm),
    second.reader.trans (filled.reader.trans first.reader.symm)⟩

theorem SameBuffer.iterate (same : SameBuffer s s') (count : Nat) :
    SameBuffer (Nat.iterate Scanner.next count s) (Nat.iterate Scanner.next count s') := by
  induction count generalizing s s' with
  | zero => exact same
  | succ count ih => exact ih same.next

/-- A copy that has read from the buffer only leaves the original as it is. -/
theorem sameBuffer_after {copy : Scanner} (same : copy.reader = s.reader) :
    SameBuffer s (s.after copy) :=
  ⟨rfl, rfl, same⟩

/-! ### Progress -/

/-- The second scanner is not behind the first one, and its steps are paid for by
the text that it has read and by an amount besides. -/
structure Advances (extra : Nat) (s s' : Scanner) : Prop where
  errors : s.errors <+: s'.errors
  reader : s'.reader <:+ s.reader
  text : s'.text.Sublist s.text
  fed : Fed s → Fed s'
  steps : s'.steps + s'.text.length ≤ s.steps + s.text.length + extra

theorem Advances.length {extra : Nat} (advances : Advances extra s s') :
    s'.text.length ≤ s.text.length :=
  advances.text.length_le

theorem Advances.trans {first second : Nat} (front : Advances first s s')
    (back : Advances second s' s'') : Advances (first + second) s s'' := by
  have frontSteps := front.steps
  have backSteps := back.steps
  exact ⟨front.errors.trans back.errors, back.reader.trans front.reader,
    back.text.trans front.text, fun fed => back.fed (front.fed fed), by omega⟩

theorem Advances.mono {extra more : Nat} (advances : Advances extra s s') (le : extra ≤ more) :
    Advances more s s' := by
  have steps := advances.steps
  exact ⟨advances.errors, advances.reader, advances.text, advances.fed, by omega⟩

theorem Reads.advances (reads : Reads P s s') : Advances 0 s s' :=
  ⟨reads.errors, reads.reader_suffix, reads.text_suffix.sublist, reads.fed, reads.steps_le⟩

theorem advances_refl (s : Scanner) : Advances 0 s s :=
  (Reads.refl : ReadsAny s s).advances

theorem advances_next (s : Scanner) : Advances 1 s s.next := by
  have shorter := (text_next_suffix s).length_le
  refine ⟨errors_next s, reader_next_suffix s, (text_next_suffix s).sublist, Fed.next, ?_⟩
  rw [steps_next]
  omega

theorem ReadsPast.advances (reads : ReadsPast s s') : Advances 1 s s' := by
  obtain ⟨middle, reads, rfl | ⟨_, rfl⟩⟩ := reads
  · exact reads.advances.mono (by decide)
  · exact (reads.advances.trans (advances_next middle)).mono (by decide)

theorem Advances.after {extra : Nat} {copy : Scanner} (advances : Advances extra s copy) :
    Advances (extra + s.text.length) s (s.after copy) := by
  have part : (s.after copy).text.Sublist s.text :=
    List.Sublist.append (List.Sublist.refl s.held) advances.reader.sublist
  have shorter := part.length_le
  have steps := advances.steps
  refine ⟨advances.errors, advances.reader, part, fun fed => fed.after advances.reader, ?_⟩
  rw [show (s.after copy).steps = copy.steps from rfl]
  omega

theorem advances_iterate (count : Nat) (s : Scanner) :
    Advances count s (Nat.iterate next count s) := by
  induction count generalizing s with
  | zero => exact advances_refl s
  | succ count ih =>
      exact ((advances_next s).trans (ih s.next)).mono (by omega)

/-! ### Loops over characters -/

/-- Some character that is still to come has the property. -/
inductive Ahead (P : Nat → Prop) : Scanner → Prop where
  | here {s : Scanner} {r : Nat} (isCh : s.ch = some r) (holds : P r) : Ahead P s
  | later {s : Scanner} {r : Nat} (isCh : s.ch = some r) (rest : Ahead P s.next) : Ahead P s

theorem reads_skipRounds (skips : Nat → Bool) (allowed : ∀ r, skips r = true → P r)
    (rounds : Nat) (s : Scanner) : Reads P s (skipRounds skips rounds s) := by
  induction rounds generalizing s with
  | zero => exact .refl
  | succ rounds ih =>
      rw [skipRounds]
      cases isCh : s.ch with
      | none => exact .refl
      | some r =>
          dsimp only
          by_cases skip : skips r = true
          · rw [if_pos skip]
            exact (Reads.next .refl isCh (allowed r skip)).trans (ih s.next)
          · rw [if_neg skip]
            exact .refl

theorem reads_skipWhile (skips : Nat → Bool) (allowed : ∀ r, skips r = true → P r)
    (s : Scanner) : Reads P s (s.skipWhile skips) :=
  reads_skipRounds skips allowed _ s

theorem reads_skipWhile_any (skips : Nat → Bool) (s : Scanner) :
    ReadsAny s (s.skipWhile skips) :=
  reads_skipWhile skips (fun _ _ => trivial) s

theorem reads_skipWhile_next (skips : Nat → Bool) (allowed : ∀ r, skips r = true → P r)
    (isCh : s.ch = some r) (skip : skips r = true) :
    Reads P s.next (s.skipWhile skips) := by
  obtain ⟨rounds, isLength⟩ := Nat.exists_eq_add_of_lt (length_next_lt isCh)
  rw [skipWhile, isLength, skipRounds, isCh]
  dsimp only
  rw [if_pos skip]
  exact reads_skipRounds skips allowed _ _

theorem skipRounds_stops (skips : Nat → Bool) (rounds : Nat) (s : Scanner)
    (enough : s.text.length ≤ rounds) :
    ∀ r, (skipRounds skips rounds s).ch = some r → skips r = false := by
  induction rounds generalizing s with
  | zero =>
      intro r isCh
      have shorter := length_next_lt (s := s) isCh
      omega
  | succ rounds ih =>
      rw [skipRounds]
      cases isCh : s.ch with
      | none =>
          intro r isSome
          dsimp only at isSome
          rw [isCh] at isSome
          cases isSome
      | some r =>
          dsimp only
          by_cases skip : skips r = true
          · rw [if_pos skip]
            have shorter := length_next_lt isCh
            exact ih s.next (by omega)
          · rw [if_neg skip]
            intro own isOwn
            rw [isCh] at isOwn
            cases isOwn
            exact Bool.eq_false_iff.mpr skip

theorem skipWhile_stops (skips : Nat → Bool) (s : Scanner)
    (isCh : (s.skipWhile skips).ch = some r) : skips r = false :=
  skipRounds_stops skips _ s (Nat.le_refl _) r isCh

theorem ahead_next_iff (isCh : s.ch = some r) (notHere : ¬ P r) :
    Ahead P s ↔ Ahead P s.next := by
  constructor
  · intro ahead
    cases ahead with
    | here isOwn holds =>
        rw [isCh] at isOwn
        cases isOwn
        exact absurd holds notHere
    | later _ rest => exact rest
  · exact .later isCh

theorem not_ahead_of_ch_none (atEnd : s.ch = none) : ¬ Ahead P s := by
  intro ahead
  cases ahead with
  | here isCh => rw [atEnd] at isCh; cases isCh
  | later isCh => rw [atEnd] at isCh; cases isCh

theorem skipRounds_ch_none_iff (skips : Nat → Bool) (rounds : Nat) (s : Scanner)
    (enough : s.text.length ≤ rounds) :
    (skipRounds skips rounds s).ch = none ↔ ¬ Ahead (fun r => skips r = false) s := by
  induction rounds generalizing s with
  | zero =>
      have atEnd : s.ch = none := by
        cases isCh : s.ch with
        | none => rfl
        | some r =>
            have shorter := length_next_lt isCh
            omega
      exact ⟨fun _ => not_ahead_of_ch_none atEnd, fun _ => atEnd⟩
  | succ rounds ih =>
      rw [skipRounds]
      cases isCh : s.ch with
      | none => exact ⟨fun _ => not_ahead_of_ch_none isCh, fun _ => isCh⟩
      | some r =>
          dsimp only
          by_cases skip : skips r = true
          · have shorter := length_next_lt isCh
            rw [if_pos skip, ih s.next (by omega), ahead_next_iff isCh (by simp [skip])]
          · rw [if_neg skip, isCh]
            have here : Ahead (fun r => skips r = false) s :=
              .here isCh (Bool.eq_false_iff.mpr skip)
            exact ⟨fun isNone => absurd isNone (by simp), fun absent => absurd here absent⟩

/-- Reading on stops at the end exactly if there is no character to stop at. -/
theorem skipWhile_ch_none_iff (skips : Nat → Bool) (s : Scanner) :
    (s.skipWhile skips).ch = none ↔ ¬ Ahead (fun r => skips r = false) s :=
  skipRounds_ch_none_iff skips _ s (Nat.le_refl _)

/-! ### Numbers -/

theorem reads_errorIf (condition : Bool) (e : ScanError) (reads : Reads P s s') :
    Reads P s (s'.errorIf condition e) := by
  unfold errorIf
  split
  · exact reads.error e
  · exact reads

theorem ch_errorIf (condition : Bool) (e : ScanError) (s : Scanner) :
    (s.errorIf condition e).ch = s.ch := by
  unfold errorIf
  split <;> rfl

def isNumberRune (r : Nat) : Bool :=
  isAsciiLetter r || isDecimal r || r = 0x5F || r = 0x2E || r = 0x2B || r = 0x2D

theorem isNumberRune_of_hex (r : Nat) (hex : (isHex r || isSeparator r) = true) :
    isNumberRune r = true := by
  simp only [isHex, isSeparator, isNumberRune, isAsciiLetter, isDecimal, Bool.or_eq_true,
    Bool.and_eq_true, decide_eq_true_eq] at hex ⊢
  omega

theorem isHex_of_decimal (r : Nat) (decimal : (isDecimal r || isSeparator r) = true) :
    (isHex r || isSeparator r) = true := by
  simp only [isHex, Bool.or_eq_true] at decimal ⊢
  tauto

theorem isAsciiLetter_of_lower (r letter : Nat) (isLower : lower r = letter)
    (small : 0x61 ≤ letter) (large : letter ≤ 0x7A) : isAsciiLetter r = true := by
  unfold lower at isLower
  simp only [isAsciiLetter, Bool.or_eq_true, Bool.and_eq_true, decide_eq_true_eq]
  split at isLower
  · rename_i upper
    simp only [Bool.and_eq_true, decide_eq_true_eq] at upper
    omega
  · omega

theorem isNumberRune_of_lower (r letter : Nat) (isLower : lower r = letter)
    (small : 0x61 ≤ letter) (large : letter ≤ 0x7A) : isNumberRune r = true := by
  rw [isNumberRune, isAsciiLetter_of_lower r letter isLower small large]
  rfl

section

variable (allowed : ∀ r, isNumberRune r = true → P r)

include allowed

theorem allowed_decimal (r : Nat) (decimal : (isDecimal r || isSeparator r) = true) : P r :=
  allowed r (isNumberRune_of_hex r (isHex_of_decimal r decimal))

theorem reads_digits (base : Nat) (s : Scanner) : Reads P s (digits base s).2 := by
  unfold digits
  dsimp only
  split
  · exact reads_skipWhile _ (allowed_decimal allowed) s
  · exact reads_skipWhile _ (fun r hex => allowed r (isNumberRune_of_hex r hex)) s

theorem reads_letter {letter : Nat} (reads : Reads P s s')
    (isLetter : s'.ch.map lower = some letter) (small : 0x61 ≤ letter) (large : letter ≤ 0x7A) :
    Reads P s s'.next := by
  obtain ⟨r, isCh, isLower⟩ := Option.map_eq_some_iff.mp isLetter
  exact reads.next isCh (allowed r (isNumberRune_of_lower r letter isLower small large))

theorem reads_scanRadix_next (isZero : s.ch = some 0x30) : Reads P s.next (scanRadix s).2 := by
  rw [scanRadix, if_pos isZero]
  dsimp only
  split
  · rename_i isLetter
    exact reads_letter allowed .refl isLetter (by decide) (by decide)
  · rename_i isLetter
    exact reads_letter allowed .refl isLetter (by decide) (by decide)
  · rename_i isLetter
    exact reads_letter allowed .refl isLetter (by decide) (by decide)
  · exact .refl

theorem reads_scanWhole (isCh : s.ch = some r) (decimal : isDecimal r = true) :
    Reads P s.next (scanWhole s).2.2 := by
  unfold scanWhole
  dsimp only
  by_cases isZero : s.ch = some 0x30
  · exact (reads_scanRadix_next allowed isZero).trans (reads_digits allowed _ _)
  · rw [scanRadix, if_neg isZero]
    exact reads_skipWhile_next _ (allowed_decimal allowed) isCh (by rw [decimal]; rfl)

theorem reads_exponentDigits (s : Scanner) (first : Reads P s s.next) :
    Reads P s (exponentDigits s).2 := by
  unfold exponentDigits
  dsimp only
  apply reads_errorIf
  refine Reads.trans ?_ (reads_digits allowed 10 _)
  split
  · rename_i isSign
    rcases isSign with isPlus | isMinus
    · exact first.next isPlus (allowed _ (by decide))
    · exact first.next isMinus (allowed _ (by decide))
  · exact first

theorem reads_scanExponent (radix : Radix) (s : Scanner) :
    Reads P s (scanExponent radix s).2 := by
  have behindLetter : ∀ condition e letter, s.ch.map lower = some letter →
      0x61 ≤ letter → letter ≤ 0x7A →
      Reads P s (exponentDigits (s.errorIf condition e)).2 := by
    intro condition e letter isLetter small large
    have noted : Reads P s (s.errorIf condition e) := reads_errorIf condition e .refl
    rw [← ch_errorIf condition e s] at isLetter
    generalize s.errorIf condition e = letterAt at isLetter noted ⊢
    exact noted.trans (reads_exponentDigits allowed letterAt
      (reads_letter allowed .refl isLetter small large))
  unfold scanExponent
  split
  · rename_i isLetter
    dsimp only
    exact behindLetter (radix != .decimal && radix != .legacyOctal) .exponentMantissa 0x65
      isLetter (by decide) (by decide)
  · rename_i isLetter
    dsimp only
    exact behindLetter (radix != .hexadecimal) .exponentMantissa 0x70
      isLetter (by decide) (by decide)
  · exact .refl

theorem reads_scanFraction (radix : Radix) (s : Scanner) :
    Reads P s (scanFraction radix s).2 := by
  unfold scanFraction
  exact (reads_errorIf _ _ .refl).trans (reads_digits allowed _ _)

theorem reads_scanMantissa (isCh : s.ch = some r) (decimal : isDecimal r = true) :
    Reads P s.next (scanMantissa s false).2.2.2 := by
  have whole := reads_scanWhole allowed isCh decimal
  unfold scanMantissa
  rw [if_neg (by decide)]
  generalize scanWhole s = scanned at whole ⊢
  dsimp only
  split
  · rename_i isDot
    exact (whole.next isDot (allowed _ (by decide))).trans (reads_scanFraction allowed _ _)
  · exact whole

theorem reads_scanMantissa_dot (s : Scanner) : Reads P s (scanMantissa s true).2.2.2 := by
  have fraction := reads_scanFraction allowed .decimal s
  unfold scanMantissa
  rw [if_pos rfl]
  generalize scanFraction .decimal s = scanned at fraction ⊢
  exact fraction

theorem reads_scanNumber {origin : Scanner} (start s : Scanner) (seenDot : Bool)
    (mantissa : Reads P origin (scanMantissa s seenDot).2.2.2) :
    Reads P origin (scanNumber start s seenDot).2 := by
  unfold scanNumber
  generalize scanMantissa s seenDot = scanned at mantissa ⊢
  dsimp only
  apply reads_errorIf
  apply reads_errorIf
  apply reads_errorIf
  refine Reads.trans ?_ (reads_scanExponent allowed _ _)
  exact reads_errorIf _ _ mantissa

end

/-! ### Literals and comments -/

theorem reads_scanDigits (base rounds : Nat) (s : Scanner) :
    ReadsAny s (scanDigits base rounds s) := by
  induction rounds generalizing s with
  | zero => exact .refl
  | succ rounds ih =>
      rw [scanDigits]
      cases isCh : s.ch with
      | none => exact .error .refl _
      | some r =>
          split
          · exact (reads_next isCh).trans (ih s.next)
          · exact .error .refl _

theorem reads_scanEscape (quote : Nat) (s : Scanner) :
    ReadsAny s.next (scanEscape quote s) := by
  unfold scanEscape
  dsimp only
  split
  · exact .error .refl _
  · rename_i letter isLetter
    have second : ReadsAny s.next s.next.next := reads_next isLetter
    split
    · exact second
    · split
      · exact reads_scanDigits _ _ _
      · split
        · exact second.trans (reads_scanDigits _ _ _)
        · split
          · exact second.trans (reads_scanDigits _ _ _)
          · split
            · exact second.trans (reads_scanDigits _ _ _)
            · exact .error .refl _

theorem reads_scanStringRounds (quote rounds count : Nat) (s : Scanner) :
    ReadsAny s (scanStringRounds quote rounds count s).2 := by
  induction rounds generalizing count s with
  | zero => exact .refl
  | succ rounds ih =>
      rw [scanStringRounds]
      split
      · exact .error .refl _
      · rename_i r isCh
        split
        · exact .refl
        · split
          · exact .error .refl _
          · split
            · exact (reads_next isCh).trans ((reads_scanEscape quote s).trans (ih _ _))
            · exact (reads_next isCh).trans (ih _ _)

theorem reads_scanString (quote : Nat) (s : Scanner) :
    ReadsAny s.next (scanString quote s).2 :=
  reads_scanStringRounds _ _ _ _

theorem reads_scanRawString (s : Scanner) : ReadsAny s.next s.scanRawString := by
  unfold scanRawString
  dsimp only
  split
  · exact (reads_skipWhile_any _ _).error _
  · exact reads_skipWhile_any _ _

theorem reads_scanChar (s : Scanner) : ReadsAny s.next s.scanChar := by
  unfold scanChar
  dsimp only
  split
  · exact reads_scanString _ s
  · exact (reads_scanString _ s).error _

theorem reads_scanGeneralComment (rounds : Nat) (s : Scanner) :
    ReadsAny s (scanGeneralComment rounds s) := by
  induction rounds generalizing s with
  | zero => exact .refl
  | succ rounds ih =>
      rw [scanGeneralComment]
      split
      · exact .error .refl _
      · rename_i r isCh
        split
        · rename_i isEnd
          exact (reads_next isCh).next isEnd.2 trivial
        · exact (reads_next isCh).trans (ih s.next)

/-! ### `Scan` -/

/-- A token that is neither the end nor a single character. -/
def Scanned.IsLiteral : Scanned → Prop
  | .eof => False
  | .rune _ => False
  | _ => True

/-- What stands at a point: a token with its end, or a comment. -/
inductive TokenAt (s : Scanner) : Option Scanned × Scanner → Prop where
  | eof (atEnd : s.ch = none) : TokenAt s (some .eof, s)
  | rune {r : Nat} (isCh : s.ch = some r) : TokenAt s (some (.rune r), s.next)
  | literal {r : Nat} {scanned : Scanned} {stop : Scanner} (isCh : s.ch = some r)
      (isLiteral : scanned.IsLiteral) (reads : ReadsPast s.next stop) :
      TokenAt s (some scanned, stop)
  | lineComment (isCh : s.ch = some 0x2F) (isSlash : s.next.ch = some 0x2F) :
      TokenAt s (none, s.next.next.skipWhile fun r => r != 10)
  | generalComment (isCh : s.ch = some 0x2F) (isStar : s.next.ch = some 0x2A) :
      TokenAt s (none, scanGeneralComment (s.text.length + 1) s.next.next)

theorem tokenAt_scanToken (unicode : Unicode) (s : Scanner) :
    TokenAt s (scanToken unicode s) := by
  have all : ∀ r, isNumberRune r = true → True := fun _ _ => trivial
  unfold scanToken
  split
  · rename_i atEnd
    exact .eof atEnd
  · rename_i r isCh
    split
    · exact .literal isCh trivial (reads_skipWhile_any _ _).past
    · split
      · rename_i decimal
        have number := reads_scanNumber all s s false (reads_scanMantissa all isCh decimal)
        generalize scanNumber s s false = scanned at number ⊢
        refine .literal isCh ?_ number.past
        split <;> trivial
      · split
        · exact .literal isCh trivial (reads_scanString 0x22 s).next_past
        · split
          · exact .literal isCh trivial (reads_scanChar s).next_past
          · split
            · split
              · have number :=
                  reads_scanNumber all s s.next true (reads_scanMantissa_dot all s.next)
                generalize scanNumber s s.next true = scanned at number ⊢
                exact .literal isCh trivial number.past
              · exact .rune isCh
            · split
              · rename_i isSlash
                subst isSlash
                split
                · rename_i second
                  exact .lineComment isCh second
                · split
                  · rename_i second
                    exact .generalComment isCh second
                  · exact .rune isCh
              · split
                · exact .literal isCh trivial (reads_scanRawString s).next_past
                · exact .rune isCh

theorem TokenAt.comment_reads {stop : Scanner} (comment : TokenAt s (none, stop)) :
    ∃ r, s.ch = some r ∧ ReadsAny s.next stop := by
  cases comment with
  | lineComment isCh isSlash =>
      exact ⟨_, isCh, (reads_next isSlash).trans (reads_skipWhile_any _ _)⟩
  | generalComment isCh isStar =>
      exact ⟨_, isCh, (reads_next isStar).trans (reads_scanGeneralComment _ _)⟩

theorem TokenAt.length_lt {stop : Scanner} (comment : TokenAt s (none, stop)) :
    stop.text.length < s.text.length := by
  obtain ⟨r, isCh, reads⟩ := comment.comment_reads
  exact Nat.lt_of_le_of_lt reads.length_le (length_next_lt isCh)

inductive Passes (unicode : Unicode) : Scanner → Scanner → Prop where
  | blanks (s : Scanner) : Passes unicode s (s.skipWhile isWhitespace)
  | comment {s stop start : Scanner}
      (isComment : scanToken unicode (s.skipWhile isWhitespace) = (none, stop))
      (rest : Passes unicode stop start) : Passes unicode s start

section

variable {unicode : Unicode}

theorem Passes.reads {start : Scanner} (passes : Passes unicode s start) :
    ReadsAny s start := by
  induction passes with
  | blanks s => exact reads_skipWhile_any _ s
  | @comment own stop start isComment _ ih =>
      have comment := tokenAt_scanToken unicode (own.skipWhile isWhitespace)
      rw [isComment] at comment
      obtain ⟨r, isCh, reads⟩ := comment.comment_reads
      exact (reads_skipWhile_any _ _).trans ((reads_next isCh).trans (reads.trans ih))

variable (unicode)

theorem scanRounds_passes (rounds : Nat) (s : Scanner) (enough : s.text.length < rounds) :
    Passes unicode s (scanRounds unicode rounds s).2.1 ∧
      scanToken unicode (scanRounds unicode rounds s).2.1 =
        (some (scanRounds unicode rounds s).1, (scanRounds unicode rounds s).2.2) := by
  induction rounds generalizing s with
  | zero => omega
  | succ rounds ih =>
      rw [scanRounds]
      cases scanned : scanToken unicode (s.skipWhile isWhitespace) with
      | mk token stop =>
          cases token with
          | some token => exact ⟨.blanks s, scanned⟩
          | none =>
              have comment := tokenAt_scanToken unicode (s.skipWhile isWhitespace)
              rw [scanned] at comment
              have shorter := comment.length_lt
              have blanks := (reads_skipWhile_any isWhitespace s).length_le
              obtain ⟨passes, isToken⟩ := ih stop (by omega)
              exact ⟨.comment scanned passes, isToken⟩

/-- `Scan` passes over white space and comments, and finds a token there. -/
theorem scan_passes (s : Scanner) :
    Passes unicode s (s.scan unicode).2.1 ∧
      scanToken unicode (s.scan unicode).2.1 =
        (some (s.scan unicode).1, (s.scan unicode).2.2) :=
  scanRounds_passes unicode _ s (Nat.lt_succ_self _)

theorem scan_tokenAt (s : Scanner) :
    TokenAt (s.scan unicode).2.1 (some (s.scan unicode).1, (s.scan unicode).2.2) := by
  rw [← (scan_passes unicode s).2]
  exact tokenAt_scanToken unicode _

end

/-! ### The rounds of the loops suffice -/

/-- More rounds than the text has bytes, and some slack, change nothing. -/
def Settles {α : Type} (slack : Nat) (loop : Nat → Scanner → α) : Prop :=
  ∀ rounds s, s.text.length + slack ≤ rounds → loop (rounds + 1) s = loop rounds s

theorem ch_none_of_length (noText : s.text.length ≤ 0) : s.ch = none := by
  cases isCh : s.ch with
  | none => rfl
  | some r =>
      have shorter := length_next_lt isCh
      omega

theorem settles_skipRounds (skips : Nat → Bool) : Settles 0 (skipRounds skips) := by
  intro rounds
  induction rounds with
  | zero =>
      intro s enough
      conv_lhs => rw [skipRounds, ch_none_of_length enough]
      rfl
  | succ rounds ih =>
      intro s enough
      conv_lhs => rw [skipRounds]
      conv_rhs => rw [skipRounds]
      cases isCh : s.ch with
      | none => rfl
      | some r =>
          have shorter := length_next_lt isCh
          dsimp only
          rw [ih s.next (by omega)]

theorem settles_scanStringRounds (quote count : Nat) :
    Settles 1 fun rounds s => scanStringRounds quote rounds count s := by
  intro rounds
  induction rounds generalizing count with
  | zero => intro s enough; omega
  | succ rounds ih =>
      intro s enough
      dsimp only at ih ⊢
      conv_lhs => rw [scanStringRounds]
      conv_rhs => rw [scanStringRounds]
      cases isCh : s.ch with
      | none => rfl
      | some r =>
          have shorter := length_next_lt isCh
          dsimp only
          split
          · rfl
          · split
            · rfl
            · split
              · have escape := (reads_scanEscape quote s).length_le
                exact ih (count + 1) _ (by omega)
              · exact ih (count + 1) _ (by omega)

theorem settles_scanGeneralComment : Settles 1 scanGeneralComment := by
  intro rounds
  induction rounds with
  | zero => intro s enough; omega
  | succ rounds ih =>
      intro s enough
      conv_lhs => rw [scanGeneralComment]
      conv_rhs => rw [scanGeneralComment]
      cases isCh : s.ch with
      | none => rfl
      | some r =>
          have shorter := length_next_lt isCh
          dsimp only
          rw [ih s.next (by omega)]

theorem settles_scanRounds (unicode : Unicode) : Settles 1 (scanRounds unicode) := by
  intro rounds
  induction rounds with
  | zero => intro s enough; omega
  | succ rounds ih =>
      intro s enough
      conv_lhs => rw [scanRounds]
      conv_rhs => rw [scanRounds]
      cases scanned : scanToken unicode (s.skipWhile isWhitespace) with
      | mk token stop =>
          cases token with
          | some token => rfl
          | none =>
              have comment := tokenAt_scanToken unicode (s.skipWhile isWhitespace)
              rw [scanned] at comment
              have shorter := comment.length_lt
              have blanks := (reads_skipWhile_any isWhitespace s).length_le
              exact ih stop (by omega)

end Scanner

end McoaGateway
