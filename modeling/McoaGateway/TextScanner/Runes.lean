/-
The characters of a text, and scanners that read them.

A scanner with room for the longest encoding reads the runes of its text one by
one, wherever the buffer ends (`Whole.runes_text`).  Errors that were noted and
steps that were counted have no influence on what is read: functions of scanners
with the same buffer give the same results (`SameBuffer`).
-/

import McoaGateway.TextScanner.Reading

namespace McoaGateway

open GoString

/-! ### The runes of a text -/

def runesRounds : Nat → GoString → List Nat
  | 0, _ => []
  | _ + 1, [] => []
  | rounds + 1, b :: rest =>
      (decodeRune (b :: rest)).1 ::
        runesRounds rounds ((b :: rest).drop (decodeRune (b :: rest)).2)

def runes (text : GoString) : List Nat :=
  runesRounds text.length text

def takeRunes : Nat → GoString → GoString
  | 0, _ => []
  | count + 1, text =>
      text.take (decodeRune text).2 ++ takeRunes count (text.drop (decodeRune text).2)

theorem width_bounds (b : UInt8) (rest : GoString) :
    1 ≤ (decodeRune (b :: rest)).2 ∧ (decodeRune (b :: rest)).2 ≤ (b :: rest).length := by
  have short : 1 ≤ (b :: rest).length := Nat.succ_le_succ (Nat.zero_le _)
  rcases decodeRune_cases b rest with
    ⟨-, decoded⟩ | ⟨r, tail, -, -, isText, decoded⟩ | ⟨-, decoded⟩
  · rw [decoded]
    exact ⟨Nat.le_refl 1, short⟩
  · rw [decoded, isText, List.length_append]
    exact ⟨List.length_pos_iff.mpr (encodeRune_ne_nil r), Nat.le_add_right _ _⟩
  · rw [decoded]
    exact ⟨Nat.le_refl 1, short⟩

theorem runesRounds_congr (first second : Nat) (text : GoString) (enough : text.length ≤ first)
    (suffices' : text.length ≤ second) : runesRounds first text = runesRounds second text := by
  induction first generalizing second text with
  | zero =>
      rw [List.length_eq_zero_iff.mp (Nat.le_zero.mp enough)]
      cases second <;> rfl
  | succ first ih =>
      cases text with
      | nil => cases second <;> rfl
      | cons b rest =>
          obtain ⟨positive, -⟩ := width_bounds b rest
          have shorter : ((b :: rest).drop (decodeRune (b :: rest)).2).length ≤ rest.length := by
            rw [List.length_drop, List.length_cons]
            omega
          rw [List.length_cons] at enough suffices'
          cases second with
          | zero => omega
          | succ second =>
              rw [runesRounds, runesRounds, ih second _ (by omega) (by omega)]

theorem runes_cons (b : UInt8) (rest : GoString) :
    runes (b :: rest) =
      (decodeRune (b :: rest)).1 :: runes ((b :: rest).drop (decodeRune (b :: rest)).2) := by
  obtain ⟨positive, -⟩ := width_bounds b rest
  conv_lhs => rw [runes, List.length_cons, runesRounds]
  rw [runes]
  congr 1
  refine runesRounds_congr _ _ _ ?_ (Nat.le_refl _)
  rw [List.length_drop, List.length_cons]
  omega

namespace Scanner

variable {s s' : Scanner}

/-! ### Characters in the buffer -/

theorem decodeRune_append {front : GoString} (full : fullRune front = true) (rest : GoString) :
    decodeRune (front ++ rest) = decodeRune front := by
  rcases front with _ | ⟨lead, _ | ⟨b, _ | ⟨c, _ | ⟨d, tail⟩⟩⟩⟩
  · cases full
  · simp only [fullRune, encodedLength, List.length_nil, Nat.zero_add] at full
    simp only [List.cons_append, List.nil_append, decodeRune]
    split_ifs at full ⊢ <;> first
      | rfl
      | omega
  · simp only [fullRune, encodedLength, List.length_cons, List.length_nil, Nat.zero_add] at full
    simp only [List.cons_append, List.nil_append, decodeRune]
    split_ifs at full ⊢ <;> first
      | rfl
      | omega
      | (rcases rest with _ | ⟨x, _ | ⟨y, rest⟩⟩ <;> simp_all)
  · simp only [fullRune, encodedLength, List.length_cons, List.length_nil, Nat.zero_add] at full
    simp only [List.cons_append, List.nil_append, decodeRune]
    split_ifs at full ⊢ <;> first
      | rfl
      | omega
      | (cases rest with
          | nil => simp_all
          | cons d rest => rcases Bool.or_eq_true_iff.mp full with second | third <;> simp_all)
  · rfl

theorem fullRune_of_length {held : GoString} (long : 4 ≤ held.length) : fullRune held = true := by
  cases held with
  | nil => exact absurd long (by decide)
  | cons lead rest =>
      rw [List.length_cons] at long
      have short : encodedLength lead ≤ 4 := by
        unfold encodedLength
        split_ifs <;> decide
      unfold fullRune
      dsimp only
      rw [if_pos (by omega)]

/-- The buffer has room for every encoding, and all bytes of the first character. -/
structure Whole (s : Scanner) : Prop where
  capacity : 4 ≤ s.capacity
  full : s.reader = [] ∨ fullRune s.held = true

theorem whole_fill (room : 4 ≤ s.capacity) : Whole s.fill := by
  unfold fill
  split
  · refine ⟨room, ?_⟩
    dsimp only
    by_cases ends : s.reader.length ≤ s.capacity - s.held.length
    · exact Or.inl (List.drop_eq_nil_of_le ends)
    · apply Or.inr
      apply fullRune_of_length
      rw [List.length_append, List.length_take]
      omega
  · rename_i settled
    refine ⟨room, Or.inr ?_⟩
    by_contra notFull
    apply settled
    rw [Bool.and_eq_true, decide_eq_true_eq, Bool.not_eq_true', ← Bool.not_eq_true]
    refine ⟨?_, notFull⟩
    by_contra long
    exact notFull (fullRune_of_length (Nat.le_of_not_lt long))

theorem Whole.error (whole : Whole s) (e : ScanError) : Whole (s.error e) :=
  ⟨whole.capacity, whole.full⟩

theorem Whole.checkRune (whole : Whole s) : Whole s.checkRune := by
  rcases checkRune_cases s with same | ⟨e, isError⟩
  · rw [same]
    exact whole
  · rw [isError]
    exact whole.error e

theorem Whole.next (whole : Whole s) : Whole s.next := by
  rw [Scanner.next]
  apply Whole.checkRune
  apply whole_fill
  exact whole.capacity

theorem whole_ofText {capacity : Nat} (room : 4 ≤ capacity) (input : GoString) :
    Whole (ofText capacity input) := by
  have first : Whole (Scanner.mk capacity [] input [] 1).fill.checkRune :=
    (whole_fill room).checkRune
  unfold ofText
  dsimp only
  split
  · exact first.next
  · exact first

theorem Whole.held_nil (whole : Whole s) (empty : s.held = []) : s.text = [] := by
  rcases whole.full with ends | full
  · rw [text, empty, ends]
    rfl
  · rw [empty] at full
    cases full

theorem Whole.decodeRune_text (whole : Whole s) : decodeRune s.text = decodeRune s.held := by
  rcases whole.full with ends | full
  · rw [text, ends, List.append_nil]
  · exact decodeRune_append full s.reader

theorem Whole.text_next (whole : Whole s) :
    s.next.text = s.text.drop (decodeRune s.text).2 := by
  rw [whole.decodeRune_text, Scanner.text_next, text]
  cases isHeld : s.held with
  | nil =>
      rw [show decodeRune [] = (runeError, 0) from rfl]
      rfl
  | cons b rest => rw [List.drop_append_of_le_length (width_bounds b rest).2]

/-- The character read ahead is the first rune, and reading it leaves the others. -/
theorem Whole.runes_text (whole : Whole s) :
    runes s.text = match s.ch with
      | none => []
      | some r => r :: runes s.next.text := by
  cases isHeld : s.held with
  | nil =>
      rw [whole.held_nil isHeld, ch, isHeld]
      rfl
  | cons b rest =>
      have isText : s.text = b :: (rest ++ s.reader) := by
        rw [text, isHeld]
        rfl
      have isCh : s.ch = some (decodeRune s.text).1 := by
        rw [whole.decodeRune_text, ch, isHeld]
      rw [isCh, whole.text_next, isText]
      exact runes_cons b (rest ++ s.reader)

theorem Whole.ch_eq (whole : Whole s) : s.ch = (runes s.text).head? := by
  rw [whole.runes_text]
  cases s.ch <;> rfl

theorem Whole.runes_next (whole : Whole s) {r : Nat} (isCh : s.ch = some r) :
    runes s.text = r :: runes s.next.text := by
  rw [whole.runes_text, isCh]

theorem Reads.whole {P : Nat → Prop} (reads : Reads P s s') (whole : Whole s) : Whole s' := by
  induction reads with
  | refl => exact whole
  | next _ _ _ ih => exact ih.next
  | error _ e ih => exact ih.error e

theorem ReadsPast.whole (reads : ReadsPast s s') (whole : Whole s) : Whole s' := by
  obtain ⟨middle, reads, rfl | ⟨_, rfl⟩⟩ := reads
  · exact reads.whole whole
  · exact (reads.whole whole).next

/-! ### Loops over characters -/

theorem Whole.runes_skipRounds (skips : Nat → Bool) (rounds : Nat) (whole : Whole s)
    (enough : s.text.length ≤ rounds) :
    runes (skipRounds skips rounds s).text = (runes s.text).dropWhile skips := by
  induction rounds generalizing s with
  | zero =>
      rw [skipRounds, List.length_eq_zero_iff.mp (Nat.le_zero.mp enough)]
      rfl
  | succ rounds ih =>
      rw [skipRounds]
      cases isCh : s.ch with
      | none =>
          rw [whole.runes_text, isCh]
          rfl
      | some r =>
          have shorter := length_next_lt isCh
          rw [whole.runes_next isCh]
          dsimp only
          by_cases skip : skips r = true
          · rw [if_pos skip, ih whole.next (by omega), List.dropWhile_cons, if_pos skip]
          · rw [if_neg skip, List.dropWhile_cons, if_neg skip, whole.runes_next isCh]

theorem Whole.runes_skipWhile (skips : Nat → Bool) (whole : Whole s) :
    runes (s.skipWhile skips).text = (runes s.text).dropWhile skips :=
  whole.runes_skipRounds skips _ (Nat.le_refl _)

theorem Whole.skipWhile (skips : Nat → Bool) (whole : Whole s) : Whole (s.skipWhile skips) :=
  (reads_skipWhile_any skips s).whole whole

theorem Whole.since_iterate (count : Nat) (whole : Whole s) :
    s.text = takeRunes count s.text ++ (Nat.iterate Scanner.next count s).text := by
  induction count generalizing s with
  | zero => rfl
  | succ count ih =>
      have rest := ih whole.next
      rw [whole.text_next] at rest
      rw [takeRunes, Function.iterate_succ_apply, List.append_assoc, ← rest, List.take_append_drop]

/-! ### The beginning of an input -/

/-- What a scanner says of the first character of a text. -/
def complaints : GoString → List ScanError
  | [] => []
  | b :: rest =>
      if decodeRune (b :: rest) = (runeError, 1) then [.invalidEncoding]
      else if b = 0 then [.characterNul]
      else []

theorem complaints_ascii {b : UInt8} (isAscii : b.toNat < 0x80) (nonzero : b ≠ 0)
    (rest : GoString) : complaints (b :: rest) = [] := by
  rcases decodeRune_cases b rest with
    ⟨-, decoded⟩ | ⟨r, tail, notAscii, -, isText, -⟩ | ⟨high, -⟩
  · rw [complaints, decoded, if_neg, if_neg nonzero]
    intro same
    have isError := (Prod.mk.inj same).1
    rw [show runeError = 0xFFFD from rfl] at isError
    omega
  · have inRune : b ∈ encodeRune r := by
      obtain ⟨lead, others, isRune⟩ := List.exists_cons_of_ne_nil (encodeRune_ne_nil r)
      rw [isRune] at isText ⊢
      rw [(List.cons.inj isText).1]
      exact List.mem_cons_self
    have high := encodeRune_not_ascii r notAscii b inRune
    omega
  · omega

theorem decodeRune_eq_zero_iff (b : UInt8) (rest : GoString) :
    (decodeRune (b :: rest)).1 = 0 ↔ b = 0 := by
  rcases decodeRune_cases b rest with
    ⟨-, decoded⟩ | ⟨r, tail, notAscii, -, isText, decoded⟩ | ⟨high, decoded⟩
  · rw [decoded]
    exact ⟨fun zero => UInt8.toNat_inj.mp zero, fun zero => by rw [zero]; rfl⟩
  · rw [decoded]
    refine iff_of_false (fun zero => ?_) (fun zero => ?_)
    · have isZero : r = 0 := zero
      omega
    · obtain ⟨lead, others, isRune⟩ := List.exists_cons_of_ne_nil (encodeRune_ne_nil r)
      rw [isRune] at isText
      have high := encodeRune_not_ascii r notAscii lead (by rw [isRune]; exact List.mem_cons_self)
      rw [← (List.cons.inj isText).1, zero] at high
      exact absurd high (by decide)
  · rw [decoded]
    refine iff_of_false (fun zero => absurd zero (by decide)) (fun zero => ?_)
    rw [zero] at high
    exact absurd high (by decide)

theorem Whole.errors_checkRune (whole : Whole s) :
    s.checkRune.errors = s.errors ++ complaints s.text := by
  have decoded := whole.decodeRune_text
  unfold Scanner.checkRune
  split
  · rename_i empty
    rw [whole.held_nil empty]
    exact (List.append_nil _).symm
  · rename_i notEmpty
    obtain ⟨b, rest, isHeld⟩ := List.exists_cons_of_ne_nil notEmpty
    have isText : s.text = b :: (rest ++ s.reader) := by
      rw [text, isHeld]
      rfl
    have isCh : s.ch = some 0 ↔ b = 0 := by
      rw [ch, isHeld, ← decodeRune_eq_zero_iff b rest]
      exact ⟨fun same => Option.some.inj same, fun same => congrArg some same⟩
    rw [← decoded, isText, complaints]
    by_cases invalid : decodeRune (b :: (rest ++ s.reader)) = (runeError, 1)
    · rw [if_pos invalid, if_pos invalid]
      rfl
    · rw [if_neg invalid, if_neg invalid]
      by_cases nul : b = 0
      · rw [if_pos nul, if_pos (isCh.mpr nul)]
        rfl
      · rw [if_neg nul, if_neg fun same => nul (isCh.mp same), List.append_nil]

theorem Whole.errors_next (whole : Whole s) :
    s.next.errors = s.errors ++ complaints s.next.text := by
  have filled : Whole ({ s with
      held := s.held.drop (decodeRune s.held).2
      steps := s.steps + 1 }.fill) := whole_fill whole.capacity
  rw [Scanner.next, filled.errors_checkRune, errors_fill, text_checkRune]

/-- The scanner holds a text, and has complained about its first character only. -/
structure Begins (s : Scanner) (input : GoString) : Prop where
  whole : Whole s
  text : s.text = input
  errors : s.errors = complaints input

def withoutMark (input : GoString) : GoString :=
  if (decodeRune input).1 = 0xFEFF then input.drop (decodeRune input).2 else input

theorem begins_ofText {capacity : Nat} (room : 4 ≤ capacity) (input : GoString) :
    Begins (ofText capacity input) (withoutMark input) := by
  have filled : Whole (Scanner.mk capacity [] input [] 1).fill := whole_fill room
  have first := filled.checkRune
  have isText : (Scanner.mk capacity [] input [] 1).fill.checkRune.text = input := by
    rw [text_checkRune, text_fill]
    rfl
  have isErrors : (Scanner.mk capacity [] input [] 1).fill.checkRune.errors = complaints input := by
    rw [filled.errors_checkRune, errors_fill, text_fill]
    rfl
  unfold ofText withoutMark
  dsimp only
  generalize (Scanner.mk capacity [] input [] 1).fill.checkRune = s at first isText isErrors
  cases input with
  | nil =>
      have isCh : s.ch = none := by
        rw [first.ch_eq, isText]
        rfl
      rw [isCh, if_neg nofun, if_neg (by decide)]
      exact ⟨first, isText, isErrors⟩
  | cons b rest =>
      have isCh : s.ch = some (decodeRune (b :: rest)).1 := by
        rw [first.ch_eq, isText, runes_cons]
        rfl
      by_cases mark : (decodeRune (b :: rest)).1 = 0xFEFF
      · have quiet : complaints (b :: rest) = [] := by
          rw [complaints, if_neg, if_neg]
          · intro zero
            rw [(decodeRune_eq_zero_iff b rest).mpr zero] at mark
            cases mark
          · intro same
            rw [same] at mark
            exact absurd mark (by decide)
        rw [isCh, if_pos (congrArg some mark), if_pos mark]
        have after : s.next.text = (b :: rest).drop (decodeRune (b :: rest)).2 := by
          rw [first.text_next, isText]
        refine ⟨first.next, after, ?_⟩
        rw [first.errors_next, isErrors, quiet, after, List.nil_append]
      · rw [isCh, if_neg fun same => mark (Option.some.inj same), if_neg mark]
        exact ⟨first, isText, isErrors⟩

theorem isWhitespace_decodeRune (b : UInt8) (rest : GoString) :
    isWhitespace (decodeRune (b :: rest)).1 = isWhitespace b.toNat ∧
      (isWhitespace b.toNat = true →
        (decodeRune (b :: rest)).2 = 1 ∧ complaints (b :: rest) = []) := by
  have small : ∀ r, isWhitespace r = true → r < 0x80 ∧ r ≠ 0 := by
    intro r blank
    unfold isWhitespace at blank
    simp only [Bool.or_eq_true, decide_eq_true_eq] at blank
    omega
  have high : ∀ r, 0x80 ≤ r → isWhitespace r = false := by
    intro r notAscii
    by_contra blank
    have isAscii := (small r (Bool.not_eq_false _ ▸ blank)).1
    omega
  rcases decodeRune_cases b rest with
    ⟨isAscii, decoded⟩ | ⟨r, tail, notAscii, -, isText, decoded⟩ | ⟨notAscii, decoded⟩
  · rw [decoded]
    refine ⟨rfl, fun blank => ⟨rfl, complaints_ascii isAscii (fun zero => ?_) rest⟩⟩
    rw [zero] at blank
    cases blank
  · obtain ⟨lead, others, isRune⟩ := List.exists_cons_of_ne_nil (encodeRune_ne_nil r)
    rw [isRune] at isText
    have isHigh := encodeRune_not_ascii r notAscii lead (by rw [isRune]; exact List.mem_cons_self)
    rw [← (List.cons.inj isText).1] at isHigh
    rw [decoded, high r notAscii, high b.toNat isHigh]
    exact ⟨rfl, nofun⟩
  · rw [decoded, high runeError (by decide), high b.toNat notAscii]
    exact ⟨rfl, nofun⟩

theorem Begins.skipRounds {input : GoString} (rounds : Nat) (begins : Begins s input)
    (enough : input.length ≤ rounds) :
    Begins (Scanner.skipRounds isWhitespace rounds s)
      (input.dropWhile fun b => isWhitespace b.toNat) := by
  induction rounds generalizing s input with
  | zero =>
      rw [List.length_eq_zero_iff.mp (Nat.le_zero.mp enough)] at begins ⊢
      exact begins
  | succ rounds ih =>
      rw [Scanner.skipRounds]
      have isCh := begins.whole.ch_eq
      rw [begins.text] at isCh
      cases input with
      | nil =>
          rw [isCh]
          exact begins
      | cons b rest =>
          rw [runes_cons, List.head?_cons] at isCh
          rw [List.length_cons] at enough
          obtain ⟨sameBlank, ifBlank⟩ := isWhitespace_decodeRune b rest
          rw [isCh, List.dropWhile_cons]
          dsimp only
          rw [sameBlank]
          by_cases blank : isWhitespace b.toNat = true
          · obtain ⟨width, quiet⟩ := ifBlank blank
            rw [if_pos blank, if_pos blank]
            have isText : s.next.text = rest := by
              rw [begins.whole.text_next, begins.text, width, List.drop_one, List.tail_cons]
            refine ih ⟨begins.whole.next, isText, ?_⟩ (by omega)
            rw [begins.whole.errors_next, begins.errors, quiet, isText, List.nil_append]
          · rw [if_neg blank, if_neg blank]
            exact begins

theorem Begins.skipWhile {input : GoString} (begins : Begins s input) :
    Begins (s.skipWhile isWhitespace) (input.dropWhile fun b => isWhitespace b.toNat) :=
  begins.skipRounds _ (Nat.le_of_eq (congrArg List.length begins.text).symm)

/-! ### Errors and steps have no influence -/

theorem SameBuffer.refl (s : Scanner) : SameBuffer s s :=
  ⟨rfl, rfl, rfl⟩

theorem SameBuffer.symm (same : SameBuffer s s') : SameBuffer s' s :=
  ⟨same.capacity.symm, same.held.symm, same.reader.symm⟩

theorem SameBuffer.trans {s'' : Scanner} (first : SameBuffer s s') (second : SameBuffer s' s'') :
    SameBuffer s s'' :=
  ⟨second.capacity.trans first.capacity, second.held.trans first.held,
    second.reader.trans first.reader⟩

theorem SameBuffer.whole (same : SameBuffer s s') (whole : Whole s) : Whole s' := by
  refine ⟨?_, ?_⟩
  · rw [same.capacity]
    exact whole.capacity
  · rw [same.reader, same.held]
    exact whole.full

theorem SameBuffer.error (same : SameBuffer s s') (e e' : ScanError) :
    SameBuffer (s.error e) (s'.error e') :=
  ⟨same.capacity, same.held, same.reader⟩

theorem SameBuffer.errorIf (same : SameBuffer s s') (condition : Bool) (e : ScanError) :
    SameBuffer (s.errorIf condition e) (s'.errorIf condition e) := by
  unfold Scanner.errorIf
  split
  · exact same.error e e
  · exact same

theorem SameBuffer.since {t t' : Scanner} (same : SameBuffer s s') (ends : SameBuffer t t') :
    s'.since t' = s.since t := by
  rw [Scanner.since, same.text, ends.text]
  rfl

theorem SameBuffer.skipRounds (same : SameBuffer s s') (skips : Nat → Bool) (rounds : Nat) :
    SameBuffer (skipRounds skips rounds s) (skipRounds skips rounds s') := by
  induction rounds generalizing s s' with
  | zero => exact same
  | succ rounds ih =>
      rw [Scanner.skipRounds, Scanner.skipRounds, same.ch]
      cases s.ch with
      | none => exact same
      | some r =>
          dsimp only
          split
          · exact ih same.next
          · exact same

theorem SameBuffer.skipWhile (same : SameBuffer s s') (skips : Nat → Bool) :
    SameBuffer (s.skipWhile skips) (s'.skipWhile skips) := by
  rw [Scanner.skipWhile, Scanner.skipWhile, same.text]
  exact same.skipRounds skips _

/-- Results that differ at most in errors and steps. -/
structure SameResult {α : Type} (found found' : α × Scanner) : Prop where
  value : found'.1 = found.1
  buffer : SameBuffer found.2 found'.2

theorem SameBuffer.result {α : Type} (same : SameBuffer s s') (value : α) :
    SameResult (value, s) (value, s') :=
  ⟨rfl, same⟩

theorem SameBuffer.digits (same : SameBuffer s s') (base : Nat) :
    SameResult (digits base s) (digits base s') := by
  have stops : SameBuffer
      (if base ≤ 10 then s.skipWhile fun r => isDecimal r || isSeparator r
        else s.skipWhile fun r => isHex r || isSeparator r)
      (if base ≤ 10 then s'.skipWhile fun r => isDecimal r || isSeparator r
        else s'.skipWhile fun r => isHex r || isSeparator r) := by
    split
    · exact same.skipWhile _
    · exact same.skipWhile _
  unfold Scanner.digits
  dsimp only
  rw [same.since stops]
  exact stops.result _

theorem SameBuffer.scanRadix (same : SameBuffer s s') :
    SameResult (scanRadix s) (scanRadix s') := by
  unfold Scanner.scanRadix
  rw [same.ch]
  split
  · dsimp only
    rw [same.next.ch]
    split
    · exact same.next.next.result _
    · exact same.next.next.result _
    · exact same.next.next.result _
    · exact same.next.result _
  · exact same.result _

theorem SameBuffer.exponentDigits (same : SameBuffer s s') :
    SameResult (exponentDigits s) (exponentDigits s') := by
  have signed : SameBuffer
      (if s.next.ch = some 0x2B ∨ s.next.ch = some 0x2D then s.next.next else s.next)
      (if s'.next.ch = some 0x2B ∨ s'.next.ch = some 0x2D then s'.next.next else s'.next) := by
    rw [same.next.ch]
    split
    · exact same.next.next
    · exact same.next
  have found := signed.digits 10
  unfold Scanner.exponentDigits
  dsimp only
  rw [found.value]
  exact (found.buffer.errorIf _ _).result _

theorem SameResult.some {α : Type} {found found' : α × Scanner} (same : SameResult found found') :
    SameResult (match found with | (value, s) => (Option.some value, s))
      (match found' with | (value, s) => (Option.some value, s)) := by
  obtain ⟨value, s⟩ := found
  obtain ⟨value', s'⟩ := found'
  obtain ⟨values, buffer⟩ := same
  dsimp only at values buffer
  subst values
  exact buffer.result _

theorem SameBuffer.scanExponent (same : SameBuffer s s') (radix : Radix) :
    SameResult (scanExponent radix s) (scanExponent radix s') := by
  unfold Scanner.scanExponent
  rw [same.ch]
  split
  · exact (same.errorIf (radix != .decimal && radix != .legacyOctal)
      .exponentMantissa).exponentDigits.some
  · exact (same.errorIf (radix != .hexadecimal) .exponentMantissa).exponentDigits.some
  · exact same.result _

theorem SameBuffer.scanWhole (same : SameBuffer s s') :
    (scanWhole s').1 = (scanWhole s).1 ∧ SameResult (scanWhole s).2 (scanWhole s').2 := by
  have radix := same.scanRadix
  unfold Scanner.scanWhole
  dsimp only
  rw [radix.value]
  have found := radix.buffer.digits (Scanner.scanRadix s).1.base
  rw [found.value]
  exact ⟨rfl, found.buffer.result _⟩

theorem SameBuffer.scanFraction (same : SameBuffer s s') (radix : Radix) :
    SameResult (scanFraction radix s) (scanFraction radix s') :=
  (same.errorIf _ _).digits _

theorem SameBuffer.scanMantissa (same : SameBuffer s s') (seenDot : Bool) :
    (scanMantissa s' seenDot).1 = (scanMantissa s seenDot).1 ∧
      (scanMantissa s' seenDot).2.1 = (scanMantissa s seenDot).2.1 ∧
      SameResult (scanMantissa s seenDot).2.2 (scanMantissa s' seenDot).2.2 := by
  unfold Scanner.scanMantissa
  split
  · have fraction := same.scanFraction .decimal
    exact ⟨rfl, rfl, fraction.value, fraction.buffer⟩
  · obtain ⟨radix, whole⟩ := same.scanWhole
    dsimp only
    rw [radix, whole.value, whole.buffer.ch]
    split
    · have fraction := whole.buffer.next.scanFraction (Scanner.scanWhole s).1
      dsimp only
      rw [fraction.value]
      exact ⟨rfl, rfl, fraction.buffer.result _⟩
    · exact ⟨rfl, rfl, whole.buffer.result _⟩

theorem SameBuffer.scanNumber {start start' : Scanner} (starts : SameBuffer start start')
    (same : SameBuffer s s') (seenDot : Bool) :
    SameResult (scanNumber start s seenDot) (scanNumber start' s' seenDot) := by
  obtain ⟨radix, hasDot, mantissa⟩ := same.scanMantissa seenDot
  unfold Scanner.scanNumber
  generalize Scanner.scanMantissa s seenDot = found at radix hasDot mantissa ⊢
  generalize Scanner.scanMantissa s' seenDot = found' at radix hasDot mantissa ⊢
  obtain ⟨_, _, _, stop⟩ := found
  obtain ⟨ownRadix, ownDot, ownDigits, stop'⟩ := found'
  obtain ⟨value, buffer⟩ := mantissa
  dsimp only at radix hasDot value buffer ⊢
  subst radix hasDot value
  have exponent := (buffer.errorIf (!ownDigits.present) .noDigits).scanExponent ownRadix
  generalize Scanner.scanExponent ownRadix (stop.errorIf (!ownDigits.present) .noDigits) = tail
    at exponent ⊢
  generalize Scanner.scanExponent ownRadix (stop'.errorIf (!ownDigits.present) .noDigits) = tail'
    at exponent ⊢
  obtain ⟨_, stop⟩ := tail
  obtain ⟨own, stop'⟩ := tail'
  obtain ⟨value, buffer⟩ := exponent
  dsimp only at value buffer ⊢
  subst value
  have checked := (buffer.errorIf (own.isNone && ownRadix == .hexadecimal &&
    (ownDot || own.isSome)) .hexadecimalExponent).errorIf
      (!(ownDot || own.isSome) && ownDigits.invalid) .invalidDigit
  rw [starts.since checked]
  exact (checked.errorIf _ _).result _

theorem SameBuffer.scanDigits (same : SameBuffer s s') (base rounds : Nat) :
    SameBuffer (scanDigits base rounds s) (scanDigits base rounds s') := by
  induction rounds generalizing s s' with
  | zero => exact same
  | succ rounds ih =>
      rw [Scanner.scanDigits, Scanner.scanDigits, same.ch]
      split
      · exact ih same.next
      · exact same.error _ _

theorem SameBuffer.scanEscape (same : SameBuffer s s') (quote : Nat) :
    SameBuffer (scanEscape quote s) (scanEscape quote s') := by
  unfold Scanner.scanEscape
  dsimp only
  rw [same.next.ch]
  split
  · exact same.next.error _ _
  · split
    · exact same.next.next
    · split
      · exact same.next.scanDigits _ _
      · split
        · exact same.next.next.scanDigits _ _
        · split
          · exact same.next.next.scanDigits _ _
          · split
            · exact same.next.next.scanDigits _ _
            · exact same.next.error _ _

theorem SameBuffer.scanStringRounds (same : SameBuffer s s') (quote rounds count : Nat) :
    SameResult (scanStringRounds quote rounds count s)
      (scanStringRounds quote rounds count s') := by
  induction rounds generalizing s s' count with
  | zero => exact same.result _
  | succ rounds ih =>
      rw [Scanner.scanStringRounds, Scanner.scanStringRounds, same.ch]
      split
      · exact (same.error _ _).result _
      · split
        · exact same.result _
        · split
          · exact (same.error _ _).result _
          · split
            · exact ih (same.scanEscape quote) (count + 1)
            · exact ih same.next (count + 1)

theorem SameBuffer.scanString (same : SameBuffer s s') (quote : Nat) :
    SameResult (scanString quote s) (scanString quote s') := by
  unfold Scanner.scanString
  rw [same.text]
  exact same.next.scanStringRounds quote _ 0

theorem SameBuffer.scanRawString (same : SameBuffer s s') :
    SameBuffer s.scanRawString s'.scanRawString := by
  have stops := same.next.skipWhile fun r => r != 0x60
  unfold Scanner.scanRawString
  dsimp only
  rw [stops.ch]
  split
  · exact stops.error _ _
  · exact stops

theorem SameBuffer.scanChar (same : SameBuffer s s') : SameBuffer s.scanChar s'.scanChar := by
  have found := same.scanString 0x27
  unfold Scanner.scanChar
  dsimp only
  rw [found.value]
  split
  · exact found.buffer
  · exact found.buffer.error _ _

theorem SameBuffer.scanGeneralComment (same : SameBuffer s s') (rounds : Nat) :
    SameBuffer (scanGeneralComment rounds s) (scanGeneralComment rounds s') := by
  induction rounds generalizing s s' with
  | zero => exact same
  | succ rounds ih =>
      rw [Scanner.scanGeneralComment, Scanner.scanGeneralComment, same.ch, same.next.ch]
      split
      · exact same.error _ _
      · split
        · exact same.next.next
        · exact ih same.next

theorem SameBuffer.scanToken (same : SameBuffer s s') (unicode : Unicode) :
    SameResult (scanToken unicode s) (scanToken unicode s') := by
  unfold Scanner.scanToken
  rw [same.ch, same.next.ch, same.text]
  split
  · exact same.result _
  · split
    · exact (same.next.skipWhile _).result _
    · split
      · have number := SameBuffer.scanNumber same same false
        dsimp only
        rw [number.value]
        exact number.buffer.result _
      · split
        · exact ((same.scanString 0x22).buffer.next).result _
        · split
          · exact same.scanChar.next.result _
          · split
            · split
              · obtain ⟨-, stops⟩ := SameBuffer.scanNumber same same.next true
                generalize Scanner.scanNumber s s.next true = number at stops ⊢
                generalize Scanner.scanNumber s' s'.next true = number' at stops ⊢
                exact stops.result _
              · exact same.next.result _
            · split
              · split
                · exact (same.next.next.skipWhile _).result _
                · split
                  · exact (same.next.next.scanGeneralComment _).result _
                  · exact same.next.result _
              · split
                · exact same.scanRawString.next.result _
                · exact same.next.result _

structure SameScan {α : Type} (found found' : α × Scanner × Scanner) : Prop where
  value : found'.1 = found.1
  start : SameBuffer found.2.1 found'.2.1
  stop : SameBuffer found.2.2 found'.2.2

theorem SameBuffer.scanRounds (same : SameBuffer s s') (unicode : Unicode) (rounds : Nat) :
    SameScan (scanRounds unicode rounds s) (scanRounds unicode rounds s') := by
  induction rounds generalizing s s' with
  | zero => exact ⟨rfl, same, same⟩
  | succ rounds ih =>
      have starts := same.skipWhile isWhitespace
      obtain ⟨value, stops⟩ := starts.scanToken unicode
      rw [Scanner.scanRounds, Scanner.scanRounds]
      generalize Scanner.scanToken unicode (s.skipWhile isWhitespace) = found at value stops ⊢
      generalize Scanner.scanToken unicode (s'.skipWhile isWhitespace) = found' at value stops ⊢
      obtain ⟨scanned, stop⟩ := found
      obtain ⟨scanned', stop'⟩ := found'
      dsimp only at value stops
      subst value
      cases scanned' with
      | some token => exact ⟨rfl, starts, stops⟩
      | none => exact ih stops

theorem SameBuffer.scan (same : SameBuffer s s') (unicode : Unicode) :
    SameScan (s.scan unicode) (s'.scan unicode) := by
  unfold Scanner.scan
  rw [same.text]
  exact same.scanRounds unicode _

example : runes [0xC3, 0xA9, 0xFF] = [0xE9, runeError] := by
  decide +kernel

end Scanner

end McoaGateway
