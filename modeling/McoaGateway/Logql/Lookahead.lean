/-
Looking ahead without side effects.

`Reference` is the lexer with `isFunc`, `trimSpace` and `tryScanDuration` as
functions of the text that is left; its scanner is never copied.  The lexer of the
source gives the same tokens as long as no copy of its scanner refills its buffer
(`lexer_agrees`).  The results of looking ahead are right in any case; what a copy
takes from the reader is missing later.
-/

import McoaGateway.Logql.Coverage
import McoaGateway.TextScanner.Runes

namespace McoaGateway.Logql

open GoString
open Scanner

/-! ### The reference -/

namespace Reference

def trimSpace (text : List Nat) : List Nat :=
  text.dropWhile isSpaceRune

def isFuncFrom : GoString → List Nat → Bool
  | _, [] => false
  | read, r :: rest =>
      let read := read ++ encodeRune r
      if read = ascii "(" then true
      else if read = ascii "by" ∨ read = ascii "without" then
        (trimSpace rest).head? == some 0x28
      else isFuncFrom read rest

def isFunc (text : GoString) : Bool :=
  isFuncFrom [] (trimSpace (runes text))

section

variable (library : Library)

/-- The duration, and the number of characters behind the number. -/
def tryScanDuration (number text : GoString) : Option (Int × Nat) :=
  let consumed := ((runes text).takeWhile (isDurationPart library)).length
  if consumed = 0 then none
  else
    (library.parseDuration (number ++ takeRunes consumed text)).map fun d => (d, consumed)

def lexWord (state : LexState) (tokenText : GoString) : Option Token × LexState :=
  let s := state.scanner
  let tokenNext := tokenText ++ peekString s
  match funcTokens.lookup tokenNext, isFunc s.next.text with
  | some kind, true => (state.moveTo s.next).token kind
  | _, _ =>
      match funcTokens.lookup tokenText, isFunc s.text with
      | some kind, true => state.token kind
      | _, _ => lexKeyword state tokenText tokenNext

def lexNumber (state : LexState) (tokenText : GoString) : Option Token × LexState :=
  match tryScanDuration library tokenText state.scanner.text with
  | some (d, consumed) =>
      ((state.moveTo (Nat.iterate Scanner.next consumed state.scanner)).withDuration d).token
        .duration
  | none => (state.withStr tokenText).token .number

def lexDash (state : LexState) (tokenText : GoString) : Option Token × LexState :=
  match tryScanDuration library tokenText state.scanner.text with
  | some (d, consumed) =>
      ((state.moveTo (Nat.iterate Scanner.next consumed state.scanner)).withDuration d).token
        .duration
  | none => lexWord state tokenText

def lexFound (state : LexState) (found : Scanned × Scanner × Scanner) :
    Option (Option Token × LexState) :=
  let tokenText := found.2.1.since found.2.2
  let state := state.moveTo found.2.2
  match found.1 with
  | .eof => some (none, state)
  | .int | .float => some (lexNumber library state tokenText)
  | .string | .rawString => some (lexString state tokenText)
  | .ident | .char => some (lexWord state tokenText)
  | .rune r =>
      if r = 0x2D then
        if found.2.2.ch = some 0x2D then lexFlag state
        else some (lexDash library state tokenText)
      else if r = 0x5B then some (lexRange state)
      else some (lexWord state tokenText)

def lex (state : LexState) : Option (Option Token × LexState) :=
  lexFound library state (tokenAt library state.scanner)

end

end Reference

/-- The results of the first calls, up to one that does not return. -/
def calls (lexer : LexState → Option (Option Token × LexState)) :
    Nat → LexState → List (Option (Option Token))
  | 0, _ => []
  | count + 1, state =>
      match lexer state with
      | none => [none]
      | some (token, next) => some token :: calls lexer count next

/-! ### The results of looking ahead -/

variable {library : Library} {s s' : Scanner}

theorem isFuncRounds_eq (rounds : Nat) (read : GoString) (whole : Whole s)
    (enough : s.text.length < rounds) :
    (isFuncRounds rounds read s).1 = Reference.isFuncFrom read (runes s.text) := by
  induction rounds generalizing read s with
  | zero => omega
  | succ rounds ih =>
      rw [isFuncRounds]
      cases isCh : s.ch with
      | none =>
          rw [whole.runes_text, isCh]
          rfl
      | some r =>
          have shorter := length_next_lt isCh
          rw [whole.runes_next isCh, Reference.isFuncFrom]
          dsimp only
          split
          · rfl
          · split
            · rw [(whole.next.skipWhile isSpaceRune).ch_eq, whole.next.runes_skipWhile]
              rfl
            · exact ih _ whole.next (by omega)

theorem isFunc_eq (whole : Whole s) : (isFunc s).1 = Reference.isFunc s.text := by
  unfold isFunc Reference.isFunc Reference.trimSpace
  dsimp only
  rw [isFuncRounds_eq _ _ (whole.skipWhile isSpaceRune) (Nat.lt_succ_self _),
    whole.runes_skipWhile]

theorem countRounds_eq (counts : Nat → Bool) (rounds : Nat) (whole : Whole s)
    (enough : s.text.length ≤ rounds) :
    countRounds counts rounds s = ((runes s.text).takeWhile counts).length := by
  induction rounds generalizing s with
  | zero =>
      rw [List.length_eq_zero_iff.mp (Nat.le_zero.mp enough)]
      rfl
  | succ rounds ih =>
      rw [countRounds]
      cases isCh : s.ch with
      | none =>
          rw [whole.runes_text, isCh]
          rfl
      | some r =>
          have shorter := length_next_lt isCh
          rw [whole.runes_next isCh, List.takeWhile_cons]
          dsimp only
          split
          · rw [ih whole.next (by omega), List.length_cons]
          · rfl

theorem tryScanDuration_eq (number : GoString) (whole : Whole s) :
    tryScanDuration library number s =
      match Reference.tryScanDuration library number s.text with
      | none => (none, s.after (s.skipWhile (isDurationPart library)))
      | some (d, consumed) =>
          (some d, Nat.iterate Scanner.next consumed
            (s.after (s.skipWhile (isDurationPart library)))) := by
  have count := countRounds_eq (isDurationPart library) s.text.length whole (Nat.le_refl _)
  have bytes : s.since (s.skipWhile (isDurationPart library)) =
      takeRunes (countRounds (isDurationPart library) s.text.length s) s.text := by
    apply since_eq
    rw [skipWhile, ← iterate_countRounds]
    exact whole.since_iterate _
  unfold tryScanDuration Reference.tryScanDuration
  dsimp only
  rw [bytes, count]
  split
  · rfl
  · cases library.parseDuration _ <;> rfl

/-! ### One call -/

/-- States that differ at most in the errors and steps of their scanners. -/
structure Agrees (state ref : LexState) : Prop where
  buffer : SameBuffer state.scanner ref.scanner
  lval : ref.lval = state.lval

structure SameToken (result ref : Option Token × LexState) : Prop where
  token : ref.1 = result.1
  state : Agrees result.2 ref.2

theorem Agrees.moveTo {state ref : LexState} (agrees : Agrees state ref)
    (same : SameBuffer s s') : Agrees (state.moveTo s) (ref.moveTo s') :=
  ⟨same, agrees.lval⟩

theorem Agrees.withStr {state ref : LexState} (agrees : Agrees state ref) (str : GoString) :
    Agrees (state.withStr str) (ref.withStr str) :=
  ⟨agrees.buffer, by rw [LexState.withStr, LexState.withStr, agrees.lval]⟩

theorem Agrees.withDuration {state ref : LexState} (agrees : Agrees state ref) (d : Int) :
    Agrees (state.withDuration d) (ref.withDuration d) :=
  ⟨agrees.buffer, by rw [LexState.withDuration, LexState.withDuration, agrees.lval]⟩

theorem Agrees.sameToken {state ref : LexState} (agrees : Agrees state ref) (kind : Terminal) :
    SameToken (state.token kind) (ref.token kind) :=
  ⟨by rw [LexState.token, LexState.token, agrees.lval], agrees⟩

theorem Agrees.error {state ref : LexState} (agrees : Agrees state ref) (message : GoString) :
    SameToken (none, state.error message) (none, ref.error message) :=
  ⟨rfl, agrees.buffer.error _ _, agrees.lval⟩

section

variable {state ref : LexState} (agrees : Agrees state ref)

include agrees

theorem Agrees.peekString : peekString ref.scanner = peekString state.scanner := by
  unfold Logql.peekString
  rw [agrees.buffer.ch]

theorem Agrees.lexKeyword (tokenText tokenNext : GoString) :
    SameToken (lexKeyword state tokenText tokenNext) (lexKeyword ref tokenText tokenNext) := by
  unfold Logql.lexKeyword
  split
  · exact (agrees.moveTo agrees.buffer.next).sameToken _
  · split
    · exact agrees.sameToken _
    · exact (agrees.withStr _).sameToken _

theorem Agrees.lexString (tokenText : GoString) :
    SameToken (lexString state tokenText) (lexString ref tokenText) := by
  unfold Logql.lexString
  split
  · exact agrees.error _
  · split
    · exact (agrees.withStr _).error _
    · exact (agrees.withStr _).sameToken _

theorem Agrees.lexRange : SameToken (lexRange state) (lexRange ref) := by
  have stops := agrees.buffer.skipWhile fun r => r != 0x5D
  unfold Logql.lexRange
  dsimp only
  rw [stops.ch, agrees.buffer.since stops]
  split
  · exact (agrees.moveTo stops).error _
  · exact ((agrees.moveTo stops.next).withStr _).sameToken _

theorem Agrees.lexFlag :
    Option.Rel SameToken (lexFlag state) (lexFlag ref) := by
  have stops := agrees.buffer.skipWhile fun r => !isSpaceRune r
  have moved := agrees.moveTo stops.next
  unfold Logql.lexFlag
  dsimp only
  rw [stops.ch, agrees.buffer.since stops]
  split
  · exact .none
  · split
    · exact .some ((moved.withStr _).sameToken _)
    · split
      · exact .some ((moved.withStr _).sameToken _)
      · exact .some ⟨rfl, moved⟩

theorem Agrees.lexShort (whole : Whole state.scanner) (tokenText tokenNext : GoString)
    (within : ∀ copy ∈ shortLookaheads state.scanner tokenText,
      copy.reader = state.scanner.reader) :
    SameToken (lexShort state tokenText tokenNext)
      (match funcTokens.lookup tokenText, Reference.isFunc ref.scanner.text with
        | some kind, true => ref.token kind
        | _, _ => Logql.lexKeyword ref tokenText tokenNext) := by
  unfold shortLookaheads at within
  unfold Logql.lexShort
  cases found : funcTokens.lookup tokenText with
  | none => exact agrees.lexKeyword _ _
  | some kind =>
      rw [found] at within
      have same := sameBuffer_after (within _ (List.mem_singleton.mpr rfl))
      have moved : Agrees (state.moveTo (state.scanner.after (isFunc state.scanner).2)) ref :=
        ⟨same.symm.trans agrees.buffer, agrees.lval⟩
      rw [agrees.buffer.text, ← isFunc_eq whole]
      dsimp only
      cases (isFunc state.scanner).1 with
      | true => exact moved.sameToken kind
      | false => exact moved.lexKeyword _ _

theorem Agrees.lexWord (whole : Whole state.scanner) (tokenText : GoString)
    (within : ∀ copy ∈ wordLookaheads state.scanner tokenText,
      copy.reader = state.scanner.reader) :
    SameToken (lexWord state tokenText) (Reference.lexWord ref tokenText) := by
  rw [lexWord_eq]
  unfold Reference.lexWord
  dsimp only
  unfold wordLookaheads at within
  rw [agrees.peekString]
  cases found : funcTokens.lookup (tokenText ++ Logql.peekString state.scanner) with
  | none =>
      rw [found] at within
      exact agrees.lexShort whole tokenText _ within
  | some kind =>
      rw [found] at within
      rw [agrees.buffer.next.text, ← isFunc_eq whole.next]
      dsimp only at within ⊢
      generalize isFunc state.scanner.next = looked at within ⊢
      have isMember : looked.2 ∈ (if looked.1 = true then [looked.2]
          else looked.2 :: shortLookaheads (state.scanner.after looked.2) tokenText) := by
        split <;> exact List.mem_cons_self
      have same := sameBuffer_after (within _ isMember)
      have moved : Agrees (state.moveTo (state.scanner.after looked.2)) ref :=
        ⟨same.symm.trans agrees.buffer, agrees.lval⟩
      cases isFunction : looked.1 with
      | true => exact (moved.moveTo moved.buffer.next).sameToken kind
      | false =>
          rw [isFunction, if_neg (by decide)] at within
          exact moved.lexShort (same.whole whole) tokenText _ fun copy member =>
            (within copy (List.mem_cons_of_mem _ member)).trans same.reader.symm

theorem Agrees.lexNumber (whole : Whole state.scanner) (tokenText : GoString)
    (within : (state.scanner.skipWhile (isDurationPart library)).reader =
      state.scanner.reader) :
    SameToken (lexNumber library state tokenText)
      (Reference.lexNumber library ref tokenText) := by
  have same := (sameBuffer_after within).symm.trans agrees.buffer
  unfold Logql.lexNumber Reference.lexNumber
  rw [tryScanDuration_eq tokenText whole, agrees.buffer.text]
  cases Reference.tryScanDuration library tokenText state.scanner.text with
  | none => exact ((agrees.moveTo same).withStr _).sameToken _
  | some found =>
      exact ((agrees.moveTo (same.iterate found.2)).withDuration _).sameToken _

theorem Agrees.lexDash (whole : Whole state.scanner) (tokenText : GoString)
    (within : ∀ copy ∈ (match tryScanDuration library tokenText state.scanner with
        | (some _, _) => [state.scanner.skipWhile (isDurationPart library)]
        | (none, s) => state.scanner.skipWhile (isDurationPart library) ::
            wordLookaheads s tokenText), copy.reader = state.scanner.reader) :
    SameToken (lexDash library state tokenText) (Reference.lexDash library ref tokenText) := by
  have duration : (state.scanner.skipWhile (isDurationPart library)).reader =
      state.scanner.reader := by
    apply within
    split <;> exact List.mem_cons_self
  have original := sameBuffer_after duration
  have same := original.symm.trans agrees.buffer
  unfold Logql.lexDash Reference.lexDash
  rw [tryScanDuration_eq tokenText whole] at within ⊢
  rw [agrees.buffer.text]
  cases scanned : Reference.tryScanDuration library tokenText state.scanner.text with
  | none =>
      rw [scanned] at within
      exact (agrees.moveTo same).lexWord (original.whole whole) tokenText fun copy member =>
        (within copy (List.mem_cons_of_mem _ member)).trans original.reader.symm
  | some found =>
      exact ((agrees.moveTo (same.iterate found.2)).withDuration _).sameToken _

end

theorem sameScan_tokenRounds (same : SameBuffer s s') (rounds : Nat) :
    SameScan (tokenRounds library rounds s) (tokenRounds library rounds s') := by
  induction rounds generalizing s s' with
  | zero => exact same.scan library.unicode
  | succ rounds ih =>
      have found := same.scan library.unicode
      have comment : SameBuffer (skipComment (s.scan library.unicode).2.2)
          (skipComment (s'.scan library.unicode).2.2) := by
        unfold skipComment
        rw [found.stop.ch]
        split
        · exact found.stop
        · exact (found.stop.skipWhile _).next
      rw [tokenRounds, tokenRounds, found.value]
      split
      · exact ih comment
      · exact found

theorem sameScan_tokenAt (same : SameBuffer s s') :
    SameScan (tokenAt library s) (tokenAt library s') := by
  unfold tokenAt
  rw [same.text]
  exact sameScan_tokenRounds same _

theorem whole_skipComment (whole : Whole s) : Whole (skipComment s) := by
  unfold skipComment
  split
  · exact whole
  · exact (whole.skipWhile _).next

theorem Reaches.whole {start : Scanner} (reaches : Reaches library s start) (whole : Whole s) :
    Whole start := by
  induction reaches with
  | token passes => exact passes.reads.whole whole
  | hash passes _ _ ih => exact ih (whole_skipComment (passes.reads.whole whole).next)

theorem TokenFound.whole {found : Scanned × Scanner × Scanner}
    (isFound : TokenFound library s found) (whole : Whole s) : Whole found.2.2 := by
  have start := isFound.reaches.whole whole
  have token := isFound.tokenAt
  generalize found.1 = scanned at token
  generalize found.2.2 = stop at token ⊢
  cases token with
  | eof => exact start
  | rune => exact start.next
  | literal _ _ reads => exact reads.whole start.next

theorem Agrees.lex {state ref : LexState} (agrees : Agrees state ref)
    (whole : Whole state.scanner) (within : LooksWithin library state.scanner) :
    Option.Rel SameToken (lex library state) (Reference.lex library ref) := by
  have found : SameScan (tokenAt library state.scanner) (tokenAt library ref.scanner) :=
    sameScan_tokenAt agrees.buffer
  have wholeStop := (tokenAt_found library state.scanner).whole whole
  rw [lex_eq, Reference.lex]
  unfold LooksWithin at within
  generalize tokenAt library state.scanner = own at found wholeStop within ⊢
  generalize tokenAt library ref.scanner = other at found ⊢
  obtain ⟨scanned, start, stop⟩ := own
  obtain ⟨scanned', start', stop'⟩ := other
  obtain ⟨value, starts, stops⟩ := found
  dsimp only at value starts stops wholeStop within
  subst value
  have moved := agrees.moveTo stops
  unfold lexFound Reference.lexFound
  unfold lookaheads at within
  dsimp only at within ⊢
  rw [starts.since stops, stops.ch]
  cases scanned' with
  | eof => exact .some ⟨rfl, moved⟩
  | int => exact .some (moved.lexNumber wholeStop _ (within _ List.mem_cons_self))
  | float => exact .some (moved.lexNumber wholeStop _ (within _ List.mem_cons_self))
  | string => exact .some (moved.lexString _)
  | rawString => exact .some (moved.lexString _)
  | ident => exact .some (moved.lexWord wholeStop _ within)
  | char => exact .some (moved.lexWord wholeStop _ within)
  | rune r =>
      dsimp only at within ⊢
      split at within
      · split at within
        · rename_i isDash isFlag
          rw [if_pos isDash, if_pos isFlag, if_pos isDash, if_pos isFlag]
          exact moved.lexFlag
        · rename_i isDash notFlag
          rw [if_pos isDash, if_neg notFlag, if_pos isDash, if_neg notFlag]
          exact .some (moved.lexDash wholeStop _ within)
      · rename_i notDash
        rw [if_neg notDash, if_neg notDash]
        split at within
        · rename_i isBracket
          rw [if_pos isBracket, if_pos isBracket]
          exact .some moved.lexRange
        · rename_i notBracket
          rw [if_neg notBracket, if_neg notBracket]
          exact .some (moved.lexWord wholeStop _ within)

/-! ### The buffer after a call -/

theorem whole_iterate (count : Nat) (whole : Whole s) :
    Whole (Nat.iterate Scanner.next count s) := by
  induction count generalizing s with
  | zero => exact whole
  | succ count ih => exact ih whole.next

section

variable {state : LexState} (whole : Whole state.scanner)

include whole

theorem lexKeyword_whole (tokenText tokenNext : GoString) :
    Whole (lexKeyword state tokenText tokenNext).2.scanner := by
  unfold lexKeyword
  split
  · exact whole.next
  · split
    · exact whole
    · exact whole

theorem lexString_whole (tokenText : GoString) :
    Whole (lexString state tokenText).2.scanner := by
  unfold lexString
  split
  · exact whole.error _
  · split
    · exact whole.error _
    · exact whole

theorem lexRange_whole : Whole (lexRange state).2.scanner := by
  have stop := whole.skipWhile fun r => r != 0x5D
  unfold lexRange
  dsimp only
  split
  · exact stop.error _
  · exact stop.next

theorem lexFlag_whole (result : Option Token × LexState) (lexed : lexFlag state = some result) :
    Whole result.2.scanner := by
  have stop := (whole.skipWhile fun r => !isSpaceRune r).next
  unfold lexFlag at lexed
  dsimp only at lexed
  split at lexed
  · cases lexed
  · split at lexed
    · cases lexed
      exact stop
    · split at lexed
      · cases lexed
        exact stop
      · cases lexed
        exact stop

theorem whole_after {copy : Scanner} (copySuffix : copy.reader <:+ state.scanner.reader) :
    Whole (state.scanner.after copy) := by
  refine ⟨whole.capacity, whole.full.imp_left fun empty => ?_⟩
  rw [empty] at copySuffix
  exact List.suffix_nil.mp copySuffix

theorem lexShort_whole (tokenText tokenNext : GoString) :
    Whole (lexShort state tokenText tokenNext).2.scanner := by
  have moved := whole_after whole (reads_isFunc state.scanner).advances.reader
  unfold lexShort
  split
  · exact lexKeyword_whole whole _ _
  · dsimp only
    split
    · exact moved
    · exact lexKeyword_whole
        (show Whole (state.moveTo (state.scanner.after (isFunc state.scanner).2)).scanner from
          moved)
        _ _

theorem lexWord_whole (tokenText : GoString) : Whole (lexWord state tokenText).2.scanner := by
  have moved := whole_after whole ((advances_next state.scanner).trans
    (reads_isFunc state.scanner.next).advances).reader
  rw [lexWord_eq]
  split
  · exact lexShort_whole whole _ _
  · dsimp only
    generalize isFunc state.scanner.next = looked at moved ⊢
    split
    · exact moved.next
    · exact lexShort_whole
        (show Whole (state.moveTo (state.scanner.after looked.2)).scanner from moved) _ _

theorem tryScanDuration_whole (tokenText : GoString) :
    Whole (tryScanDuration library tokenText state.scanner).2 := by
  have moved := whole_after whole
    (reads_skipWhile_any (isDurationPart library) state.scanner).advances.reader
  rw [tryScanDuration_eq tokenText whole]
  split
  · exact moved
  · exact whole_iterate _ moved

theorem lexNumber_whole (tokenText : GoString) :
    Whole (lexNumber library state tokenText).2.scanner := by
  have scanned : Whole (tryScanDuration library tokenText state.scanner).2 :=
    tryScanDuration_whole whole tokenText
  unfold lexNumber
  split
  · rename_i isScanned
    rw [isScanned] at scanned
    exact scanned
  · rename_i isScanned
    rw [isScanned] at scanned
    exact scanned

theorem lexDash_whole (tokenText : GoString) :
    Whole (lexDash library state tokenText).2.scanner := by
  have scanned : Whole (tryScanDuration library tokenText state.scanner).2 :=
    tryScanDuration_whole whole tokenText
  unfold lexDash
  split
  · rename_i isScanned
    rw [isScanned] at scanned
    exact scanned
  · rename_i s isScanned
    rw [isScanned] at scanned
    exact lexWord_whole (show Whole (state.moveTo s).scanner from scanned) _

theorem lex_whole (next : LexState) (token : Option Token)
    (lexed : lex library state = some (token, next)) : Whole next.scanner := by
  have stop := (tokenAt_found library state.scanner).whole whole
  have kept : ∀ result : Option Token × LexState, Whole result.2.scanner →
      some result = some (token, next) → Whole next.scanner := by
    intro result whole same
    cases same
    exact whole
  have moved : Whole (state.moveTo (tokenAt library state.scanner).2.2).scanner := stop
  rw [lex_eq] at lexed
  unfold lexFound at lexed
  dsimp only at lexed
  split at lexed
  · exact kept _ stop lexed
  · exact kept _ (lexNumber_whole moved _) lexed
  · exact kept _ (lexNumber_whole moved _) lexed
  · exact kept _ (lexString_whole moved _) lexed
  · exact kept _ (lexString_whole moved _) lexed
  · exact kept _ (lexWord_whole moved _) lexed
  · exact kept _ (lexWord_whole moved _) lexed
  · split at lexed
    · split at lexed
      · exact lexFlag_whole moved _ lexed
      · exact kept _ (lexDash_whole moved _) lexed
    · split at lexed
      · exact kept _ (lexRange_whole moved) lexed
      · exact kept _ (lexWord_whole moved _) lexed

end

/-! ### All calls -/

/-- The states that the lexer is in before a call. -/
inductive Called (library : Library) (start : LexState) : LexState → Prop where
  | start : Called library start start
  | next {state next : LexState} {token : Option Token} (before : Called library start state)
      (lexed : lex library state = some (token, next)) : Called library start next

theorem calls_agree (count : Nat) {start state ref : LexState} (called : Called library start state)
    (agrees : Agrees state ref) (whole : Whole state.scanner)
    (within : ∀ state, Called library start state → LooksWithin library state.scanner) :
    calls (lex library) count state = calls (Reference.lex library) count ref := by
  induction count generalizing state ref with
  | zero => rfl
  | succ count ih =>
      have same := agrees.lex whole (within state called)
      rw [calls, calls]
      cases lexed : lex library state with
      | none =>
          rw [lexed] at same
          cases refLexed : Reference.lex library ref with
          | none => rfl
          | some result =>
              rw [refLexed] at same
              cases same
      | some result =>
          rw [lexed] at same
          cases refLexed : Reference.lex library ref with
          | none =>
              rw [refLexed] at same
              cases same
          | some refResult =>
              rw [refLexed] at same
              obtain ⟨token, next⟩ := result
              obtain ⟨refToken, refNext⟩ := refResult
              cases same with
              | some same =>
                  have tokens : refToken = token := same.token
                  dsimp only
                  rw [tokens, ih (.next called lexed) same.state
                    (lex_whole whole next token lexed)]

theorem Called.whole {start state : LexState} (called : Called library start state)
    (whole : Whole start.scanner) : Whole state.scanner := by
  induction called with
  | start => exact whole
  | next _ lexed ih => exact lex_whole ih _ _ lexed

theorem Called.reader {start state : LexState} (called : Called library start state) :
    state.scanner.reader <:+ start.scanner.reader := by
  induction called with
  | start => exact List.suffix_refl _
  | next _ lexed ih => exact (lex_advances _ _ _ lexed).reader.trans ih

/-- An input that fits into the buffer is never read ahead of it. -/
theorem Called.looksWithin {parser : Parser} {capacity : Nat} {input : GoString}
    (short : input.length ≤ capacity) {state : LexState}
    (called : Called library (parser.start capacity input) state) :
    LooksWithin library state.scanner :=
  looksWithin_of_short library capacity parser input short called.reader

/-! ### Calls that lose a part of the text -/

theorem reader_eq_of_text (held : s'.held = s.held) (same : s.text = s'.text) :
    s.reader = s'.reader := by
  rw [text, text, held] at same
  exact List.append_cancel_left same

theorem reader_eq_of_next (held : s'.held = s.held) (same : s.next.text = s'.next.text) :
    s.reader = s'.reader := by
  rw [Scanner.text_next, Scanner.text_next, held] at same
  exact List.append_cancel_left same

theorem function_tokens :
    ∀ function ∈ funcTokens, function.2 ≠ .identifier ∧
      (∀ keyword ∈ tokens, keyword.2 ≠ function.2) ∧
      ∀ other ∈ funcTokens, other.2 = function.2 → other.1 = function.1 := by
  decide +kernel

theorem lexKeyword_not_function (state : LexState) (tokenText tokenNext function : GoString)
    (kind : Terminal) (isFunction : funcTokens.lookup function = some kind) :
    ∀ token, (lexKeyword state tokenText tokenNext).1 = some token → token.kind ≠ kind := by
  obtain ⟨notIdentifier, notKeyword, -⟩ := function_tokens _ (mem_of_lookup isFunction)
  intro token isToken
  unfold lexKeyword at isToken
  split at isToken
  · rename_i own found
    cases isToken
    exact notKeyword _ (mem_of_lookup found)
  · split at isToken
    · rename_i own found
      cases isToken
      exact notKeyword _ (mem_of_lookup found)
    · cases isToken
      exact Ne.symm notIdentifier

theorem lexKeyword_reader {state ref : LexState} (held : ref.scanner.held = state.scanner.held)
    (tokenText tokenNext : GoString)
    (same : (lexKeyword state tokenText tokenNext).2.scanner.text =
      (lexKeyword ref tokenText tokenNext).2.scanner.text) :
    state.scanner.reader = ref.scanner.reader := by
  unfold lexKeyword at same
  split at same
  · exact reader_eq_of_next held same
  · split at same
    · exact reader_eq_of_text held same
    · exact reader_eq_of_text held same

/-- Copies that are left with what the scanner had in the end have not refilled. -/
theorem shortLookaheads_within {tokenText : GoString} {reader : GoString}
    (found : ∀ kind, funcTokens.lookup tokenText = some kind → (isFunc s).2.reader = reader) :
    ∀ copy ∈ shortLookaheads s tokenText, copy.reader = reader := by
  intro copy member
  unfold shortLookaheads at member
  cases isFunction : funcTokens.lookup tokenText with
  | none =>
      rw [isFunction] at member
      cases member
  | some kind =>
      rw [isFunction] at member
      rw [List.mem_singleton.mp member]
      exact found kind isFunction

/-- The scanner has the same buffer as that of the reference, but may have lost a part
of the reader. -/
theorem lexShort_reader {state ref : LexState} (held : ref.scanner.held = state.scanner.held)
    (suffix : state.scanner.reader <:+ ref.scanner.reader) (tokenText tokenNext : GoString)
    (token : (match funcTokens.lookup tokenText, Reference.isFunc ref.scanner.text with
        | some kind, true => ref.token kind
        | _, _ => lexKeyword ref tokenText tokenNext).1.map Token.kind =
      (lexShort state tokenText tokenNext).1.map Token.kind)
    (same : (lexShort state tokenText tokenNext).2.scanner.text =
      (match funcTokens.lookup tokenText, Reference.isFunc ref.scanner.text with
        | some kind, true => ref.token kind
        | _, _ => lexKeyword ref tokenText tokenNext).2.scanner.text) :
    state.scanner.reader = ref.scanner.reader ∧
      ∀ copy ∈ shortLookaheads state.scanner tokenText,
        copy.reader = ref.scanner.reader := by
  unfold lexShort at token same
  cases isFunction : funcTokens.lookup tokenText with
  | none =>
      rw [isFunction] at same
      refine ⟨lexKeyword_reader held tokenText tokenNext same, shortLookaheads_within ?_⟩
      intro kind impossible
      rw [isFunction] at impossible
      cases impossible
  | some kind =>
      rw [isFunction] at token same
      have copySuffix := (reads_isFunc state.scanner).advances.reader
      have notKeyword := fun state =>
        lexKeyword_not_function state tokenText tokenNext tokenText kind isFunction
      have afterCopy : (isFunc state.scanner).2.reader = ref.scanner.reader := by
        dsimp only at token same
        generalize isFunc state.scanner = looked at token same ⊢
        generalize Reference.isFunc ref.scanner.text = expected at token same
        generalize looked.1 = isCall at token same
        cases isCall with
        | true =>
            cases expected with
            | true =>
                exact reader_eq_of_text (s := state.scanner.after looked.2) held same
            | false =>
                exfalso
                obtain ⟨own, isOwn, isKind⟩ := Option.map_eq_some_iff.mp token
                exact notKeyword _ own isOwn isKind
        | false =>
            cases expected with
            | true =>
                exfalso
                obtain ⟨own, isOwn, isKind⟩ := Option.map_eq_some_iff.mp token.symm
                exact notKeyword _ own isOwn isKind
            | false =>
                exact lexKeyword_reader
                  (show ref.scanner.held =
                    (state.moveTo (state.scanner.after looked.2)).scanner.held from held)
                  tokenText tokenNext same
      rw [afterCopy] at copySuffix
      exact ⟨suffix.eq_of_length (Nat.le_antisymm suffix.length_le copySuffix.length_le),
        shortLookaheads_within fun _ _ => afterCopy⟩

theorem word_not_longer {state : LexState} {tokenText tokenNext next : GoString} {kind : Terminal}
    (isLonger : funcTokens.lookup (tokenText ++ next) = some kind) (nonempty : next ≠ [])
    (result : Option Token × LexState)
    (isResult : (∃ own, funcTokens.lookup tokenText = some own ∧ result = state.token own) ∨
      result = lexKeyword state tokenText tokenNext) :
    result.1.map Token.kind ≠ some kind := by
  intro isKind
  obtain ⟨token, isToken, sameKind⟩ := Option.map_eq_some_iff.mp isKind
  rcases isResult with ⟨own, isFunction, rfl⟩ | rfl
  · cases isToken
    obtain ⟨-, -, unique⟩ := function_tokens _ (mem_of_lookup isLonger)
    have same := unique _ (mem_of_lookup isFunction) sameKind
    exact nonempty (List.self_eq_append_right.mp same)
  · exact lexKeyword_not_function state tokenText tokenNext _ kind isLonger token isToken sameKind

theorem lexShort_cases (state : LexState) (tokenText tokenNext : GoString) :
    ∃ moved : LexState,
      (∃ own, funcTokens.lookup tokenText = some own ∧
        lexShort state tokenText tokenNext = moved.token own) ∨
      lexShort state tokenText tokenNext = lexKeyword moved tokenText tokenNext := by
  unfold lexShort
  split
  · exact ⟨state, Or.inr rfl⟩
  · rename_i kind isFunction
    refine ⟨state.moveTo (state.scanner.after (isFunc state.scanner).2), ?_⟩
    dsimp only
    split
    · exact Or.inl ⟨kind, isFunction, rfl⟩
    · exact Or.inr rfl

theorem lexWord_reader {state ref : LexState} (held : ref.scanner.held = state.scanner.held)
    (suffix : state.scanner.reader <:+ ref.scanner.reader) (tokenText : GoString)
    (token : (Reference.lexWord ref tokenText).1.map Token.kind =
      (lexWord state tokenText).1.map Token.kind)
    (same : (lexWord state tokenText).2.scanner.text =
      (Reference.lexWord ref tokenText).2.scanner.text) :
    state.scanner.reader = ref.scanner.reader ∧
      ∀ copy ∈ wordLookaheads state.scanner tokenText, copy.reader = ref.scanner.reader := by
  have peek : peekString ref.scanner = peekString state.scanner := by
    rw [peekString, Scanner.ch, held]
    rfl
  have nonempty : peekString state.scanner ≠ [] := encodeRune_ne_nil _
  rw [lexWord_eq] at token same
  unfold Reference.lexWord at token same
  dsimp only at token same
  rw [peek] at token same
  unfold wordLookaheads
  cases isLonger : funcTokens.lookup (tokenText ++ peekString state.scanner) with
  | none =>
      rw [isLonger] at token same
      exact lexShort_reader held suffix tokenText _ token same
  | some kind =>
      rw [isLonger] at token same
      have longer : ∀ moved result, ((∃ own, funcTokens.lookup tokenText = some own ∧
            result = LexState.token moved own) ∨
          result = lexKeyword moved tokenText (tokenText ++ peekString state.scanner)) →
          result.1.map Token.kind ≠ some kind :=
        fun moved result => word_not_longer isLonger nonempty result
      have copySuffix := ((advances_next state.scanner).trans
        (reads_isFunc state.scanner.next).advances).reader
      dsimp only at token same ⊢
      generalize isFunc state.scanner.next = looked at token same copySuffix ⊢
      have settle : looked.2.reader = ref.scanner.reader →
          state.scanner.reader = ref.scanner.reader := by
        intro afterCopy
        rw [afterCopy] at copySuffix
        exact suffix.eq_of_length (Nat.le_antisymm suffix.length_le copySuffix.length_le)
      generalize Reference.isFunc ref.scanner.next.text = expected at token same
      cases isCall : looked.1 with
      | true =>
          rw [isCall, if_pos rfl] at token same
          cases expected with
          | true =>
              have afterCopy : looked.2.reader = ref.scanner.reader :=
                reader_eq_of_next (s := state.scanner.after looked.2) held same
              refine ⟨settle afterCopy, fun copy member => ?_⟩
              rw [if_pos rfl] at member
              rw [List.mem_singleton.mp member]
              exact afterCopy
          | false =>
              exfalso
              refine longer ref _ ?_ token
              dsimp only
              split
              · rename_i own isFunction _
                exact Or.inl ⟨own, isFunction, rfl⟩
              · exact Or.inr rfl
      | false =>
          rw [isCall, if_neg (by decide)] at token same
          cases expected with
          | true =>
              exfalso
              obtain ⟨moved, isShort⟩ := lexShort_cases
                (state.moveTo (state.scanner.after looked.2)) tokenText
                (tokenText ++ peekString state.scanner)
              exact longer moved _ isShort token.symm
          | false =>
              obtain ⟨afterCopy, others⟩ := lexShort_reader
                (show ref.scanner.held =
                  (state.moveTo (state.scanner.after looked.2)).scanner.held from held)
                (copySuffix.trans suffix) tokenText _ token same
              refine ⟨settle afterCopy, fun copy member => ?_⟩
              rw [if_neg (by decide)] at member
              rcases List.mem_cons.mp member with rfl | other
              · exact afterCopy
              · exact others copy other

theorem lexNumber_reader {state : LexState} (whole : Whole state.scanner) (tokenText : GoString)
    (notDuration : (lexNumber library state tokenText).1.map Token.kind ≠ some .duration)
    (same : (lexNumber library state tokenText).2.scanner.text =
      (Reference.lexNumber library state tokenText).2.scanner.text) :
    (state.scanner.skipWhile (isDurationPart library)).reader = state.scanner.reader := by
  unfold lexNumber Reference.lexNumber at same
  unfold lexNumber at notDuration
  rw [tryScanDuration_eq tokenText whole] at notDuration same
  cases scanned : Reference.tryScanDuration library tokenText state.scanner.text with
  | none =>
      rw [scanned] at same
      exact reader_eq_of_text
        (s := state.scanner.after (state.scanner.skipWhile (isDurationPart library))) rfl same
  | some found =>
      rw [scanned] at notDuration
      exact absurd rfl notDuration

theorem lexDash_reader {state : LexState} (whole : Whole state.scanner) (tokenText : GoString)
    (token : (Reference.lexDash library state tokenText).1.map Token.kind =
      (lexDash library state tokenText).1.map Token.kind)
    (notDuration : (lexDash library state tokenText).1.map Token.kind ≠ some .duration)
    (same : (lexDash library state tokenText).2.scanner.text =
      (Reference.lexDash library state tokenText).2.scanner.text) :
    ∀ copy ∈ (match tryScanDuration library tokenText state.scanner with
        | (some _, _) => [state.scanner.skipWhile (isDurationPart library)]
        | (none, s) => state.scanner.skipWhile (isDurationPart library) ::
            wordLookaheads s tokenText), copy.reader = state.scanner.reader := by
  have copySuffix :=
    (reads_skipWhile_any (isDurationPart library) state.scanner).advances.reader
  unfold lexDash Reference.lexDash at token same
  unfold lexDash at notDuration
  rw [tryScanDuration_eq tokenText whole] at token notDuration same ⊢
  cases scanned : Reference.tryScanDuration library tokenText state.scanner.text with
  | none =>
      rw [scanned] at token same
      generalize state.scanner.skipWhile (isDurationPart library) = duration at *
      obtain ⟨original, others⟩ := lexWord_reader
        (show state.scanner.held = (state.moveTo (state.scanner.after duration)).scanner.held
          from rfl) copySuffix tokenText token same
      exact List.forall_mem_cons.mpr ⟨original, others⟩
  | some found =>
      rw [scanned] at notDuration
      exact absurd rfl notDuration

/-- A call after which nothing is missing has read nothing with a copy that the
scanner has not in its buffer. -/
theorem lex_looksWithin {state : LexState} (whole : Whole state.scanner)
    {result ref : Option Token × LexState} (lexed : lex library state = some result)
    (refLexed : Reference.lex library state = some ref)
    (token : ref.1.map Token.kind = result.1.map Token.kind)
    (notDuration : result.1.map Token.kind ≠ some .duration)
    (same : result.2.scanner.text = ref.2.scanner.text) :
    LooksWithin library state.scanner := by
  have wholeStop := (tokenAt_found library state.scanner).whole whole
  rw [lex_eq] at lexed
  rw [Reference.lex] at refLexed
  unfold LooksWithin
  generalize tokenAt library state.scanner = found at wholeStop lexed refLexed ⊢
  obtain ⟨scanned, start, stop⟩ := found
  have moved : Whole (state.moveTo stop).scanner := wholeStop
  have word : some (lexWord (state.moveTo stop) (start.since stop)) = some result →
      some (Reference.lexWord (state.moveTo stop) (start.since stop)) = some ref →
      ∀ copy ∈ wordLookaheads stop (start.since stop), copy.reader = stop.reader := by
    intro isResult isRef
    cases isResult
    cases isRef
    exact (lexWord_reader (show (state.moveTo stop).scanner.held = stop.held from rfl)
      (List.suffix_refl _) _ token same).2
  have number : some (lexNumber library (state.moveTo stop) (start.since stop)) = some result →
      some (Reference.lexNumber library (state.moveTo stop) (start.since stop)) = some ref →
      ∀ copy ∈ [stop.skipWhile (isDurationPart library)], copy.reader = stop.reader := by
    intro isResult isRef copy member
    cases isResult
    cases isRef
    rw [List.mem_singleton.mp member]
    exact lexNumber_reader moved _ notDuration same
  unfold lexFound at lexed
  unfold Reference.lexFound at refLexed
  unfold lookaheads
  dsimp only at lexed refLexed ⊢
  cases scanned with
  | eof => exact fun copy member => absurd member List.not_mem_nil
  | int => exact number lexed refLexed
  | float => exact number lexed refLexed
  | string => exact fun copy member => absurd member List.not_mem_nil
  | rawString => exact fun copy member => absurd member List.not_mem_nil
  | ident => exact word lexed refLexed
  | char => exact word lexed refLexed
  | rune r =>
      dsimp only at lexed refLexed ⊢
      split
      · rename_i isDash
        rw [if_pos isDash] at lexed refLexed
        split
        · exact fun copy member => absurd member List.not_mem_nil
        · rename_i notFlag
          rw [if_neg notFlag] at lexed refLexed
          cases lexed
          cases refLexed
          exact lexDash_reader moved _ token notDuration same
      · rename_i notDash
        rw [if_neg notDash] at lexed refLexed
        split
        · exact fun copy member => absurd member List.not_mem_nil
        · rename_i notBracket
          rw [if_neg notBracket] at lexed refLexed
          exact word lexed refLexed

/-! ### Lookahead -/

/-- The lexer gives the tokens of the reference if no copy of its scanner refills its
buffer, which is so for each input that fits into the buffer.  A call whose copy does
refill its buffer differs from the reference in the token or in the text that is left. -/
theorem lexer_agrees (library : Library) (parser : Parser) (capacity : Nat) (input : GoString)
    (room : 4 ≤ capacity) :
    ((∀ state, Called library (parser.start capacity input) state →
        LooksWithin library state.scanner) →
      ∀ count, calls (lex library) count (parser.start capacity input) =
        calls (Reference.lex library) count (parser.start capacity input)) ∧
    (input.length ≤ capacity → ∀ state, Called library (parser.start capacity input) state →
      LooksWithin library state.scanner) ∧
    ∀ state token next, Called library (parser.start capacity input) state →
      lex library state = some (some token, next) → token.kind ≠ .duration →
      ((∃ refToken refNext, Reference.lex library state = some (some refToken, refNext) ∧
          refToken.kind = token.kind ∧ refNext.scanner.text = next.scanner.text) ↔
        LooksWithin library state.scanner) := by
  have wholeStart : Whole (parser.start capacity input).scanner := whole_ofText room input
  refine ⟨fun within count => ?_, fun short _ called => called.looksWithin short,
    fun state token next called lexed notDuration => ⟨?_, fun within => ?_⟩⟩
  · exact calls_agree count .start ⟨SameBuffer.refl _, rfl⟩ wholeStart within
  · rintro ⟨refToken, refNext, refLexed, sameKind, sameText⟩
    refine lex_looksWithin (called.whole wholeStart) lexed refLexed ?_ ?_ sameText.symm
    · exact congrArg some sameKind
    · exact fun isDuration => notDuration (Option.some.inj isDuration)
  · have agrees : Agrees state state := ⟨SameBuffer.refl _, rfl⟩
    have same := agrees.lex (called.whole wholeStart) within
    rw [lexed] at same
    cases refLexed : Reference.lex library state with
    | none =>
        rw [refLexed] at same
        cases same
    | some ref =>
        rw [refLexed] at same
        cases same with
        | some same =>
            obtain ⟨refToken, refNext⟩ := ref
            have isToken : refToken = some token := same.token
            subst isToken
            exact ⟨token, refNext, rfl, rfl, same.state.buffer.text⟩

theorem lexer_agrees_sum :
    4 ≤ 1024 ∧ ∀ count,
      calls (lex .asciiOnly) count
          (Parser.new.start 1024 (ascii "sum by (a) (rate(\x7bb=\"c\"\x7d[1m])) > -5s")) =
        calls (Reference.lex .asciiOnly) count
          (Parser.new.start 1024 (ascii "sum by (a) (rate(\x7bb=\"c\"\x7d[1m])) > -5s")) :=
  ⟨by decide, (lexer_agrees .asciiOnly .new 1024 _ (by decide)).1
    ((lexer_agrees .asciiOnly .new 1024 _ (by decide)).2.1 (by decide))⟩

/-- Behind the label `count` a copy of the scanner looks for a parenthesis up to the end
of the input.  What is not in the buffer by then is missing: the query ends after its
selector, where the reference goes on with the filter. -/
theorem lookahead_takes_filter :
    let start := Parser.new.start 1024 (List.replicate 1010 (byte ' ') ++
      ascii "\x7bcount=\"b\"\x7d   |= \"c\"")
    (calls (lex .asciiOnly) 6 start).map (Option.map (Option.map Token.kind)) =
      [some (some .openBrace), some (some .identifier), some (some .eq), some (some .string),
        some (some .closeBrace), some none] ∧
    (calls (Reference.lex .asciiOnly) 6 start).map (Option.map (Option.map Token.kind)) =
      [some (some .openBrace), some (some .identifier), some (some .eq), some (some .string),
        some (some .closeBrace), some (some .pipeExact)] := by
  decide +kernel

example : Reference.isFunc (ascii " (") = true := by
  decide +kernel

end McoaGateway.Logql
