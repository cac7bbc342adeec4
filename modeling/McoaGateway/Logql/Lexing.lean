/-
What one call of `Lex` does.

A call passes over white space and comments, finds a token (`tokenAt`) and makes
of it what `lexFound` says.  Apart from a flag that has no white space behind it,
every call returns, and it reads a number of characters that is linear in what
is left of the input (`lex_advances`).
-/

import McoaGateway.TextScanner.Reading
import McoaGateway.Logql.Lexer

namespace McoaGateway.Logql

open GoString
open Scanner

section

variable (library : Library)

/-! ### The token of a call -/

/-- The token behind white space and comments, and where it begins and ends. -/
def tokenRounds : Nat → Scanner → Scanned × Scanner × Scanner
  | 0, s => s.scan library.unicode
  | rounds + 1, s =>
      let found := s.scan library.unicode
      if found.1 = .rune 0x23 then tokenRounds rounds (skipComment found.2.2) else found

def tokenAt (s : Scanner) : Scanned × Scanner × Scanner :=
  tokenRounds library (s.text.length + 1) s

def lexFound (state : LexState) (found : Scanned × Scanner × Scanner) :
    Option (Option Token × LexState) :=
  let tokenText := found.2.1.since found.2.2
  let state := state.moveTo found.2.2
  match found.1 with
  | .eof => some (none, state)
  | .int | .float => some (lexNumber library state tokenText)
  | .string | .rawString => some (lexString state tokenText)
  | .ident | .char => some (lexWord state tokenText)
  | .rune r =>
      if r = 0x2D then
        if found.2.2.ch = some 0x2D then lexFlag state
        else some (lexDash library state tokenText)
      else if r = 0x5B then some (lexRange state)
      else some (lexWord state tokenText)

end

variable {library : Library} {s s' : Scanner}

theorem advances_skipComment (s : Scanner) : Advances 1 s (skipComment s) := by
  unfold skipComment
  split
  · exact (advances_refl _).mono (by decide)
  · exact (reads_skipWhile_any _ s).next_past.advances

theorem length_skipComment_lt {found : Scanned × Scanner × Scanner}
    (isFound : s.scan library.unicode = found) (isHash : found.1 = .rune 0x23) :
    (skipComment found.2.2).text.length < s.text.length := by
  have passes := (scan_passes library.unicode s).1.reads.length_le
  have token := scan_tokenAt library.unicode s
  rw [isFound] at passes token
  rw [isHash] at token
  have comment := (advances_skipComment found.2.2).length
  generalize found.2.2 = stop at token comment ⊢
  cases token with
  | rune isCh =>
      have shorter := length_next_lt isCh
      omega
  | literal _ isLiteral => exact isLiteral.elim

theorem lexRounds_eq (rounds : Nat) (state : LexState)
    (enough : state.scanner.text.length < rounds) :
    lexRounds library rounds state =
      lexFound library state (tokenRounds library rounds state.scanner) := by
  induction rounds generalizing state with
  | zero => omega
  | succ rounds ih =>
      rw [lexRounds, tokenRounds]
      generalize isFound : state.scanner.scan library.unicode = found
      dsimp only
      by_cases isHash : found.1 = .rune 0x23
      · rw [if_pos isHash, isHash]
        dsimp only
        have shorter := length_skipComment_lt isFound isHash
        rw [if_pos rfl, ih _ (Nat.lt_of_lt_of_le shorter (Nat.le_of_lt_succ enough))]
        rfl
      · rw [if_neg isHash]
        unfold lexFound
        obtain ⟨scanned, start, stop⟩ := found
        cases scanned with
        | rune r =>
            have notHash : r ≠ 0x23 := fun same => isHash (by rw [same])
            dsimp only
            rw [if_neg notHash]
        | _ => rfl

theorem lex_eq (state : LexState) :
    lex library state = lexFound library state (tokenAt library state.scanner) :=
  lexRounds_eq _ state (Nat.lt_succ_self _)

/-- White space and comments of all kinds are passed over. -/
inductive Reaches (library : Library) : Scanner → Scanner → Prop where
  | token {s start : Scanner} (passes : Passes library.unicode s start) :
      Reaches library s start
  | hash {s hashAt start : Scanner} (passes : Passes library.unicode s hashAt)
      (isHash : hashAt.ch = some 0x23) (rest : Reaches library (skipComment hashAt.next) start) :
      Reaches library s start

structure TokenFound (library : Library) (s : Scanner)
    (found : Scanned × Scanner × Scanner) : Prop where
  reaches : Reaches library s found.2.1
  scanned : scanToken library.unicode found.2.1 = (some found.1, found.2.2)
  notHash : found.1 ≠ .rune 0x23

theorem TokenFound.tokenAt {found : Scanned × Scanner × Scanner}
    (isFound : TokenFound library s found) :
    TokenAt found.2.1 (some found.1, found.2.2) := by
  rw [← isFound.scanned]
  exact tokenAt_scanToken library.unicode _

theorem tokenRounds_found (rounds : Nat) (s : Scanner) (enough : s.text.length < rounds) :
    TokenFound library s (tokenRounds library rounds s) := by
  induction rounds generalizing s with
  | zero => omega
  | succ rounds ih =>
      obtain ⟨passes, scanned⟩ := scan_passes library.unicode s
      have token := scan_tokenAt library.unicode s
      rw [tokenRounds]
      generalize isFound : s.scan library.unicode = found at passes scanned token ⊢
      by_cases isHash : found.1 = .rune 0x23
      · have shorter := length_skipComment_lt isFound isHash
        rw [if_pos isHash]
        obtain ⟨reaches, rest, notHash⟩ := ih (skipComment found.2.2) (by omega)
        refine ⟨?_, rest, notHash⟩
        rw [isHash] at token
        generalize found.2.2 = stop at token reaches
        cases token with
        | rune isCh => exact .hash passes isCh reaches
        | literal _ isLiteral => exact isLiteral.elim
      · rw [if_neg isHash]
        exact ⟨.token passes, scanned, isHash⟩

theorem tokenAt_found (library : Library) (s : Scanner) :
    TokenFound library s (tokenAt library s) :=
  tokenRounds_found _ s (Nat.lt_succ_self _)

theorem Reaches.advances {start : Scanner} (reaches : Reaches library s start) :
    Advances (3 * (s.text.length - start.text.length)) s start := by
  induction reaches with
  | token passes => exact passes.reads.advances.mono (Nat.zero_le _)
  | @hash s hashAt start passes isHash _ ih =>
      have front := passes.reads.advances.trans (reads_next isHash).advances
      have comment := front.trans (advances_skipComment hashAt.next)
      have shorter := length_next_lt isHash
      have hashLength := passes.reads.length_le
      have commentLength := (advances_skipComment hashAt.next).length
      have startLength := ih.length
      exact (comment.trans ih).mono (by omega)

/-! ### Words -/

theorem reads_isFuncRounds (rounds : Nat) (read : GoString) (s : Scanner) :
    ReadsPast s (isFuncRounds rounds read s).2 := by
  induction rounds generalizing read s with
  | zero => exact readsPast_refl s
  | succ rounds ih =>
      rw [isFuncRounds]
      cases isCh : s.ch with
      | none => exact readsPast_refl s
      | some r =>
          dsimp only
          split
          · exact (reads_next isCh).past
          · split
            · exact ((reads_next isCh).trans (reads_skipWhile_any _ _)).next_past
            · exact (reads_next isCh).trans_past (ih _ _)

theorem reads_isFunc (s : Scanner) : ReadsPast s (isFunc s).2 :=
  (reads_skipWhile_any isSpaceRune s).trans_past (reads_isFuncRounds _ _ _)

/-- The last part of `lexWord`: keywords and identifiers. -/
def lexKeyword (state : LexState) (tokenText tokenNext : GoString) :
    Option Token × LexState :=
  match tokens.lookup tokenNext with
  | some kind => (state.moveTo state.scanner.next).token kind
  | none =>
      match tokens.lookup tokenText with
      | some kind => state.token kind
      | none => (state.withStr tokenText).token .identifier

/-- The part of `lexWord` behind the functions with one more character. -/
def lexShort (state : LexState) (tokenText tokenNext : GoString) :
    Option Token × LexState :=
  match funcTokens.lookup tokenText with
  | none => lexKeyword state tokenText tokenNext
  | some kind =>
      let looked := isFunc state.scanner
      let state := state.moveTo (state.scanner.after looked.2)
      if looked.1 then state.token kind else lexKeyword state tokenText tokenNext

theorem lexWord_eq (state : LexState) (tokenText : GoString) :
    lexWord state tokenText =
      match funcTokens.lookup (tokenText ++ peekString state.scanner) with
      | none => lexShort state tokenText (tokenText ++ peekString state.scanner)
      | some kind =>
          let looked := isFunc state.scanner.next
          let s := state.scanner.after looked.2
          if looked.1 then (state.moveTo s.next).token kind
          else lexShort (state.moveTo s) tokenText (tokenText ++ peekString state.scanner) := by
  unfold lexWord lexShort
  dsimp only
  generalize funcTokens.lookup (tokenText ++ peekString state.scanner) = longer
  generalize funcTokens.lookup tokenText = own
  cases longer with
  | none =>
      cases own with
      | none => rfl
      | some kind =>
          dsimp only [Option.map_some, Option.map_none]
          cases isFunc state.scanner with
          | mk found copy => cases found <;> rfl
  | some kind =>
      dsimp only [Option.map_some]
      cases isFunc state.scanner.next with
      | mk found copy =>
          cases found with
          | true => rfl
          | false =>
              cases own with
              | none => rfl
              | some kind =>
                  dsimp only [Option.map_some]
                  rw [show (state.moveTo (state.scanner.after copy)).scanner =
                    state.scanner.after copy from rfl]
                  cases isFunc (state.scanner.after copy) with
                  | mk found copy => cases found <;> rfl

theorem lexKeyword_advances (state : LexState) (tokenText tokenNext : GoString) :
    Advances 1 state.scanner (lexKeyword state tokenText tokenNext).2.scanner := by
  have same : Advances 1 state.scanner state.scanner :=
    (advances_refl _).mono (by decide)
  unfold lexKeyword
  split
  · exact advances_next state.scanner
  · split
    · exact same
    · exact same

theorem lexShort_advances (state : LexState) (tokenText tokenNext : GoString) :
    Advances (state.scanner.text.length + 2) state.scanner
      (lexShort state tokenText tokenNext).2.scanner := by
  unfold lexShort
  split
  · exact (lexKeyword_advances state tokenText tokenNext).mono (by omega)
  · have looked := (reads_isFunc state.scanner).advances.after
    dsimp only
    split
    · exact looked.mono (by omega)
    · exact (looked.trans (lexKeyword_advances
        (state.moveTo (state.scanner.after (isFunc state.scanner).2)) tokenText tokenNext)).mono
        (by omega)

theorem lexWord_advances (state : LexState) (tokenText : GoString) :
    Advances (2 * state.scanner.text.length + 4) state.scanner
      (lexWord state tokenText).2.scanner := by
  rw [lexWord_eq]
  split
  · exact (lexShort_advances state tokenText _).mono (by omega)
  · have copy := (advances_next state.scanner).trans (reads_isFunc state.scanner.next).advances
    have looked := copy.after
    dsimp only
    generalize isFunc state.scanner.next = found at copy looked ⊢
    split
    · exact (looked.trans (advances_next _)).mono (by omega)
    · have shorter := looked.length
      have rest := lexShort_advances (state.moveTo (state.scanner.after found.2)) tokenText
        (tokenText ++ peekString state.scanner)
      exact (looked.trans rest).mono (by
        rw [show (state.moveTo (state.scanner.after found.2)).scanner =
          state.scanner.after found.2 from rfl]
        omega)

/-! ### Durations -/

theorem countRounds_le (counts : Nat → Bool) (rounds : Nat) (s : Scanner) :
    countRounds counts rounds s ≤ rounds := by
  induction rounds generalizing s with
  | zero => exact Nat.le_refl _
  | succ rounds ih =>
      rw [countRounds]
      split
      · exact Nat.zero_le _
      · split
        · exact Nat.succ_le_succ (ih _)
        · exact Nat.zero_le _

theorem tryScanDuration_advances (library : Library) (number : GoString) (s : Scanner) :
    Advances (s.text.length + s.text.length) s (tryScanDuration library number s).2 := by
  have looked : Advances s.text.length s
      (s.after (s.skipWhile (isDurationPart library))) :=
    (reads_skipWhile_any (isDurationPart library) s).advances.after.mono (by omega)
  have counted := countRounds_le (isDurationPart library) s.text.length s
  unfold tryScanDuration
  dsimp only
  split
  · exact looked.mono (by omega)
  · split
    · exact looked.mono (by omega)
    · exact (looked.trans (advances_iterate _ _)).mono (by omega)

theorem tryScanDuration_none_advances (library : Library) (number : GoString) (s : Scanner)
    (isNone : (tryScanDuration library number s).1 = none) :
    Advances s.text.length s (tryScanDuration library number s).2 := by
  have looked : Advances s.text.length s
      (s.after (s.skipWhile (isDurationPart library))) :=
    (reads_skipWhile_any (isDurationPart library) s).advances.after.mono (by omega)
  unfold tryScanDuration at isNone ⊢
  dsimp only at isNone ⊢
  split at isNone
  · rename_i nothing
    rw [if_pos nothing]
    exact looked
  · rename_i something
    rw [if_neg something]
    split at isNone
    · exact looked
    · cases isNone

theorem lexNumber_advances (library : Library) (state : LexState) (tokenText : GoString) :
    Advances (2 * state.scanner.text.length) state.scanner
      (lexNumber library state tokenText).2.scanner := by
  have scanned := tryScanDuration_advances library tokenText state.scanner
  unfold lexNumber
  split
  · rename_i d s isScanned
    rw [isScanned] at scanned
    exact scanned.mono (by omega)
  · rename_i s isScanned
    rw [isScanned] at scanned
    exact scanned.mono (by omega)

theorem lexDash_advances (library : Library) (state : LexState) (tokenText : GoString) :
    Advances (3 * state.scanner.text.length + 4) state.scanner
      (lexDash library state tokenText).2.scanner := by
  have scanned := tryScanDuration_advances library tokenText state.scanner
  have unscanned := tryScanDuration_none_advances library tokenText state.scanner
  unfold lexDash
  split
  · rename_i d s isScanned
    rw [isScanned] at scanned
    exact scanned.mono (by omega)
  · rename_i s isScanned
    rw [isScanned] at unscanned
    have looked := unscanned rfl
    have shorter := looked.length
    have word := lexWord_advances (state.moveTo s) tokenText
    exact (looked.trans word).mono (by
      rw [show (state.moveTo s).scanner = s from rfl]
      dsimp only at shorter
      omega)

/-! ### The other tokens -/

theorem lexRange_advances (state : LexState) :
    Advances 1 state.scanner (lexRange state).2.scanner := by
  have reads := reads_skipWhile_any (fun r => r != 0x5D) state.scanner
  unfold lexRange
  dsimp only
  split
  · exact (reads.error _).advances.mono (by decide)
  · exact reads.next_past.advances

theorem lexString_advances (state : LexState) (tokenText : GoString) :
    Advances 0 state.scanner (lexString state tokenText).2.scanner := by
  have same : ReadsAny state.scanner state.scanner := .refl
  unfold lexString
  split
  · exact (same.error _).advances
  · split
    · exact (same.error _).advances
    · exact same.advances

theorem lexFlag_advances (state next : LexState) (token : Option Token)
    (lexed : lexFlag state = some (token, next)) :
    Advances 1 state.scanner next.scanner := by
  have reads := reads_skipWhile_any (fun r => !isSpaceRune r) state.scanner
  have moved := reads.next_past.advances
  unfold lexFlag at lexed
  dsimp only at lexed
  split at lexed
  · cases lexed
  · split at lexed
    · cases lexed
      exact moved
    · split at lexed
      · cases lexed
        exact moved
      · cases lexed
        exact moved

theorem lexFound_advances (state next : LexState) (token : Option Token)
    (found : Scanned × Scanner × Scanner)
    (lexed : lexFound library state found = some (token, next)) :
    Advances (3 * found.2.2.text.length + 4) found.2.2 next.scanner := by
  have within : ∀ (result : Option Token × LexState) (extra : Nat),
      Advances extra found.2.2 result.2.scanner → extra ≤ 3 * found.2.2.text.length + 4 →
      some result = some (token, next) →
      Advances (3 * found.2.2.text.length + 4) found.2.2 next.scanner := by
    intro result extra advances small isResult
    cases isResult
    exact advances.mono small
  have word := lexWord_advances (state.moveTo found.2.2) (found.2.1.since found.2.2)
  have number := lexNumber_advances library (state.moveTo found.2.2)
    (found.2.1.since found.2.2)
  have string := lexString_advances (state.moveTo found.2.2) (found.2.1.since found.2.2)
  have dash := lexDash_advances library (state.moveTo found.2.2)
    (found.2.1.since found.2.2)
  have range := lexRange_advances (state.moveTo found.2.2)
  unfold lexFound at lexed
  dsimp only at lexed
  split at lexed
  · cases lexed
    exact (advances_refl _).mono (by omega)
  · exact within _ _ number (by simp only [LexState.moveTo]; omega) lexed
  · exact within _ _ number (by simp only [LexState.moveTo]; omega) lexed
  · exact within _ _ string (by omega) lexed
  · exact within _ _ string (by omega) lexed
  · exact within _ _ word (by simp only [LexState.moveTo]; omega) lexed
  · exact within _ _ word (by simp only [LexState.moveTo]; omega) lexed
  · split at lexed
    · split at lexed
      · exact (lexFlag_advances _ _ _ lexed).mono (by omega)
      · exact within _ _ dash (Nat.le_refl _) lexed
    · split at lexed
      · exact within _ _ range (by omega) lexed
      · exact within _ _ word (by simp only [LexState.moveTo]; omega) lexed

/-! ### A call -/

/-- What is found stands behind the beginning of the token, if there is one. -/
theorem TokenFound.stop_advances {found : Scanned × Scanner × Scanner}
    (isFound : TokenFound library s found) :
    Advances 1 found.2.1 found.2.2 ∧
      (found.1 ≠ .eof → found.2.2.text.length < found.2.1.text.length) := by
  have token := isFound.tokenAt
  generalize found.1 = scanned at token ⊢
  generalize found.2.2 = stop at token ⊢
  cases token with
  | eof => exact ⟨(advances_refl _).mono (by decide), absurd rfl⟩
  | rune isCh =>
      exact ⟨(reads_next isCh).advances.mono (by decide), fun _ => length_next_lt isCh⟩
  | literal isCh _ reads =>
      refine ⟨((reads_next isCh).advances.trans reads.advances).mono (by decide), fun _ => ?_⟩
      exact Nat.lt_of_le_of_lt reads.advances.length (length_next_lt isCh)

/-- A call that returns has read a number of characters that is linear in what was
left of the text. -/
theorem lex_advances (state next : LexState) (token : Option Token)
    (lexed : lex library state = some (token, next)) :
    Advances (3 * state.scanner.text.length + 5) state.scanner next.scanner := by
  rw [lex_eq] at lexed
  have isFound := tokenAt_found library state.scanner
  generalize tokenAt library state.scanner = found at lexed isFound
  have reached := isFound.reaches.advances
  have stopped := isFound.stop_advances.1
  have lexedFound := lexFound_advances state next token found lexed
  have startLength := reached.length
  have stopLength := stopped.length
  exact ((reached.trans stopped).trans lexedFound).mono (by omega)

theorem length_lex_lt (state next : LexState) (token : Token)
    (lexed : lex library state = some (some token, next)) :
    next.scanner.text.length < state.scanner.text.length := by
  rw [lex_eq] at lexed
  have isFound := tokenAt_found library state.scanner
  generalize tokenAt library state.scanner = found at lexed isFound
  have reached := isFound.reaches.advances.length
  have lexedFound := (lexFound_advances state next (some token) found lexed).length
  by_cases atEnd : found.1 = .eof
  · unfold lexFound at lexed
    rw [atEnd] at lexed
    cases lexed
  · have shorter := isFound.stop_advances.2 atEnd
    omega

/-! ### Calls that do not return -/

/-- The second dash of a flag, if the call comes to one. -/
def flagAt (library : Library) (s : Scanner) : Option Scanner :=
  let found := tokenAt library s
  if found.1 = .rune 0x2D ∧ found.2.2.ch = some 0x2D then some found.2.2 else none

theorem lexFlag_eq_none_iff (state : LexState) :
    lexFlag state = none ↔ ¬ Ahead (fun r => isSpaceRune r = true) state.scanner := by
  have stops := skipWhile_ch_none_iff (fun r => !isSpaceRune r) state.scanner
  simp only [Bool.not_eq_false'] at stops
  rw [← stops]
  unfold lexFlag
  dsimp only
  split
  · rename_i atEnd
    exact ⟨fun _ => atEnd, fun _ => rfl⟩
  · rename_i inside
    refine ⟨fun returned => ?_, fun atEnd => absurd atEnd inside⟩
    split at returned
    · cases returned
    · split at returned <;> cases returned

/-- A call does not return exactly if it comes to a flag without white space
behind it. -/
theorem lex_eq_none_iff (state : LexState) :
    lex library state = none ↔
      ∃ flag, flagAt library state.scanner = some flag ∧
        ¬ Ahead (fun r => isSpaceRune r = true) flag := by
  rw [lex_eq]
  unfold flagAt
  generalize tokenAt library state.scanner = found
  obtain ⟨scanned, start, stop⟩ := found
  unfold lexFound
  dsimp only
  by_cases isFlag : scanned = .rune 0x2D ∧ stop.ch = some 0x2D
  · rw [if_pos isFlag, isFlag.1]
    dsimp only
    rw [if_pos rfl, if_pos isFlag.2, lexFlag_eq_none_iff]
    constructor
    · intro absent
      exact ⟨stop, rfl, absent⟩
    · rintro ⟨flag, isStop, absent⟩
      cases isStop
      exact absent
  · rw [if_neg isFlag]
    refine ⟨fun silent => ?_, fun ⟨flag, isNone, _⟩ => absurd isNone (Option.some_ne_none _).symm⟩
    exfalso
    split at silent
    any_goals cases silent
    · rename_i r
      split at silent
      · rename_i isDash
        split at silent
        · rename_i second
          exact isFlag ⟨by rw [isDash], second⟩
        · cases silent
      · split at silent <;> cases silent

theorem dash_mem_of_flagAt {flag : Scanner} (isFlag : flagAt library s = some flag) :
    (0x2D : UInt8) ∈ s.text := by
  have isFound := tokenAt_found library s
  unfold flagAt at isFlag
  dsimp only at isFlag
  generalize tokenAt library s = found at isFound isFlag
  split at isFlag
  · rename_i isDash
    have token := isFound.tokenAt
    rw [isDash.1] at token
    apply isFound.reaches.advances.text.subset
    generalize found.2.2 = stop at token
    cases token with
    | rune isCh =>
        obtain ⟨piece, isPiece, isText⟩ := next_piece isCh
        rw [isText, isPiece.ascii (by decide)]
        exact List.mem_cons_self
    | literal _ isLiteral => exact isLiteral.elim
  · cases isFlag

/-! ### The rounds of the loops suffice -/

theorem settles_countRounds (counts : Nat → Bool) : Settles 0 (countRounds counts) := by
  intro rounds
  induction rounds with
  | zero =>
      intro s enough
      conv_lhs => rw [countRounds, ch_none_of_length enough]
      rfl
  | succ rounds ih =>
      intro s enough
      conv_lhs => rw [countRounds]
      conv_rhs => rw [countRounds]
      cases isCh : s.ch with
      | none => rfl
      | some r =>
          have shorter := length_next_lt isCh
          dsimp only
          rw [ih s.next (by omega)]

theorem settles_isFuncRounds (read : GoString) :
    Settles 1 fun rounds s => isFuncRounds rounds read s := by
  intro rounds
  induction rounds generalizing read with
  | zero => intro s enough; omega
  | succ rounds ih =>
      intro s enough
      dsimp only at ih ⊢
      conv_lhs => rw [isFuncRounds]
      conv_rhs => rw [isFuncRounds]
      cases isCh : s.ch with
      | none => rfl
      | some r =>
          have shorter := length_next_lt isCh
          dsimp only
          rw [ih _ s.next (by omega)]

theorem settles_tokenRounds (library : Library) : Settles 1 (tokenRounds library) := by
  intro rounds
  induction rounds with
  | zero => intro s enough; omega
  | succ rounds ih =>
      intro s enough
      conv_lhs => rw [tokenRounds]
      conv_rhs => rw [tokenRounds]
      generalize isFound : s.scan library.unicode = found
      split
      · rename_i isHash
        have shorter := length_skipComment_lt isFound isHash
        exact ih _ (by omega)
      · rfl

theorem settles_lexRounds (library : Library) (lval : LexValue) :
    Settles 1 fun rounds s => lexRounds library rounds ⟨s, lval⟩ := by
  intro rounds s enough
  dsimp only
  rw [lexRounds_eq rounds ⟨s, lval⟩ enough,
    lexRounds_eq (rounds + 1) ⟨s, lval⟩ (Nat.lt_succ_of_lt enough),
    settles_tokenRounds library rounds s enough]

/-- The loops of a call of `Lex`, those of the scanner included, end by themselves:
they need no more rounds than there are bytes left. -/
structure LoopsSettle (library : Library) : Prop where
  skip : ∀ skips, Settles 0 (skipRounds skips)
  string : ∀ quote count, Settles 1 fun rounds s => scanStringRounds quote rounds count s
  generalComment : Settles 1 scanGeneralComment
  scan : Settles 1 (scanRounds library.unicode)
  duration : ∀ counts, Settles 0 (countRounds counts)
  function : ∀ read, Settles 1 fun rounds s => isFuncRounds rounds read s
  call : ∀ lval, Settles 1 fun rounds s => lexRounds library rounds ⟨s, lval⟩

theorem loopsSettle (library : Library) : LoopsSettle library where
  skip := settles_skipRounds
  string := settles_scanStringRounds
  generalComment := settles_scanGeneralComment
  scan := settles_scanRounds library.unicode
  duration := settles_countRounds
  function := settles_isFuncRounds
  call := settles_lexRounds library

end McoaGateway.Logql
