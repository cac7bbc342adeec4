/-
The call of the lexer in front of a known text: words and operators.

`Yields` says that the lexer gives a token and is in front of the rest then, up to blanks.
What follows a word decides whether it is the name of a function.  Nothing is lost by
looking ahead as long as the copies of the scanner do not refill their buffers.
-/

import McoaGateway.Logql.Located
import McoaGateway.Logql.Lookahead
import McoaGateway.TextScanner.Known
import Mathlib.Data.List.TakeWhile

namespace McoaGateway.Logql

open GoString
open Scanner

/-! ### In front of a text -/

/-- The scanner is in front of the text, or of its part behind some blanks. -/
def Facing (s : Scanner) (text : GoString) (errors : List ScanError) : Prop :=
  ∃ blanks, (∀ b ∈ blanks, b = byte ' ') ∧
    At s (blanks ++ text.dropWhile (· == byte ' ')) errors

variable {library : Library} {s : Scanner} {text rest : GoString} {errors : List ScanError}

theorem facing_at (here : At s text errors) : Facing s text errors := by
  refine ⟨text.takeWhile (· == byte ' '), ?_, ?_⟩
  · intro b member
    have isBlank := List.mem_takeWhile_imp member
    exact beq_iff_eq.mp isBlank
  · rw [List.takeWhile_append_dropWhile]
    exact here

theorem Facing.blank (facing : Facing s (byte ' ' :: rest) errors) : Facing s rest errors := by
  obtain ⟨blanks, areBlanks, here⟩ := facing
  exact ⟨blanks, areBlanks, here⟩

theorem Facing.at (facing : Facing s text errors)
    (notBlank : ∀ r, firstRune text = some r → isWhitespace r = false) :
    ∃ blanks, (∀ b ∈ blanks, b = byte ' ') ∧ At s (blanks ++ text) errors := by
  obtain ⟨blanks, areBlanks, here⟩ := facing
  refine ⟨blanks, areBlanks, ?_⟩
  cases text with
  | nil => exact here
  | cons b more =>
      have notSpace : (b == byte ' ') = false := by
        rw [beq_eq_false_iff_ne]
        rintro rfl
        have known := notBlank 0x20 (firstRune_cons (b := byte ' ') (by decide) more)
        exact absurd known (by decide)
      rw [List.dropWhile_cons, notSpace, if_neg Bool.false_ne_true] at here
      exact here

variable (library) in
/-- The token is the one that is read behind the blanks. -/
theorem Facing.found (facing : Facing s text errors) (clean : Clean text)
    (notBlank : ∀ r, firstRune text = some r → isWhitespace r = false) :
    ∃ start, At start text errors ∧ ∀ scanned stop,
      scanToken library.unicode start = (some scanned, stop) → scanned ≠ .rune 0x23 →
      tokenAt library s = (scanned, start, stop) := by
  obtain ⟨blanks, areBlanks, here⟩ := facing.at notBlank
  obtain ⟨start, atStart, scans⟩ := here.scan library.unicode areBlanks clean notBlank
  refine ⟨start, atStart, fun scanned stop isToken notHash => ?_⟩
  rw [Logql.tokenAt, tokenRounds, scans scanned stop isToken]
  dsimp only
  rw [if_neg notHash]

theorem Facing.ends {state : LexState} (facing : Facing state.scanner [] errors) :
    ∃ next, lex library state = some (none, next) ∧ next.scanner.errors = errors := by
  obtain ⟨start, atStart, found⟩ := facing.found library .nil (fun r isFirst => nomatch isFirst)
  have isToken : scanToken library.unicode start = (some .eof, start) := by
    rw [scanToken, atStart.ch]
    rfl
  refine ⟨state.moveTo start, ?_, atStart.errors⟩
  rw [lex_eq, found _ _ isToken (by decide)]
  rfl

/-! ### Copies of the scanner -/

/-- The scanner reads a clean text. -/
def Calm (s : Scanner) (errors : List ScanError) : Prop :=
  ∃ text, Clean text ∧ At s text errors

theorem calm_at (here : At s text errors) (clean : Clean text) : Calm s errors :=
  ⟨text, clean, here⟩

theorem Calm.next (calm : Calm s errors) : Calm s.next errors := by
  obtain ⟨text, clean, here⟩ := calm
  cases clean with
  | nil =>
      have atEnd : s.ch = none := here.ch
      refine ⟨[], .nil, here.whole.next, ?_, ?_⟩
      · rw [text_next_of_ch_none atEnd, here.text]
      · rw [Scanner.next, errors_checkRune_of_clean, errors_fill]
        · exact here.errors
        · exact whole_fill here.whole.capacity
        · rw [text_fill, held_of_ch_none atEnd]
          have isReader := here.text
          rw [Scanner.text, held_of_ch_none atEnd, List.nil_append] at isReader
          rw [Scanner.text, isReader]
          exact .nil
  | rune valid _ clean => exact ⟨_, clean, here.next valid clean⟩

theorem Calm.skipRounds (skips : Nat → Bool) (rounds : Nat) (calm : Calm s errors) :
    Calm (Scanner.skipRounds skips rounds s) errors := by
  induction rounds generalizing s with
  | zero => exact calm
  | succ rounds ih =>
      rw [Scanner.skipRounds]
      split
      · exact calm
      · split
        · exact ih calm.next
        · exact calm

theorem Calm.isFuncRounds (rounds : Nat) (read : GoString) (calm : Calm s errors) :
    Calm (Logql.isFuncRounds rounds read s).2 errors := by
  induction rounds generalizing s read with
  | zero => exact calm
  | succ rounds ih =>
      rw [Logql.isFuncRounds]
      split
      · exact calm
      · dsimp only
        split
        · exact calm.next
        · split
          · exact (calm.next.skipRounds _ _).next
          · exact ih _ calm.next

theorem Calm.isFunc (calm : Calm s errors) : Calm (Logql.isFunc s).2 errors :=
  (calm.skipRounds _ _).isFuncRounds _ _

/-- A copy that has not refilled its buffer leaves no trace. -/
theorem after_at {copy : Scanner} (here : At s text errors) (calm : Calm copy errors)
    (within : copy.reader = s.reader) : At (s.after copy) text errors := by
  have same : SameBuffer s (s.after copy) := sameBuffer_after within
  obtain ⟨_, -, there⟩ := calm
  exact ⟨same.whole here.whole, same.text.trans here.text, there.errors⟩

/-! ### Words -/

/-- The next character as the lexer appends it to a token. -/
def peek (rest : GoString) : GoString :=
  encodeRune ((firstRune rest).getD runeError)

theorem peekString_at (here : At s rest errors) : Logql.peekString s = peek rest := by
  rw [Logql.peekString, here.ch]
  rfl

/-- A key that begins like a word is a word. -/
theorem keys_words :
    ∀ entry ∈ tokens ++ funcTokens, (entry.1.all fun b => b.toNat < 0x80) = true ∧
      (isNameStart (entry.1.headD 0) = true → entry.1.all isNameByte = true) := by
  decide +kernel

theorem identStart_ascii (unicode : Unicode) {b : UInt8} (isAscii : b.toNat < 0x80)
    (starts : unicode.identStart b.toNat = true) : isNameStart b = true := by
  have checked := forall_byte
    (fun b => !(b.toNat = 0x5F || isAsciiLetter b.toNat) || isNameStart b) (by decide +kernel) b
  rw [Unicode.identStart, Unicode.letter, if_pos isAscii] at starts
  rw [starts] at checked
  exact checked

theorem identPart_ascii (unicode : Unicode) {b : UInt8} (isAscii : b.toNat < 0x80) :
    unicode.identPart b.toNat = isNameByte b := by
  have checked := forall_byte
    (fun b => (b.toNat = 0x5F || isAsciiLetter b.toNat || isDecimal b.toNat) == isNameByte b)
    (by decide +kernel) b
  rw [Unicode.identPart, Unicode.letter, Unicode.digit, if_pos isAscii, if_pos isAscii]
  exact beq_iff_eq.mp checked

theorem word_head {unicode : Unicode} (word : Word unicode text) :
    ∃ b more, text = b :: more ∧ (b.toNat < 0x80 → isNameStart b = true) := by
  obtain ⟨r, more, valid, -, starts, -, rfl⟩ := word
  by_cases isAscii : r < 0x80
  · refine ⟨UInt8.ofNat r, more, ?_, fun small => ?_⟩
    · rw [encodeRune, if_pos isAscii]
      rfl
    · refine identStart_ascii unicode small ?_
      rw [UInt8.toNat_ofNat_of_lt' (Nat.lt_trans isAscii (by decide))]
      exact starts
  · obtain ⟨b, others, isRune⟩ := List.exists_cons_of_ne_nil (encodeRune_ne_nil r)
    refine ⟨b, others ++ more, by rw [isRune]; rfl, fun small => ?_⟩
    have high := encodeRune_not_ascii r (by omega) b (by rw [isRune]; exact List.mem_cons_self)
    omega

/-- With the next character, a word is no key. -/
theorem lookup_wordNext {unicode : Unicode} (word : Word unicode text)
    (ends : WordEnds unicode rest) {table : List (GoString × Terminal)}
    (known : ∀ entry ∈ table, entry ∈ tokens ++ funcTokens) :
    table.lookup (text ++ peek rest) = none := by
  rw [List.lookup_eq_none_iff]
  intro entry member
  rw [bne_iff_ne]
  intro same
  obtain ⟨isAscii, isWord⟩ := keys_words entry (known entry member)
  obtain ⟨b, more, rfl, starts⟩ := word_head word
  rw [← same] at isAscii isWord
  rw [List.all_eq_true] at isAscii
  have small : b.toNat < 0x80 := of_decide_eq_true (isAscii b List.mem_cons_self)
  have named := List.all_eq_true.mp (isWord (starts small))
  obtain ⟨c, others, isPeek⟩ := List.exists_cons_of_ne_nil
    (encodeRune_ne_nil ((firstRune rest).getD runeError))
  have inPeek : c ∈ peek rest := by
    rw [peek, isPeek]
    exact List.mem_cons_self
  have inKey : c ∈ b :: more ++ peek rest := List.mem_append_right _ inPeek
  have smallNext : c.toNat < 0x80 := of_decide_eq_true (isAscii c inKey)
  by_cases high : 0x80 ≤ (firstRune rest).getD runeError
  · have large := encodeRune_not_ascii _ high c inPeek
    omega
  · cases isFirst : firstRune rest with
    | none =>
        rw [isFirst] at high
        exact high (by decide)
    | some r =>
        rw [peek, isFirst, Option.getD_some] at inPeek
        rw [isFirst, Option.getD_some] at high
        rw [encodeRune, if_pos (Nat.lt_of_not_le high), List.mem_singleton] at inPeek
        subst inPeek
        have part := (identPart_ascii unicode smallNext).trans (named _ inKey)
        rw [UInt8.toNat_ofNat_of_lt' (Nat.lt_trans (Nat.lt_of_not_le high) (by decide)),
          ends r isFirst] at part
        cases part

theorem lexWord_known {state : LexState} (here : At state.scanner rest errors)
    (clean : Clean rest) (tokenText : GoString)
    (noNext : funcTokens.lookup (tokenText ++ peek rest) = none)
    (within : ∀ copy ∈ wordLookaheads state.scanner tokenText,
      copy.reader = state.scanner.reader) :
    ∃ moved : LexState, moved.lval = state.lval ∧ At moved.scanner rest errors ∧
      lexWord state tokenText =
        match funcTokens.lookup tokenText, Reference.isFunc rest with
        | some kind, true => moved.token kind
        | _, _ => lexKeyword moved tokenText (tokenText ++ peek rest) := by
  have isPeek := peekString_at here
  unfold wordLookaheads at within
  rw [isPeek, noNext] at within
  rw [lexWord_eq, isPeek, noNext]
  unfold lexShort
  unfold shortLookaheads at within
  dsimp only at within ⊢
  cases isFunction : funcTokens.lookup tokenText with
  | none => exact ⟨state, rfl, here, rfl⟩
  | some kind =>
      rw [isFunction] at within
      have looked := isFunc_eq here.whole
      rw [here.text] at looked
      have atAfter := after_at here (calm_at here clean).isFunc (within _ List.mem_cons_self)
      refine ⟨state.moveTo (state.scanner.after (isFunc state.scanner).2), rfl, atAfter, ?_⟩
      dsimp only
      rw [looked]
      cases Reference.isFunc rest <;> rfl

/-! ### Tokens -/

/-- The token without the parts of its value that no action reads. -/
def Token.core (token : Token) : Token :=
  ⟨token.kind, Lexer.coreValue token.kind token.lval⟩

/-- The tokens of keywords and functions have no value. -/
theorem core_keyword {key : GoString} {kind : Terminal} (lval : LexValue)
    (member : (key, kind) ∈ tokens ++ funcTokens) : Token.core ⟨kind, lval⟩ = ⟨kind, ⟨[], 0⟩⟩ := by
  obtain ⟨-, noText, notString, notDuration⟩ := keyword_entries _ member
  cases kind <;> first
    | rfl
    | simp at noText notString notDuration

/-- The lexer gives the token, and is in front of the rest then. -/
def Yields (library : Library) (state : LexState) (token : Token) (rest : GoString)
    (errors : List ScanError) : Prop :=
  ∃ actual next, lex library state = some (some actual, next) ∧ actual.core = token ∧
    Facing next.scanner rest errors

section

variable {state : LexState}

theorem word_notBlank {unicode : Unicode} (word : Word unicode text) (rest : GoString) :
    ∀ r, firstRune (text ++ rest) = some r → isWhitespace r = false := by
  obtain ⟨r, more, valid, -, starts, -, rfl⟩ := word
  intro own isFirst
  rw [List.append_assoc, firstRune_encodeRune valid] at isFirst
  cases isFirst
  by_contra blank
  rw [Bool.not_eq_false, isWhitespace] at blank
  simp only [Bool.or_eq_true, decide_eq_true_eq] at blank
  rcases blank with ((rfl | rfl) | rfl) | rfl <;>
    simp [Unicode.identStart, Unicode.letter, isAsciiLetter] at starts

theorem lex_word (facing : Facing state.scanner (text ++ rest) errors)
    (word : Word library.unicode text) (clean : Clean rest) (ends : WordEnds library.unicode rest)
    (within : LooksWithin library state.scanner) :
    ∃ moved : LexState, At moved.scanner rest errors ∧
      lex library state = some
        (match funcTokens.lookup text, Reference.isFunc rest with
        | some kind, true => moved.token kind
        | _, _ =>
            match tokens.lookup text with
            | some kind => moved.token kind
            | none => (moved.withStr text).token .identifier) := by
  obtain ⟨start, atStart, found⟩ := facing.found library (word.clean.append clean)
    (word_notBlank word rest)
  obtain ⟨stop, isToken, atStop⟩ := atStart.scanToken_word library.unicode word clean ends
  have isFound := found _ _ isToken (by decide)
  have isText : start.since stop = text := atStart.since atStop
  unfold LooksWithin lookaheads at within
  rw [isFound] at within
  dsimp only at within
  rw [isText] at within
  have noNext : funcTokens.lookup (text ++ peek rest) = none :=
    lookup_wordNext word ends fun entry member => List.mem_append_right _ member
  have noKeyword : tokens.lookup (text ++ peek rest) = none :=
    lookup_wordNext word ends fun entry member => List.mem_append_left _ member
  have here : At (state.moveTo stop).scanner rest errors := atStop
  obtain ⟨moved, -, there, isWord⟩ := lexWord_known here clean text noNext within
  refine ⟨moved, there, ?_⟩
  rw [lex_eq, isFound]
  unfold lexFound
  dsimp only
  rw [isText, isWord]
  unfold lexKeyword
  generalize tokens.lookup (text ++ peek rest) = isNext at noKeyword ⊢
  subst noKeyword
  rfl

theorem yields_word {kind : Terminal} (facing : Facing state.scanner (text ++ rest) errors)
    (word : Word library.unicode text) (clean : Clean rest) (ends : WordEnds library.unicode rest)
    (within : LooksWithin library state.scanner) (isKeyword : tokens.lookup text = some kind)
    (notFunction : funcTokens.lookup text = none) :
    Yields library state ⟨kind, ⟨[], 0⟩⟩ rest errors := by
  obtain ⟨moved, there, lexed⟩ := lex_word facing word clean ends within
  rw [notFunction, isKeyword] at lexed
  exact ⟨_, moved, lexed, core_keyword _ (List.mem_append_left _ (mem_of_lookup isKeyword)),
    facing_at there⟩

theorem yields_function {kind : Terminal} (facing : Facing state.scanner (text ++ rest) errors)
    (word : Word library.unicode text) (clean : Clean rest) (ends : WordEnds library.unicode rest)
    (within : LooksWithin library state.scanner) (isFunction : funcTokens.lookup text = some kind)
    (called : Reference.isFunc rest = true) :
    Yields library state ⟨kind, ⟨[], 0⟩⟩ rest errors := by
  obtain ⟨moved, there, lexed⟩ := lex_word facing word clean ends within
  rw [isFunction, called] at lexed
  exact ⟨_, moved, lexed, core_keyword _ (List.mem_append_right _ (mem_of_lookup isFunction)),
    facing_at there⟩

theorem yields_name (facing : Facing state.scanner (text ++ rest) errors)
    (word : Word library.unicode text) (clean : Clean rest) (ends : WordEnds library.unicode rest)
    (within : LooksWithin library state.scanner) (notKeyword : tokens.lookup text = none)
    (notCalled : Reference.isFunc rest = false) :
    Yields library state ⟨.identifier, ⟨text, 0⟩⟩ rest errors := by
  obtain ⟨moved, there, lexed⟩ := lex_word facing word clean ends within
  rw [notKeyword, notCalled] at lexed
  refine ⟨⟨.identifier, (moved.withStr text).lval⟩, moved.withStr text, ?_, rfl, facing_at there⟩
  rw [lexed]
  cases funcTokens.lookup text <;> rfl

/-! ### Operators -/

/-- The operators that the lexer looks up in its table. -/
def isSymbol (b : UInt8) : Bool :=
  isOperatorByte b && b != byte '-' && b != byte '[' && b != byte '#'

theorem isSymbol_spec {b : UInt8} (symbol : isSymbol b = true) :
    isOperatorByte b = true ∧ b.toNat ≠ 0x2D ∧ b.toNat ≠ 0x5B ∧ b.toNat ≠ 0x23 ∧
      b.toNat < 0x80 ∧ b ≠ 0 ∧ isWhitespace b.toNat = false ∧ isNameStart b = false := by
  have checked := forall_byte (fun b => !isSymbol b || (isOperatorByte b && b.toNat != 0x2D &&
    b.toNat != 0x5B && b.toNat != 0x23 && decide (b.toNat < 0x80) && b != 0 &&
    !isWhitespace b.toNat && !isNameStart b)) (by decide +kernel) b
  rw [symbol] at checked
  simp only [Bool.not_true, Bool.false_or, Bool.and_eq_true, decide_eq_true_eq, bne_iff_ne, ne_eq,
    Bool.not_eq_true'] at checked
  obtain ⟨⟨⟨⟨⟨⟨⟨operator, notDash⟩, notBracket⟩, notHash⟩, small⟩, nonzero⟩, notBlank⟩, notStart⟩ :=
    checked
  exact ⟨operator, notDash, notBracket, notHash, small, nonzero, notBlank, notStart⟩

/-- Functions are words. -/
theorem lookup_symbol {b : UInt8} (notStart : isNameStart b = false) (more : GoString) :
    funcTokens.lookup (b :: more) = none := by
  have words : ∀ entry ∈ funcTokens, isNameStart (entry.1.headD 0) = true := by decide +kernel
  rw [List.lookup_eq_none_iff]
  intro entry member
  rw [bne_iff_ne]
  intro same
  have own := words entry member
  rw [← same] at own
  exact absurd own (by rw [List.headD_cons, notStart]; exact Bool.false_ne_true)

/-- These operators are never the first of two characters. -/
theorem lookup_single {b : UInt8} (single : (ascii "()\x7b\x7d,+*/%^-").contains b = true)
    (rest : GoString) : tokens.lookup (b :: peek rest) = none := by
  have alone : ∀ b ∈ ascii "()\x7b\x7d,+*/%^-", ∀ entry ∈ tokens,
      entry.1.head? = some b → entry.1.length ≠ 2 ∧
        entry.1.all (fun b => b.toNat < 0x80) = true := by decide +kernel
  rw [List.lookup_eq_none_iff]
  intro entry member
  rw [bne_iff_ne]
  intro same
  obtain ⟨notTwo, isAscii⟩ := alone b (List.contains_iff_mem.mp single) entry member
    (by rw [← same]; rfl)
  rw [← same] at notTwo isAscii
  unfold peek at notTwo isAscii
  by_cases high : 0x80 ≤ (firstRune rest).getD runeError
  · obtain ⟨c, others, isPeek⟩ := List.exists_cons_of_ne_nil
      (encodeRune_ne_nil ((firstRune rest).getD runeError))
    have inPeek : c ∈ encodeRune ((firstRune rest).getD runeError) := by
      rw [isPeek]
      exact List.mem_cons_self
    have large := encodeRune_not_ascii _ high c inPeek
    have small := List.all_eq_true.mp isAscii c (List.mem_cons_of_mem _ inPeek)
    rw [decide_eq_true_eq] at small
    omega
  · rw [encodeRune, if_pos (Nat.lt_of_not_le high)] at notTwo
    exact notTwo rfl

theorem lexWord_symbol {b : UInt8} (notStart : isNameStart b = false) :
    lexWord state [b] = lexKeyword state [b] ([b] ++ Logql.peekString state.scanner) := by
  have noNext : funcTokens.lookup ([b] ++ Logql.peekString state.scanner) = none :=
    lookup_symbol notStart _
  have noFunction : funcTokens.lookup [b] = none := lookup_symbol notStart _
  rw [lexWord_eq, noNext]
  unfold lexShort
  rw [noFunction]

variable (library) in
theorem lex_symbol {b : UInt8} (facing : Facing state.scanner (b :: rest) errors)
    (symbol : isSymbol b = true) (clean : Clean rest) :
    ∃ moved : LexState, At moved.scanner rest errors ∧
      lex library state = some (lexKeyword moved [b] ([b] ++ peek rest)) := by
  obtain ⟨operator, notDash, notBracket, notHash, small, nonzero, notBlank, notStart⟩ :=
    isSymbol_spec symbol
  obtain ⟨start, atStart, found⟩ := facing.found library (.cons small nonzero clean) (by
    intro r isFirst
    rw [firstRune_cons small] at isFirst
    cases isFirst
    exact notBlank)
  obtain ⟨isToken, atStop⟩ := atStart.scanToken_operator library.unicode operator clean
  have isFound := found _ _ isToken (fun same => notHash (Scanned.rune.inj same))
  have atOperator : At start ([b] ++ rest) errors := atStart
  have isText : start.since start.next = [b] := atOperator.since atStop
  refine ⟨state.moveTo start.next, atStop, ?_⟩
  rw [lex_eq, isFound]
  unfold lexFound
  dsimp only
  rw [if_neg notDash, if_neg notBracket, isText, lexWord_symbol notStart]
  rw [show (state.moveTo start.next).scanner = start.next from rfl, peekString_at atStop]

theorem yields_symbol {b : UInt8} {kind : Terminal}
    (facing : Facing state.scanner (b :: rest) errors) (symbol : isSymbol b = true)
    (clean : Clean rest) (isKeyword : tokens.lookup [b] = some kind)
    (noPair : tokens.lookup (b :: peek rest) = none) :
    Yields library state ⟨kind, ⟨[], 0⟩⟩ rest errors := by
  obtain ⟨moved, there, lexed⟩ := lex_symbol library facing symbol clean
  unfold lexKeyword at lexed
  rw [show [b] ++ peek rest = b :: peek rest from rfl, noPair, isKeyword] at lexed
  exact ⟨_, moved, lexed, core_keyword _ (List.mem_append_left _ (mem_of_lookup isKeyword)),
    facing_at there⟩

theorem yields_pair {b c : UInt8} {kind : Terminal}
    (facing : Facing state.scanner (b :: c :: rest) errors) (symbol : isSymbol b = true)
    (small : c.toNat < 0x80) (nonzero : c ≠ 0) (clean : Clean rest)
    (isKeyword : tokens.lookup [b, c] = some kind) :
    Yields library state ⟨kind, ⟨[], 0⟩⟩ rest errors := by
  obtain ⟨moved, there, lexed⟩ :=
    lex_symbol library facing symbol (.cons small nonzero clean)
  have isPeek : peek (c :: rest) = [c] := by
    rw [peek, firstRune_cons small]
    exact encodeRune_toNat small
  unfold lexKeyword at lexed
  rw [isPeek, show [b] ++ [c] = [b, c] from rfl, isKeyword] at lexed
  exact ⟨_, _, lexed, core_keyword _ (List.mem_append_left _ (mem_of_lookup isKeyword)),
    facing_at (there.next_cons small clean)⟩

end

example : tokens.lookup (ascii "(\"") = none := by
  decide +kernel

end McoaGateway.Logql
