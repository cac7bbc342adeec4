/-
Texts whose tokens are known.

A text is written as a sequence of lexemes.  Each lexeme says which token it stands for and
what may follow it (`Lexeme.Fits`).  The lexer gives the tokens of a sequence in which every
lexeme fits (`lexemes_lexed`), unless it loses a part of the text by looking ahead.
-/

import McoaGateway.Logql.LiteralText

namespace McoaGateway.Logql

open GoString
open Scanner

/-! ### Lexemes -/

inductive Lexeme where
  | blank
  | word (text : GoString) (kind : Terminal)
  | function (text : GoString) (kind : Terminal)
  | symbol (b : UInt8) (kind : Terminal)
  | pair (b c : UInt8) (kind : Terminal)
  | name (text : GoString)
  | string (literal value : GoString)
  | range (text : GoString)

def Lexeme.text : Lexeme → GoString
  | .blank => [byte ' ']
  | .word text _ => text
  | .function text _ => text
  | .symbol b _ => [b]
  | .pair b c _ => [b, c]
  | .name text => text
  | .string literal _ => literal
  | .range text => text

def Lexeme.token : Lexeme → Option Token
  | .blank => none
  | .word _ kind => some ⟨kind, ⟨[], 0⟩⟩
  | .function _ kind => some ⟨kind, ⟨[], 0⟩⟩
  | .symbol _ kind => some ⟨kind, ⟨[], 0⟩⟩
  | .pair _ _ kind => some ⟨kind, ⟨[], 0⟩⟩
  | .name text => some ⟨.identifier, ⟨text, 0⟩⟩
  | .string _ value => some ⟨.string, ⟨value, 0⟩⟩
  | .range text => some ⟨.range, ⟨text, 0⟩⟩

/-- The end, or an ASCII character that does not belong to a word. -/
def wordEnds (rest : GoString) : Bool :=
  match rest with
  | [] => true
  | b :: _ => decide (b.toNat < 0x80) && !isNameByte b

/-- The lexeme is read as its token when this follows. -/
def Lexeme.Fits (library : Library) : Lexeme → GoString → Prop
  | .blank, _ => True
  | .word text kind, rest =>
      isPlainName text = true ∧ tokens.lookup text = some kind ∧
        funcTokens.lookup text = none ∧ wordEnds rest = true
  | .function text kind, rest =>
      isPlainName text = true ∧ funcTokens.lookup text = some kind ∧ wordEnds rest = true ∧
        Reference.isFunc rest = true
  | .symbol b kind, rest =>
      isSymbol b = true ∧ tokens.lookup [b] = some kind ∧ tokens.lookup (b :: peek rest) = none
  | .pair b c kind, _ =>
      isSymbol b = true ∧ c.toNat < 0x80 ∧ c ≠ 0 ∧ tokens.lookup [b, c] = some kind
  | .name text, rest =>
      Word library.unicode text ∧ tokens.lookup text = none ∧ wordEnds rest = true ∧
        Reference.isFunc rest = false
  | .string literal value, _ => StringLiteral literal value
  | .range text, _ =>
      ∃ body, text = byte '[' :: (body ++ [byte ']']) ∧ Made (fun r => r ≠ 0x5D) body

variable {library : Library} {rest : GoString}

theorem word_of_plain (unicode : Unicode) {text : GoString} (plain : isPlainName text = true) :
    Word unicode text := by
  have known := forall_byte
    (fun b => !isNameByte b || (decide (b.toNat < 0x80) && b != 0 &&
      (!isNameStart b || (decide (b.toNat = 0x5F) || isAsciiLetter b.toNat)))) (by decide +kernel)
  cases text with
  | nil => cases plain
  | cons b more =>
      rw [isPlainName, Bool.and_eq_true, List.all_eq_true] at plain
      obtain ⟨starts, others⟩ := plain
      have ofByte : ∀ b, isNameByte b = true → b.toNat < 0x80 ∧ b ≠ 0 := by
        intro b named
        have own := known b
        rw [named] at own
        simp only [Bool.not_true, Bool.false_or, Bool.and_eq_true, decide_eq_true_eq,
          bne_iff_ne] at own
        exact own.1
      have named : isNameByte b = true := by
        rw [isNameByte, starts]
        rfl
      obtain ⟨small, nonzero⟩ := ofByte b named
      refine ⟨b.toNat, more, Or.inl (by omega), fun zero => nonzero (UInt8.toNat_inj.mp zero), ?_,
        made_of_ascii fun c member => ?_, ?_⟩
      · have own := known b
        rw [named, starts] at own
        simp only [Bool.not_true, Bool.false_or, Bool.and_eq_true] at own
        rw [Unicode.identStart, Unicode.letter, if_pos small]
        exact own.2
      · obtain ⟨smallByte, nonzeroByte⟩ := ofByte c (others c member)
        exact ⟨smallByte, nonzeroByte, (identPart_ascii unicode smallByte).trans (others c member)⟩
      · rw [encodeRune_toNat small]
        rfl

theorem wordEnds_spec (unicode : Unicode) (ends : wordEnds rest = true) :
    WordEnds unicode rest := by
  intro r isFirst
  cases rest with
  | nil => cases isFirst
  | cons b more =>
      rw [wordEnds, Bool.and_eq_true, decide_eq_true_eq, Bool.not_eq_true'] at ends
      rw [firstRune_cons ends.1] at isFirst
      cases isFirst
      rw [identPart_ascii unicode ends.1]
      exact ends.2

theorem Lexeme.Fits.clean {lexeme : Lexeme} (fits : lexeme.Fits library rest) :
    Clean lexeme.text := by
  cases lexeme with
  | blank => exact .cons (by decide) (by decide) .nil
  | word text kind => exact (word_of_plain library.unicode fits.1).clean
  | function text kind => exact (word_of_plain library.unicode fits.1).clean
  | symbol b kind =>
      obtain ⟨-, -, -, -, small, nonzero, -⟩ := isSymbol_spec fits.1
      exact .cons small nonzero .nil
  | pair b c kind =>
      obtain ⟨-, -, -, -, small, nonzero, -⟩ := isSymbol_spec fits.1
      exact .cons small nonzero (.cons fits.2.1 fits.2.2.1 .nil)
  | name text => exact fits.1.clean
  | string literal value => exact StringLiteral.clean fits
  | range text =>
      obtain ⟨body, rfl, made⟩ := fits
      exact .cons (by decide) (by decide)
        (made.clean.append (.cons (by decide) (by decide) .nil))

theorem Lexeme.Fits.yields {lexeme : Lexeme} {token : Token} {state : LexState}
    {errors : List ScanError} (fits : lexeme.Fits library rest)
    (isToken : lexeme.token = some token)
    (facing : Facing state.scanner (lexeme.text ++ rest) errors) (clean : Clean rest)
    (within : LooksWithin library state.scanner) : Yields library state token rest errors := by
  cases lexeme with
  | blank => cases isToken
  | word text kind =>
      cases isToken
      obtain ⟨plain, isKeyword, notFunction, ends⟩ := fits
      exact yields_word facing (word_of_plain library.unicode plain) clean
        (wordEnds_spec library.unicode ends) within isKeyword notFunction
  | function text kind =>
      cases isToken
      obtain ⟨plain, isFunction, ends, called⟩ := fits
      exact yields_function facing (word_of_plain library.unicode plain) clean
        (wordEnds_spec library.unicode ends) within isFunction called
  | symbol b kind =>
      cases isToken
      exact yields_symbol facing fits.1 clean fits.2.1 fits.2.2
  | pair b c kind =>
      cases isToken
      exact yields_pair facing fits.1 fits.2.1 fits.2.2.1 clean fits.2.2.2
  | name text =>
      cases isToken
      obtain ⟨word, notKeyword, ends, notCalled⟩ := fits
      exact yields_name facing word clean (wordEnds_spec library.unicode ends) within notKeyword
        notCalled
  | string literal value =>
      cases isToken
      exact yields_string facing fits clean
  | range text =>
      cases isToken
      obtain ⟨body, rfl, made⟩ := fits
      rw [Lexeme.text, List.cons_append, List.append_assoc] at facing
      exact yields_range facing made clean

/-! ### Sequences -/

def lexemesText (lexemes : List Lexeme) : GoString :=
  lexemes.flatMap Lexeme.text

/-- Every lexeme fits what follows it. -/
def Lexable (library : Library) : List Lexeme → GoString → Prop
  | [], _ => True
  | lexeme :: lexemes, rest =>
      lexeme.Fits library (lexemesText lexemes ++ rest) ∧ Lexable library lexemes rest

theorem lexemesText_append (front back : List Lexeme) :
    lexemesText (front ++ back) = lexemesText front ++ lexemesText back :=
  List.flatMap_append

theorem lexable_append (front back : List Lexeme) (rest : GoString) :
    Lexable library (front ++ back) rest ↔
      Lexable library front (lexemesText back ++ rest) ∧ Lexable library back rest := by
  induction front with
  | nil => exact ⟨fun fits => ⟨trivial, fits⟩, fun fits => fits.2⟩
  | cons lexeme front ih =>
      rw [List.cons_append, Lexable, Lexable, ih, lexemesText_append, List.append_assoc, and_assoc]

theorem Lexable.clean {lexemes : List Lexeme} (fits : Lexable library lexemes rest) :
    Clean (lexemesText lexemes) := by
  induction lexemes with
  | nil => exact .nil
  | cons lexeme lexemes ih =>
      exact fits.1.clean.append (ih fits.2)

theorem Called.cons {start next state : LexState} {token : Option Token}
    (first : lex library start = some (token, next)) (called : Called library next state) :
    Called library start state := by
  induction called with
  | start => exact .next .start first
  | next _ lexed ih => exact .next ih lexed

/-- The lexer gives the tokens of the lexemes. -/
theorem lexemes_lexed (engine : RegexpEngine) {lexemes : List Lexeme} {state : LexState}
    {errors : List ScanError} (fits : Lexable library lexemes rest) (clean : Clean rest)
    (facing : Facing state.scanner (lexemesText lexemes ++ rest) errors)
    (within : ∀ called, Called library state called → LooksWithin library called.scanner) :
    ∃ (actual : List Token) (next : LexState),
      Goyacc.Lexed (exprLexer engine library) state actual next ∧
      actual.map Token.core = lexemes.filterMap Lexeme.token ∧
      Facing next.scanner rest errors := by
  induction lexemes generalizing state with
  | nil =>
      exact ⟨[], state, @Goyacc.Lexed.nil (grammar engine library) (exprLexer engine library) state,
        rfl, facing⟩
  | cons lexeme lexemes ih =>
      have facingAll : Facing state.scanner
          (lexeme.text ++ (lexemesText lexemes ++ rest)) errors := by
        rw [← List.append_assoc]
        exact facing
      cases isToken : lexeme.token with
      | none =>
          have isBlank : lexeme = .blank := by
            cases lexeme <;> first
              | rfl
              | cases isToken
          subst isBlank
          obtain ⟨actual, next, lexed, same, there⟩ := ih fits.2 facingAll.blank within
          exact ⟨actual, next, lexed, by rw [List.filterMap_cons, isToken]; exact same, there⟩
      | some token =>
          obtain ⟨own, middle, lexed, isCore, facingRest⟩ := fits.1.yields isToken facingAll
            (fits.2.clean.append clean) (within state .start)
          obtain ⟨actual, next, others, same, there⟩ := ih fits.2 facingRest
            fun called isCalled => within called (isCalled.cons lexed)
          refine ⟨own :: actual, next, @Goyacc.Lexed.cons (grammar engine library)
            (exprLexer engine library) state middle next own actual lexed others, ?_, there⟩
          rw [List.map_cons, isCore, same, List.filterMap_cons, isToken]

end McoaGateway.Logql
