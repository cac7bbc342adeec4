/-
Texts that are parsed.

If the tokens of some lexemes are read as an expression, and each lexeme fits what follows it,
then the parser accepts the text of the lexemes and gives this expression.
-/

import McoaGateway.Logql.RangeReads
import McoaGateway.Logql.Results

namespace McoaGateway.Logql

open GoString
open Scanner

variable {engine : RegexpEngine} {library : Library}

theorem coreValue_coreValue (kind : Terminal) (lval : LexValue) :
    Lexer.coreValue kind (Lexer.coreValue kind lval) = Lexer.coreValue kind lval := by
  unfold Lexer.coreValue
  dsimp only
  split <;> split <;> rfl

variable (engine library) in
/-- A token is like the part of it that the actions use. -/
theorem tokensAlike_core {tokens cores : List Token} (isCore : tokens.map Token.core = cores) :
    List.Forall₂ (Goyacc.TokenAlike (G := grammar engine library) AlikeSem) cores tokens := by
  subst isCore
  induction tokens with
  | nil => exact .nil
  | cons token tokens ih =>
      exact .cons ⟨rfl, .same (coreValue_coreValue token.kind token.lval)⟩ ih

/-- The scanner begins in front of a text that begins with an ASCII character. -/
theorem at_ofText {capacity : Nat} (room : 4 ≤ capacity) {b : UInt8} {rest : GoString}
    (isAscii : b.toNat < 0x80) (nonzero : b ≠ 0) :
    At (Scanner.ofText capacity (b :: rest)) (b :: rest) [] := by
  have decoded : decodeRune (b :: rest) = (b.toNat, 1) := by
    simp [decodeRune, isAscii]
  have noMark : withoutMark (b :: rest) = b :: rest := by
    rw [withoutMark, decoded, if_neg (by dsimp only; omega)]
  have quiet : complaints (b :: rest) = [] := by
    rw [complaints, decoded, if_neg, if_neg nonzero]
    intro same
    have isError : b.toNat = runeError := congrArg Prod.fst same
    rw [isError] at isAscii
    exact absurd isAscii (by decide)
  have begins := begins_ofText room (b :: rest)
  exact ⟨begins.whole, begins.text.trans noMark, begins.errors.trans (by rw [noMark, quiet])⟩

theorem parse_lexemes {lexemes : List Lexeme} (fits : Lexable library lexemes []) {b : UInt8}
    (begins : (lexemesText lexemes).head? = some b) (isAscii : b.toNat < 0x80)
    (nonzero : b ≠ 0) {e : Expr}
    (reads : Reads engine library 0 .root (tokensOf lexemes) 1 e
      (Goyacc.gotoState exprTables 0 Symbol.root.number))
    {capacity : Nat} (room : 4 ≤ capacity) (parser : Parser)
    (within : ∀ state, Called library (parser.start capacity (lexemesText lexemes)) state →
      LooksWithin library state.scanner) :
    ∃ rounds numbers, parseExprWith engine library capacity rounds parser (lexemesText lexemes) =
      some (.expr e numbers) := by
  have facing : Facing (parser.start capacity (lexemesText lexemes)).scanner
      (lexemesText lexemes ++ []) [] := by
    obtain ⟨rest, isText⟩ := List.head?_eq_some_iff.mp begins
    rw [List.append_nil, isText]
    exact facing_at (at_ofText room isAscii nonzero)
  obtain ⟨tokens, next, lexed, isTokens, atEnd⟩ := lexemes_lexed engine fits .nil facing within
  obtain ⟨final, ended, noErrors⟩ : ∃ final, lex library next = some (none, final) ∧
      final.scanner.errors = [] := atEnd.ends
  obtain ⟨rounds, last, e', ran, stack, same, isFinal⟩ :=
    reads.accepted (by decide +kernel) (tokensAlike_core engine library isTokens) parser.stack
      (Goyacc.gives_of_lexed lexed ended)
  cases (same : e = e')
  refine ⟨rounds, last.memory.read, ?_⟩
  rw [parseExprWith, ran]
  dsimp only
  rw [isFinal, if_pos noErrors, stack]
  rfl

end McoaGateway.Logql
