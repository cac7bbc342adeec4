/-
`ParseExpr` (`logql/v2/parser.go`).

A parser is taken from a pool and keeps the lexer's value and the stack of the
parses before; both are part of the input here.  `parseExpr` takes a number of
rounds, and `none` means that the parser has not returned within them.
-/

import McoaGateway.Goyacc.Derivation
import McoaGateway.Logql.Grammar
import McoaGateway.Logql.Tables

namespace McoaGateway.Logql

open GoString

section

variable (engine : RegexpEngine) (library : Library)

def exprLexer : Goyacc.Lexer (grammar engine library) where
  State := LexState
  lex := lex library
  report state := state.error (ascii "syntax error")

/-- What a pooled parser keeps: the stack and the lexer's value. -/
structure Parser where
  stack : Goyacc.Memory LogNumberExpr
  lval : LexValue

def Parser.new : Parser :=
  ⟨.fresh .zero, ⟨[], 0⟩⟩

def Parser.start (capacity : Nat) (parser : Parser) (input : GoString) : LexState :=
  ⟨Scanner.ofText capacity input, parser.lval⟩

inductive Parsed where
  /-- The expression, and the numbers that it refers to. -/
  | expr (e : Expr) (numbers : Numbers)
  /-- The errors, of which the first one is returned. -/
  | errors (errs : List ScanError)
  | panicked (failure : Panic)

/-- The value of the start symbol, which is alone on the stack in the end. -/
def rootValue (stack : List (Goyacc.Entry (grammar engine library))) : Option Expr :=
  (Goyacc.matchArgs [Symbol.root] stack).map fun args => args.1

/-- `bufLen` of the scanner is a parameter. -/
def parseExprWith (capacity rounds : Nat) (parser : Parser) (input : GoString) :
    Option Parsed :=
  match Goyacc.run exprTables (exprLexer engine library) rounds
      (Goyacc.Config.start parser.stack (parser.start capacity input)) with
  | none => none
  | some (.running _) => none
  | some (.panicked failure _) => some (.panicked failure)
  | some (.rejected config) => some (.errors config.lexer.scanner.errors)
  | some (.accepted config) =>
      if config.lexer.scanner.errors = [] then
        (rootValue engine library config.stack).map fun e => .expr e config.memory.read
      else some (.errors config.lexer.scanner.errors)

def parseExpr (rounds : Nat) (parser : Parser) (input : GoString) : Option Parsed :=
  parseExprWith engine library 1024 rounds parser input

end

end McoaGateway.Logql
