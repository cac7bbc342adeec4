/-
`ParseExpr` with a parser of the pool (`logql/v2/parser.go`).

`parserPool` hands out parsers that were used before.  A parser keeps the array of
its stack, the value of its lexer, the lexer itself and the expression of the parse
before, also when that failed or ended in a panic.  `PooledParser.parse` is a call
with such a parser, and `PooledParser.after` is the parser that goes back into the
pool.

A call gives what it would give with a new parser, except for one thing: `Init` does
not reset the column of the position, and what the scanner says of the very first
characters is reported with that column (`parseExpr_pooled_iff`).
-/

import McoaGateway.Goyacc.Pool
import McoaGateway.Logql.Located
import McoaGateway.Logql.NumberFilters

namespace McoaGateway.Logql

open GoString
open Goyacc (Slot)

/-! ### `exprSymType` -/

/-- The fields that the lexer sets, and those of the nonterminals.  A field that was
never set is `none`. -/
structure SymType where
  lval : LexValue
  values : (symbol : Symbol) → Option (Sem symbol)

namespace SymType

def zero : SymType :=
  ⟨⟨[], 0⟩, fun _ => none⟩

/-- What an action reads.  The start symbol has no field.  A selector without matchers
has the nil value, which no action has set. -/
def get : (symbol : Symbol) → SymType → Option (Sem symbol)
  | .terminal _, record => some record.lval
  | .error, _ => some ()
  | .root, _ => none
  | .selector, record => some ((record.values .selector).getD [])
  | symbol, record => record.values symbol

def set (symbol : Symbol) (value : Sem symbol) (record : SymType) : SymType :=
  { record with values := Function.update record.values symbol (some value) }

/-- The field `LogNumberExpr`, whose address is taken. -/
def number (record : SymType) : LogNumberExpr :=
  (record.values .logNumberExpr).getD .zero

end SymType

def Symbol.code : Symbol → Int
  | .terminal t => t.internalNumber
  | _ => Goyacc.errorCode

section

variable (engine : RegexpEngine) (library : Library) (wording : Wording)

def valueless : List (Symbol × List Symbol) :=
  [(.root, [.expr]), (.logRangeQueryExpr, [.logRangeQueryExpr, .error]),
    (.selector, [tok .openBrace, tok .closeBrace])]

def exprUnion : Goyacc.Union (grammar engine library) where
  Record := SymType
  zero := .zero
  get := SymType.get
  set := SymType.set
  cell := SymType.number
  code := Symbol.code
  assigns lhs rhs := !valueless.contains (lhs, rhs)

/-! ### The parser -/

structure ParserState where
  lexer : Lexer
  expr : Option Expr

/-- The action for the start symbol sets the expression. -/
def ParserState.store : (symbol : Symbol) → Sem symbol → ParserState → ParserState
  | .root, e, state => { state with expr := some e }
  | _, _, state => state

def exprSource : Goyacc.Source (exprUnion engine library) where
  State := ParserState
  lex record state :=
    (state.lexer.lex wording library record.lval).map fun (kind, lval, lexer) =>
      (kind.map Symbol.terminal, { record with lval := lval }, { state with lexer := lexer })
  error top token state := { state with lexer := state.lexer.error (exprErrorMessage top token) }
  store := ParserState.store

/-- `parser`, with its `exprParserImpl`.  The array of the stack has 16 records. -/
structure PooledParser where
  stack : Nat → SymType
  lval : SymType
  lexer : Lexer
  expr : Option Expr

def PooledParser.new : PooledParser where
  stack _ := .zero
  lval := .zero
  lexer := ⟨⟨1024, [], [], [], 0⟩, ⟨0, 0, 0⟩, 0, 0, [], []⟩
  expr := none

def PooledParser.start (parser : PooledParser) (input : GoString) :
    Goyacc.Machine (exprUnion engine library) ParserState :=
  .start ⟨0, 16, fun _ => parser.stack⟩ parser.lval
    ⟨parser.lexer.init wording 1024 input, parser.expr⟩

def PooledParser.parse (rounds : Nat) (parser : PooledParser) (input : GoString) :
    Option (Goyacc.Halt (exprUnion engine library) ParserState) :=
  Goyacc.Machine.run exprTables (exprSource engine library wording) rounds
    (parser.start engine library wording input)

/-- The parser after a call.  Larger arrays of the stack do not belong to it. -/
def PooledParser.after (halt : Goyacc.Halt (exprUnion engine library) ParserState) :
    PooledParser where
  stack := halt.machine.memory.cells 0
  lval := halt.machine.lval
  lexer := halt.machine.source.lexer
  expr := halt.machine.source.expr

/-- What a call gives: an expression, with the numbers that it refers to at that time, the
first error, or a panic, of an action or because there is no error to return. -/
inductive Answer where
  | expr (e : Option Expr) (numbers : List LogNumberExpr)
  | error (message : GoString)
  | panicked (failure : Option Panic)

def firstError : List GoString → Answer
  | [] => .panicked none
  | message :: _ => .error message

def answer : Goyacc.Halt (exprUnion engine library) ParserState → Option Answer
  | .running _ => none
  | .panicked failure _ => some (.panicked (some failure))
  | .rejected machine => some (firstError machine.source.lexer.errs)
  | .accepted machine =>
      match machine.source.lexer.errs with
      | [] =>
          let e := machine.source.expr
          some (.expr e ((e.elim [] Expr.addresses).map fun slot =>
            (machine.memory.read slot).number))
      | message :: _ => some (.error message)

/-- `none` when the call has not returned within the rounds. -/
def PooledParser.parseExpr (rounds : Nat) (parser : PooledParser) (input : GoString) :
    Option Answer :=
  (parser.parse engine library wording rounds input).bind (answer engine library)

inductive Pooled : PooledParser → Prop where
  | new : Pooled .new
  | call {parser : PooledParser} (rounds : Nat) (input : GoString)
      {halt : Goyacc.Halt (exprUnion engine library) ParserState} (before : Pooled parser)
      (returned : parser.parse engine library wording rounds input = some halt) :
      Pooled (.after engine library halt)

/-- Behind a byte order mark and blanks, the input begins with NUL or with a byte that is
not UTF-8. -/
def BeginsInvalid (input : GoString) : Prop :=
  Scanner.complaints
    ((Scanner.withoutMark input).dropWhile fun b => isWhitespace b.toNat) ≠ []

instance (input : GoString) : Decidable (BeginsInvalid input) :=
  inferInstanceAs (Decidable (_ ≠ _))

/-! ### What the actions use -/

def coreSem : (symbol : Symbol) → Sem symbol → Sem symbol
  | .terminal t, lval => Lexer.coreValue t lval
  | _, value => value

def Symbol.isNonterminal : Symbol → Bool
  | .terminal _ | .error => false
  | _ => true

def Cored (rules : List Rule) : Prop :=
  ∀ rule ∈ rules, rule.lhs.isNonterminal = true ∧ ∀ slots args, rule.action slots args =
    rule.action slots
      (Goyacc.coreArgs (G := grammar engine library) coreSem rule.rhs args)

theorem cored_productions : Cored engine library (productions engine library) := by
  unfold productions Cored
  repeat rw [List.forall_mem_append]
  repeat rw [and_assoc]
  refine ⟨?_, ?_, ?_, ?_, ?_, ?_, ?_, ?_, ?_, ?_, ?_, ?_, ?_, ?_, ?_, ?_, ?_, ?_, ?_, ?_, ?_, ?_,
    ?_, ?_, ?_, ?_⟩
  all_goals
    repeat refine List.forall_mem_cons.mpr ⟨⟨rfl, fun _ _ => rfl⟩, ?_⟩
    exact List.forall_mem_nil _

/-! ### Records that agree -/

/-- A token has left the selector unset; what a nonterminal has set is the same. -/
def Agree (safe : Slot → Prop) : Symbol → SymType → SymType → Prop
  | .terminal t, record, record' =>
      Lexer.coreValue t record.lval = Lexer.coreValue t record'.lval ∧
        record.values .selector = none ∧ record'.values .selector = none
  | .error, _, _ => True
  | .root, _, _ => True
  | .selector, record, record' =>
      (record.values .selector).getD [] = (record'.values .selector).getD []
  | symbol, record, record' =>
      ∃ value, record.values symbol = some value ∧ record'.values symbol = some value ∧
        ∀ slot ∈ valueAddresses symbol value, safe slot

def SymType.Clean (record : SymType) : Prop :=
  ∀ symbol, record.values symbol = none

/-- The same lexer but for its builder, and the same expression if one was set. -/
def Related (started failed : Prop) (safe : Slot → Prop) (state state' : ParserState) : Prop :=
  (∃ builder, state'.lexer = state.lexer.withBuilder builder) ∧
    (started → ∃ e, state.expr = some e ∧ state'.expr = some e ∧
      ∀ slot ∈ e.addresses, safe slot) ∧
    (failed → state.lexer.errs ≠ [])

variable {engine library wording}

theorem agree_mono (safe safer : Slot → Prop) (weaker : ∀ slot, safe slot → safer slot)
    (symbol : Symbol) (record record' : SymType) (agree : Agree safe symbol record record') :
    Agree safer symbol record record' := by
  cases symbol <;> first
    | exact agree
    | (obtain ⟨value, isValue, isValue', allSafe⟩ := agree
       exact ⟨value, isValue, isValue', fun slot member => weaker slot (allSafe slot member)⟩)

theorem agree_get (safe : Slot → Prop) (symbol : Symbol) (record record' : SymType)
    (agree : Agree safe symbol record record') :
    (SymType.get symbol record).map (coreSem symbol) =
      (SymType.get symbol record').map (coreSem symbol) := by
  cases symbol <;> first
    | rfl
    | exact congrArg some agree.1
    | exact congrArg some agree
    | (obtain ⟨value, isValue, isValue', -⟩ := agree
       change (record.values _).map _ = (record'.values _).map _
       rw [isValue, isValue'])

theorem agree_safe (safe : Slot → Prop) (symbol : Symbol) (record record' : SymType)
    (agree : Agree safe symbol record record') (value : Sem symbol)
    (isValue : SymType.get symbol record = some value) :
    ∀ slot ∈ valueAddresses symbol value, safe slot := by
  cases symbol <;> first
    | exact List.forall_mem_nil _
    | cases isValue
    | (obtain ⟨own, isOwn, -, allSafe⟩ := agree
       cases isOwn.symm.trans isValue
       exact allSafe)

theorem SymType.values_set (symbol : Symbol) (value : Sem symbol) (record : SymType) :
    (record.set symbol value).values symbol = some value := by
  unfold SymType.set
  exact Function.update_self _ _ _

theorem SymType.values_set_of_ne {symbol other : Symbol} (different : other ≠ symbol)
    (value : Sem symbol) (record : SymType) :
    (record.set symbol value).values other = record.values other := by
  unfold SymType.set
  exact Function.update_of_ne different _ _

theorem agree_set (safe : Slot → Prop) (symbol : Symbol)
    (nonterminal : symbol.isNonterminal = true) (value : Sem symbol) (record record' : SymType)
    (allSafe : ∀ slot ∈ valueAddresses symbol value, safe slot) :
    Agree safe symbol (record.set symbol value) (record'.set symbol value) := by
  have isValue := fun own : SymType => own.values_set symbol value
  cases symbol <;> first
    | exact absurd nonterminal Bool.false_ne_true
    | exact trivial
    | exact congrArg (Option.getD · []) ((isValue record).trans (isValue record').symm)
    | exact ⟨value, isValue record, isValue record', allSafe⟩

theorem agree_standing (safe : Slot → Prop) (lhs : Symbol) (rhs : List Symbol)
    (sets : (exprUnion engine library).assigns lhs rhs = false) :
    ∃ symbol rest, rhs = symbol :: rest ∧
      ∀ record record', Agree safe symbol record record' → Agree safe lhs record record' := by
  have sets : (!valueless.contains (lhs, rhs)) = false := sets
  have member : (lhs, rhs) ∈ valueless := by
    rw [Bool.not_eq_false'] at sets
    exact List.contains_iff_mem.mp sets
  simp only [valueless, List.mem_cons, List.not_mem_nil, or_false, Prod.mk.injEq] at member
  rcases member with ⟨rfl, rfl⟩ | ⟨rfl, rfl⟩ | ⟨rfl, rfl⟩
  · exact ⟨_, _, rfl, fun _ _ _ => trivial⟩
  · exact ⟨_, _, rfl, fun _ _ agree => agree⟩
  · refine ⟨_, _, rfl, ?_⟩
    rintro record record' ⟨-, unset, unset'⟩
    change (record.values .selector).getD [] = (record'.values .selector).getD []
    rw [unset, unset']

theorem number_get (symbol : Symbol) (record : SymType) (value : Sem symbol) (cell : LogNumberExpr)
    (isValue : SymType.get symbol record = some value)
    (isCell : (grammar engine library).assigned symbol value = some cell) :
    record.number = cell := by
  by_cases isNumber : symbol = .logNumberExpr
  · subst isNumber
    have isValue : record.values .logNumberExpr = some value := isValue
    cases isCell
    rw [SymType.number, isValue]
    rfl
  · cases symbol <;> first
      | exact absurd rfl isNumber
      | cases isCell

theorem number_set (symbol : Symbol) (value : Sem symbol) (record : SymType) :
    (record.set symbol value).number =
      ((grammar engine library).assigned symbol value).getD record.number := by
  unfold SymType.number
  by_cases isNumber : symbol = .logNumberExpr
  · subst isNumber
    rw [SymType.values_set]
    rfl
  · have unset : (grammar engine library).assigned symbol value = none := by
      cases symbol <;> first
        | exact absurd rfl isNumber
        | rfl
    rw [unset, SymType.values_set_of_ne (Ne.symm isNumber)]
    rfl

theorem related_mono {started started' failed failed' : Prop} {safe safer : Slot → Prop}
    (starts : started' → started) (fails : failed' → failed)
    (weaker : ∀ slot, safe slot → safer slot) (state state' : ParserState)
    (related : Related started failed safe state state') :
    Related started' failed' safer state state' := by
  obtain ⟨sameLexer, sameExpr, reported⟩ := related
  refine ⟨sameLexer, fun started' => ?_, fun failed' => reported (fails failed')⟩
  obtain ⟨e, isExpr, isExpr', allSafe⟩ := sameExpr (starts started')
  exact ⟨e, isExpr, isExpr', fun slot member => weaker slot (allSafe slot member)⟩

theorem lex_related (started failed : Prop) (safe : Slot → Prop) (record record' : SymType)
    (state state' : ParserState) (clean : record.Clean) (clean' : record'.Clean)
    (related : Related started failed safe state state') :
    Option.Rel (fun (symbol, record, state) (symbol', record', state') =>
        symbol' = symbol ∧ SymType.Clean record ∧ SymType.Clean record' ∧
          Related started failed safe state state' ∧
          ∀ token, symbol = some token → Agree safe token record record')
      ((exprSource engine library wording).lex record state)
      ((exprSource engine library wording).lex record' state') := by
  obtain ⟨⟨builder, sameLexer⟩, sameExpr, reported⟩ := related
  have lexed := Lexer.lex_agreed wording library record.lval record'.lval state.lexer builder
  change Option.Rel _ ((state.lexer.lex wording library record.lval).map _)
    ((state'.lexer.lex wording library record'.lval).map _)
  rw [sameLexer]
  cases isLexed : state.lexer.lex wording library record.lval with
  | none =>
      rw [isLexed] at lexed
      generalize (state.lexer.withBuilder builder).lex wording library record'.lval = outcome
        at lexed ⊢
      cases lexed
      exact .none
  | some result =>
      have grown := Lexer.errs_lex wording library isLexed
      rw [isLexed] at lexed
      generalize (state.lexer.withBuilder builder).lex wording library record'.lval = outcome
        at lexed ⊢
      cases lexed with
      | some agreed =>
          refine .some ⟨congrArg (Option.map _) agreed.kind, clean, clean',
            ⟨agreed.lexer, sameExpr, fun failed none => ?_⟩, ?_⟩
          · exact reported failed (List.prefix_nil.mp (none ▸ grown))
          · intro token isToken
            obtain ⟨kind, isKind, rfl⟩ := Option.map_eq_some_iff.mp isToken
            exact ⟨agreed.value kind isKind, clean .selector, clean' .selector⟩

theorem store_related (started failed : Prop) (safe : Slot → Prop) (symbol : Symbol)
    (value : Sem symbol) (state state' : ParserState)
    (related : Related started failed safe state state')
    (allSafe : ∀ slot ∈ valueAddresses symbol value, safe slot) :
    Related (started ∨ symbol = .root) failed safe
      (ParserState.store symbol value state) (ParserState.store symbol value state') := by
  by_cases isRoot : symbol = .root
  · subst isRoot
    obtain ⟨sameLexer, -, reported⟩ := related
    exact ⟨sameLexer, fun _ => ⟨value, rfl, rfl, allSafe⟩, reported⟩
  · have untouched : ∀ own, ParserState.store symbol value own = own := by
      intro own
      cases symbol <;> first
        | exact absurd rfl isRoot
        | rfl
    rw [untouched, untouched]
    exact related_mono (fun starts => starts.resolve_right isRoot) id (fun _ safe => safe) _ _
      related

theorem error_related (started failed : Prop) (safe : Slot → Prop) (top token : Int)
    (state state' : ParserState) (related : Related started failed safe state state') :
    Related started True safe ((exprSource engine library wording).error top token state)
      ((exprSource engine library wording).error top token state') := by
  obtain ⟨⟨builder, sameLexer⟩, sameExpr, -⟩ := related
  refine ⟨⟨builder, ?_⟩, sameExpr, fun _ none => ?_⟩
  · change state'.lexer.error _ = (state.lexer.error _).withBuilder builder
    rw [sameLexer]
    rfl
  · have none : state.lexer.errs ++ [_] = [] := none
    exact List.append_ne_nil_of_right_ne_nil _ (List.cons_ne_nil _ _) none

variable (engine library wording)

/-- Why a parser of the pool does what a new one does. -/
def exprPairing :
    Goyacc.Pairing (exprUnion engine library) (exprSource engine library wording)
      valueAddresses where
  core := coreSem
  Agree := Agree
  Clean := SymType.Clean
  start := .root
  Related := Related
  action rule member := (cored_productions engine library rule member).2
  assigned symbol value := by cases symbol <;> rfl
  cell_get := number_get
  cell_set := number_set
  cell_clean record clean := by
    change (record.values .logNumberExpr).getD _ = _
    rw [clean]
    rfl
  agree_mono := agree_mono
  agree_get := agree_get
  agree_safe := agree_safe
  agree_set safe rule member :=
    agree_set safe rule.lhs (cored_productions engine library rule member).1
  agree_standing := agree_standing
  agree_error _ _ _ := trivial
  related_mono := related_mono
  lex := lex_related
  error := error_related
  store started failed safe rule _ := store_related started failed safe rule.lhs

theorem code_pos (symbol : Symbol) : 0 < symbol.code := by
  cases symbol <;> first
    | decide
    | (rw [Symbol.code, Terminal.internalNumber]
       omega)

theorem exprFinal : Goyacc.Final exprTables (exprUnion engine library) Symbol.root 1 where
  nonzero := by decide
  shift target symbol checked := by
    have range := state_of_checked target _ (code_pos symbol) checked
    omega
  error state target shifts := by
    unfold Goyacc.errorShift at shifts
    dsimp only at shifts
    split at shifts
    · rename_i found
      cases shifts
      have range := state_of_checked _ Goyacc.errorCode (by decide) found.2.2
      omega
    · cases shifts
  reduce state number production found isFinal := by
    obtain ⟨nonneg, small⟩ := r1_range number
    have isFirst := r1_first number (goto_root state _ nonneg small isFinal)
    subst isFirst
    cases found
    rfl
  accept state token negative := (accept_state state token negative).1

/-! ### Calls -/

variable {engine library wording}

theorem start_paired (parser parser' : PooledParser) (input : GoString)
    (clean : parser.lval.Clean) (clean' : parser'.lval.Clean)
    (sameLexer : ∃ builder, parser'.lexer.init wording 1024 input =
      (parser.lexer.init wording 1024 input).withBuilder builder) :
    Goyacc.Paired (exprPairing engine library wording) 1
      (parser.start engine library wording input) (parser'.start engine library wording input) where
  stack := rfl
  shape := ⟨rfl, rfl⟩
  room := by change 0 < 16; decide
  lookahead := rfl
  errflag := rfl
  nerrs := rfl
  flagged _ := rfl
  values _ _ isEntry := nomatch isEntry
  clean := ⟨clean, clean'⟩
  ahead _ isAhead := nomatch isAhead
  source := by
    refine ⟨sameLexer, ?_, fun failed => absurd rfl failed⟩
    rintro ⟨entry, member, -⟩
    cases member

theorem Pooled.clean {parser : PooledParser} (pooled : Pooled engine library wording parser) :
    parser.lval.Clean := by
  induction pooled with
  | new => exact fun _ => rfl
  | @call parser rounds input halt _ returned ih =>
      have paired : Goyacc.Paired (exprPairing engine library wording) 1 _ _ :=
        start_paired parser parser input ih ih ⟨_, rfl⟩
      have halts := Goyacc.run_paired (exprTracks engine library) (exprFinal engine library) rounds
        paired
      have returned : Goyacc.Machine.run exprTables (exprSource engine library wording) rounds
        (parser.start engine library wording input) = some halt := returned
      rw [returned] at halts
      cases halts with
      | some halts => exact halts.machine.clean.1

theorem answer_paired
    {halt halt' : Goyacc.Halt (exprUnion engine library) (exprSource engine library wording).State}
    (halts : Goyacc.HaltPaired (exprPairing engine library wording) 1 halt halt') :
    answer engine library halt' = answer engine library halt := by
  have sameErrs : halt'.machine.source.lexer.errs = halt.machine.source.lexer.errs := by
    obtain ⟨⟨builder, sameLexer⟩, -, -⟩ := halts.machine.source
    exact (congrArg Lexer.errs sameLexer).trans rfl
  cases halts with
  | running paired => rfl
  | panicked failure paired => rfl
  | rejected paired failed => exact congrArg (fun errs => some (firstError errs)) sameErrs
  | @accepted machine machine' paired started =>
      have sameErrs : machine'.source.lexer.errs = machine.source.lexer.errs := sameErrs
      obtain ⟨-, sameExpr, reported⟩ := paired.source
      obtain ⟨e, isExpr, isExpr', allSafe⟩ := sameExpr started
      unfold answer
      dsimp only
      rw [sameErrs]
      cases noErrs : machine.source.lexer.errs with
      | cons message more => rfl
      | nil =>
          have noErrors : machine.nerrs = 0 := by
            by_contra failed
            exact reported failed noErrs
          rw [isExpr, isExpr']
          refine congrArg (fun numbers => some (Answer.expr (some e) numbers)) ?_
          refine List.map_congr_left fun slot member => ?_
          exact (allSafe slot member noErrors).2.symm

theorem parseExpr_congr (parser parser' : PooledParser) (input : GoString)
    (clean : parser.lval.Clean) (clean' : parser'.lval.Clean)
    (sameLexer : ∃ builder, parser'.lexer.init wording 1024 input =
      (parser.lexer.init wording 1024 input).withBuilder builder) (rounds : Nat) :
    parser'.parseExpr engine library wording rounds input =
      parser.parseExpr engine library wording rounds input := by
  have paired : Goyacc.Paired (exprPairing engine library wording) 1 _ _ :=
    start_paired parser parser' input clean clean' sameLexer
  have halts := Goyacc.run_paired (exprTracks engine library) (exprFinal engine library) rounds
    paired
  change Option.Rel _ (parser.parse engine library wording rounds input)
    (parser'.parse engine library wording rounds input) at halts
  unfold PooledParser.parseExpr
  generalize parser.parse engine library wording rounds input = outcome at halts ⊢
  generalize parser'.parse engine library wording rounds input = outcome' at halts ⊢
  cases halts with
  | none => rfl
  | some halts => exact answer_paired halts

/-! ### The first token -/

theorem complaints_blank (input : GoString) :
    Scanner.complaints input = [] ∨
      (input.dropWhile fun b => isWhitespace b.toNat) = input := by
  cases input with
  | nil => exact .inl rfl
  | cons b rest =>
      by_cases blank : isWhitespace b.toNat = true
      · exact .inl ((Scanner.isWhitespace_decodeRune b rest).2 blank).2
      · rw [List.dropWhile_cons, if_neg blank]
        exact .inr rfl

theorem complaints_singleton {text : GoString} (invalid : Scanner.complaints text ≠ []) :
    ∃ e, Scanner.complaints text = [e] := by
  unfold Scanner.complaints at invalid ⊢
  split at invalid
  · exact absurd rfl invalid
  · split at invalid
    · rename_i isInvalid
      rw [if_pos isInvalid]
      exact ⟨_, rfl⟩
    · rename_i isValid
      rw [if_neg isValid]
      split at invalid
      · rename_i isNul
        rw [if_pos isNul]
        exact ⟨_, rfl⟩
      · exact absurd rfl invalid

theorem start_reads :
    ¬ Goyacc.tableEntry exprTables.pact (Goyacc.Machine.state (G := grammar engine library) []) ≤
      exprTables.flag := by
  change ¬ Goyacc.tableEntry exprTables.pact 0 ≤ exprTables.flag
  decide

theorem parse_column (parser : PooledParser) (column : Nat) {input : GoString}
    (valid : ¬ BeginsInvalid input) (rounds : Nat) :
    { parser with lexer := { parser.lexer with column := column } }.parse engine library wording
        rounds input = parser.parse engine library wording rounds input := by
  have quiet : Scanner.complaints
      ((Scanner.withoutMark input).dropWhile fun b => isWhitespace b.toNat) = [] :=
    not_not.mp valid
  have begins : Scanner.Begins (Scanner.ofText 1024 input) _ :=
    Scanner.begins_ofText (by decide) input
  have noErrors : (Scanner.ofText 1024 input).errors = [] := by
    rw [begins.errors]
    rcases complaints_blank (Scanner.withoutMark input) with quiet | same
    · exact quiet
    · exact same ▸ quiet
  have sameInit : { parser.lexer with column := column }.init wording 1024 input =
      { parser.lexer.init wording 1024 input with column := column } := by
    unfold Lexer.init
    dsimp only
    rw [noErrors]
    rfl
  have sameLex : ∀ lval, ({ parser.lexer with column := column }.init wording 1024 input).lex
      wording library lval = (parser.lexer.init wording 1024 input).lex wording library lval := by
    intro lval
    rw [sameInit]
    exact Lexer.lex_column wording library lval (parser.lexer.init wording 1024 input) column
      ((begins.skipWhile.errors.trans quiet).trans noErrors.symm)
  refine Goyacc.Machine.run_fetch exprTables (exprSource engine library wording)
    (parser.start engine library wording input)
    (PooledParser.start engine library wording
      { parser with lexer := { parser.lexer with column := column } } input)
    rfl ?_ start_reads rounds
  unfold Goyacc.Machine.fetch exprSource PooledParser.start Goyacc.Machine.start
  dsimp only
  rw [sameLex]

theorem start_identifier :
    Goyacc.tableEntry exprTables.chk (Goyacc.tableEntry exprTables.act
        (Goyacc.tableEntry exprTables.pact 0 + Terminal.identifier.internalNumber)) ≠
      Terminal.identifier.internalNumber := by
  decide

theorem parseExpr_invalid {input : GoString} {e : ScanError}
    (isComplaint : Scanner.complaints
      ((Scanner.withoutMark input).dropWhile fun b => isWhitespace b.toNat) = [e])
    (parser : PooledParser) :
    parser.parseExpr engine library wording 1 input =
      some (.error (located (wording e []) 0 parser.lexer.column)) := by
  have begins : Scanner.Begins (Scanner.ofText 1024 input) _ :=
    Scanner.begins_ofText (by decide) input
  have skipped := begins.skipWhile
  have invalid : BeginsInvalid input := by
    unfold BeginsInvalid
    rw [isComplaint]
    exact List.cons_ne_nil e []
  have heard : ((parser.lexer.init wording 1024 input).invalidate.readTo wording []
      ((parser.lexer.init wording 1024 input).scanner.skipWhile isWhitespace)).errs =
      [located (wording e []) 0 parser.lexer.column] := by
    change _ ++ List.map _ (List.drop (Scanner.ofText 1024 input).errors.length _) = _
    change _ ++ List.map _ (List.drop _ ((Scanner.ofText 1024 input).skipWhile _).errors) = _
    rw [skipped.errors, isComplaint]
    change List.map _ (Scanner.ofText 1024 input).errors ++ _ = _
    rw [begins.errors]
    rcases complaints_blank (Scanner.withoutMark input) with quiet | same
    · rw [quiet]
      rfl
    · rw [← same, isComplaint]
      rfl
  obtain ⟨value, after, isLexed, isPrefix⟩ := Lexer.lex_invalid wording library parser.lval.lval
    (parser.lexer.init wording 1024 input) skipped invalid
  rw [heard] at isPrefix
  obtain ⟨others, isErrs⟩ := isPrefix
  have isFetch : Goyacc.Machine.fetch (exprSource engine library wording)
      (parser.start engine library wording input) = some
        { parser.start engine library wording input with
          lookahead := some (some (.terminal .identifier))
          lval := { parser.lval with lval := value }
          source := ⟨after, parser.expr⟩ } := by
    unfold Goyacc.Machine.fetch exprSource PooledParser.start Goyacc.Machine.start
    dsimp only
    rw [isLexed]
    rfl
  have returned : parser.parse engine library wording 1 input = _ :=
    Goyacc.Machine.run_rejected exprTables (exprSource engine library wording) isFetch rfl
      start_reads start_identifier rfl rfl rfl 0
  rw [PooledParser.parseExpr, returned]
  change some (firstError (after.errs ++ [_])) = _
  rw [← isErrs]
  rfl

theorem decimal_eq_zero {n : Nat} (same : decimal n = decimal 0) : n = 0 := by
  have isLength : (Nat.toDigits 10 n).length = 1 := by
    rw [← List.length_map (f := byte)]
    exact congrArg List.length same
  have small : n < 10 :=
    (Nat.length_toDigits_le_iff (k := 1) (by decide) (by decide)).mp isLength.le
  have digits : ∀ n < 10, decimal n = decimal 0 → n = 0 := by decide
  exact digits n small same

/-- A parser of the pool does what a new one does, whatever it was used for before, unless
the scanner complains about the first characters and a column was kept. -/
theorem parseExpr_pooled_iff {parser : PooledParser}
    (pooled : Pooled engine library wording parser) (input : GoString) :
    (∀ rounds, parser.parseExpr engine library wording rounds input =
        PooledParser.new.parseExpr engine library wording rounds input) ↔
      parser.lexer.column = 0 ∨ ¬ BeginsInvalid input := by
  constructor
  · intro same
    by_contra neither
    obtain ⟨kept, invalid⟩ := not_or.mp neither
    obtain ⟨e, isComplaint⟩ := complaints_singleton (not_not.mp invalid)
    have located := (parseExpr_invalid isComplaint parser).symm.trans
      ((same 1).trans (parseExpr_invalid isComplaint .new))
    have sameText := List.append_cancel_left (Answer.error.inj (Option.some.inj located))
    exact kept (decimal_eq_zero sameText)
  · intro condition rounds
    have fresh : ∀ parser : PooledParser, parser.lval.Clean → parser.lexer.column = 0 →
        parser.parseExpr engine library wording rounds input =
          PooledParser.new.parseExpr engine library wording rounds input := by
      intro parser clean isZero
      refine (parseExpr_congr parser .new input clean (fun _ => rfl) ⟨[], ?_⟩ rounds).symm
      unfold Lexer.init Lexer.withBuilder
      rw [isZero]
      rfl
    rcases condition with isZero | valid
    · exact fresh parser pooled.clean isZero
    · rw [← fresh { parser with lexer := { parser.lexer with column := 0 } } pooled.clean rfl]
      unfold PooledParser.parseExpr
      rw [parse_column parser 0 valid rounds]

/-- The fixed messages of `text/scanner`.  Its messages about numbers begin with the text
of the number here. -/
def fixedWording : Wording
  | .invalidEncoding, _ => ascii "invalid UTF-8 encoding"
  | .characterNul, _ => ascii "invalid character NUL"
  | .literalNotTerminated, _ => ascii "literal not terminated"
  | .illegalCharLiteral, _ => ascii "invalid char literal"
  | .invalidCharEscape, _ => ascii "invalid char escape"
  | .commentNotTerminated, _ => ascii "comment not terminated"
  | .reported message, _ => message
  | _, text => text ++ ascii " is not a number"

theorem pooled_query :
    ∃ parser, Pooled .literals .asciiOnly fixedWording parser ∧ parser.lexer.column = 8 := by
  have columns : (PooledParser.new.parse .literals .asciiOnly fixedWording 30
      (ascii "\x7ba=\"b\"\x7d")).map (fun halt => halt.machine.source.lexer.column) = some 8 := by
    decide +kernel
  obtain ⟨halt, returned, isColumn⟩ := Option.map_eq_some_iff.mp columns
  exact ⟨_, .call 30 _ .new returned, isColumn⟩

theorem parseExpr_pooled_query :
    ∃ parser, Pooled .literals .asciiOnly fixedWording parser ∧ parser.lexer.column = 8 ∧
      ∀ rounds, parser.parseExpr .literals .asciiOnly fixedWording rounds (ascii "\x7b\x7d") =
        PooledParser.new.parseExpr .literals .asciiOnly fixedWording rounds
          (ascii "\x7b\x7d") := by
  obtain ⟨parser, pooled, isColumn⟩ := pooled_query
  exact ⟨parser, pooled, isColumn, (parseExpr_pooled_iff pooled _).mpr (.inr (by decide))⟩

/-- With a parser that has parsed a query before, and with a new one. -/
theorem parseExpr_nul_keeps_column :
    ∃ parser, Pooled .literals .asciiOnly fixedWording parser ∧
      parser.parseExpr .literals .asciiOnly fixedWording 1 [0] =
        some (.error (ascii "invalid character NUL: 0:8")) ∧
      PooledParser.new.parseExpr .literals .asciiOnly fixedWording 1 [0] =
        some (.error (ascii "invalid character NUL: 0:0")) := by
  obtain ⟨parser, pooled, isColumn⟩ := pooled_query
  have isComplaint : Scanner.complaints
      ((Scanner.withoutMark [0]).dropWhile fun b => isWhitespace b.toNat) = [.characterNul] := by
    decide
  refine ⟨parser, pooled, ?_, ?_⟩
  · rw [parseExpr_invalid isComplaint, isColumn]
    exact congrArg (fun message => some (Answer.error message)) (by decide)
  · rw [parseExpr_invalid isComplaint]
    exact congrArg (fun message => some (Answer.error message)) (by decide)

example : BeginsInvalid (ascii " \t" ++ [0xFF]) := by
  decide +kernel

end

end McoaGateway.Logql
