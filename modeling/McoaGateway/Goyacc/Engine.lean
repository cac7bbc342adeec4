/-
Parsers generated by goyacc.

`Grammar` gives the symbols with their types of values, the productions and
their actions; `Tables` is what the generator wrote; `step` is one round of the
generated `Parse`, with its error recovery.  An action may take the address of a
value on the right-hand side.  That is a slot of the stack, which later rounds
write again, so the part of the values that is read through such addresses is
kept in a `Memory` of its own.
-/

import Mathlib.Data.List.Basic

namespace McoaGateway.Goyacc

/-! ### Grammars -/

/-- A place on the parser stack.  The stack is copied when it grows, so a place
belongs to one generation of it. -/
structure Slot where
  generation : Nat
  index : Nat
deriving DecidableEq, Repr

def Args {Symbol : Type} (Sem : Symbol → Type) : List Symbol → Type
  | [] => Unit
  | symbol :: rest => Sem symbol × Args Sem rest

/-- The action is given the address of each value, counted from 1. -/
structure Production {Symbol : Type} (Sem : Symbol → Type) (Panic : Type) where
  lhs : Symbol
  rhs : List Symbol
  action : (Nat → Slot) → Args Sem rhs → Except Panic (Sem lhs)

structure Grammar where
  Symbol : Type
  decideSymbol : DecidableEq Symbol
  Sem : Symbol → Type
  Token : Type
  kind : Token → Symbol
  value : (token : Token) → Sem (kind token)
  /-- The internal number of a token. -/
  number : Token → Int
  errorSymbol : Symbol
  errorValue : Sem errorSymbol
  Panic : Type
  /-- The productions by number, from 1. -/
  productions : List (Production Sem Panic)
  /-- The part of a value that is read through addresses. -/
  Cell : Type
  zeroCell : Cell
  /-- What an action for the symbol writes to that part, if it does. -/
  assigned : (symbol : Symbol) → Sem symbol → Option Cell

instance (G : Grammar) : DecidableEq G.Symbol := G.decideSymbol

/-- `exprExca`, `exprAct`, `exprPact`, `exprPgo`, `exprR1`, `exprR2`, `exprChk` and
`exprDef`, with the constants `exprLast` and `exprFlag`. -/
structure Tables where
  exca : List Int
  act : List Int
  pact : List Int
  pgo : List Int
  r1 : List Int
  r2 : List Int
  chk : List Int
  defaults : List Int
  last : Int
  flag : Int

def errorCode : Int := 2

def endCode : Int := 1

def tableEntry (table : List Int) (index : Int) : Int :=
  table.getD index.toNat 0

def exceptionRows : List Int → Int → List Int
  | mark :: own :: rest, state =>
      if mark = -1 ∧ own = state then rest else exceptionRows rest state
  | _, _ => []

def exception : List Int → Int → Int
  | own :: code :: rest, token =>
      if own < 0 ∨ own = token then code else exception rest token
  | _, _ => 0

/-- What the parser asks of its lexer.  A call that never returns is `none`; a
call that returns the end is `some (none, _)`. -/
structure Lexer (G : Grammar) where
  State : Type
  lex : State → Option (Option G.Token × State)
  /-- `Error`, called with the message of a syntax error. -/
  report : State → State

/-! ### The stack -/

structure Memory (Cell : Type) where
  generation : Nat
  capacity : Nat
  cells : Nat → Nat → Cell

def Memory.fresh {Cell : Type} (zero : Cell) : Memory Cell :=
  ⟨0, 16, fun _ _ => zero⟩

def Memory.read {Cell : Type} (memory : Memory Cell) (slot : Slot) : Cell :=
  memory.cells slot.generation slot.index

def Memory.write {Cell : Type} (memory : Memory Cell) (index : Nat) (cell : Cell) :
    Memory Cell :=
  { memory with
    cells := fun generation i =>
      if generation = memory.generation ∧ i = index then cell
      else memory.cells generation i }

/-- Copy the stack to an array of twice the length when the index is beyond its
end. -/
def Memory.reserve {Cell : Type} (zero : Cell) (memory : Memory Cell) (index : Nat) :
    Memory Cell :=
  if index < memory.capacity then memory
  else
    { generation := memory.generation + 1
      capacity := memory.capacity * 2
      cells := fun generation i =>
        if generation = memory.generation + 1 then
          if i < memory.capacity then memory.cells memory.generation i else zero
        else memory.cells generation i }

section

variable {G : Grammar}

structure Entry (G : Grammar) where
  state : Int
  symbol : G.Symbol
  value : G.Sem symbol

/-- The state on top of the stack; the lowest slot holds the first state. -/
def stateOf (stack : List (Entry G)) : Int :=
  match stack with
  | [] => 0
  | top :: _ => top.state

/-- The values of the entries, when they are for the given symbols. -/
def matchArgs : (rhs : List G.Symbol) → List (Entry G) → Option (Args G.Sem rhs)
  | [], [] => some ()
  | symbol :: rhs, entry :: entries =>
      if same : entry.symbol = symbol then
        (matchArgs rhs entries).map fun args => (same ▸ entry.value, args)
      else none
  | _, _ => none

end

structure Config (G : Grammar) (State : Type) where
  stack : List (Entry G)
  memory : Memory G.Cell
  /-- The part of `exprVAL` that is read through addresses. -/
  carried : G.Cell
  /-- The token that was read and not used yet. -/
  lookahead : Option (Option G.Token)
  errflag : Nat
  nerrs : Nat
  lexer : State

inductive Outcome (G : Grammar) (State : Type) where
  | running (config : Config G State)
  | accepted (config : Config G State)
  | rejected (config : Config G State)
  | panicked (failure : G.Panic) (config : Config G State)

/-! ### One round of `Parse` -/

section

variable {G : Grammar} (tables : Tables) (lexer : Lexer G)

def tokenNumber (token : Option G.Token) : Int :=
  match token with
  | none => endCode
  | some token => G.number token

def Config.push {State : Type} (config : Config G State) (entry : Entry G)
    (cell : G.Cell) : Config G State :=
  let index := config.stack.length + 1
  { config with
    stack := entry :: config.stack
    memory := (config.memory.reserve G.zeroCell index).write index cell
    carried := cell }

def fetch (config : Config G lexer.State) :
    Option (Option G.Token × Config G lexer.State) :=
  match config.lookahead with
  | some token => some (token, config)
  | none =>
      match lexer.lex config.lexer with
      | none => none
      | some (token, state) =>
          some (token, { config with lookahead := some token, lexer := state })

def shift {State : Type} (config : Config G State) (token : Option G.Token)
    (target : Int) : Option (Outcome G State) :=
  match token with
  | none => none
  | some token =>
      some (.running
        { config.push ⟨target, G.kind token, G.value token⟩ G.zeroCell with
          lookahead := none
          errflag := config.errflag - 1 })

/-- The state after the error symbol, where that can be shifted. -/
def errorShift (state : Int) : Option Int :=
  let index := tableEntry tables.pact state + errorCode
  let target := tableEntry tables.act index
  if 0 ≤ index ∧ index < tables.last ∧ tableEntry tables.chk target = errorCode then
    some target
  else none

/-- Drop entries until the error symbol can be shifted. -/
def popToError : List (Entry G) → Option (Int × List (Entry G))
  | [] => (errorShift tables 0).map fun target => (target, [])
  | top :: below =>
      match errorShift tables top.state with
      | some target => some (target, top :: below)
      | none => popToError below

def resume {State : Type} (config : Config G State) : Outcome G State :=
  match popToError tables config.stack with
  | none => .rejected config
  | some (target, below) =>
      .running
        ({ config with stack := below, errflag := 3 }.push
          ⟨target, G.errorSymbol, G.errorValue⟩ config.carried)

/-- A syntax error: report it unless the last one is not overcome yet. -/
def recover (config : Config G lexer.State) : Outcome G lexer.State :=
  match config.errflag with
  | 0 =>
      resume tables
        { config with nerrs := config.nerrs + 1, lexer := lexer.report config.lexer }
  | 1 | 2 => resume tables config
  | _ =>
      match config.lookahead with
      | some none => .rejected config
      | _ => .running { config with lookahead := none }

def gotoState (state symbol : Int) : Int :=
  let base := tableEntry tables.pgo symbol
  let index := base + state + 1
  if tables.last ≤ index then tableEntry tables.act base
  else
    let target := tableEntry tables.act index
    if tableEntry tables.chk target = -symbol then target
    else tableEntry tables.act base

/-- Reduce by a production.  `none` when the stack does not hold its right-hand
side, which the tables of a grammar exclude. -/
def reduce {State : Type} (config : Config G State) (number : Int) :
    Option (Outcome G State) :=
  match G.productions[number.toNat - 1]? with
  | none => none
  | some production =>
      let count := (tableEntry tables.r2 number).toNat
      match matchArgs production.rhs (config.stack.take count).reverse with
      | none => none
      | some args =>
          let below := config.stack.drop count
          let memory := config.memory.reserve G.zeroCell (below.length + 1)
          let slots := fun i => Slot.mk memory.generation (below.length + i)
          let state := gotoState tables (stateOf below) (tableEntry tables.r1 number)
          let config := { config with stack := below, memory := memory }
          match production.action slots args with
          | .error failure => some (.panicked failure config)
          | .ok value =>
              let cell := (G.assigned production.lhs value).getD (memory.read (slots 1))
              some (.running (config.push ⟨state, production.lhs, value⟩ cell))

/-- What a state does by default, or by its exceptions. -/
def byDefault (config : Config G lexer.State) : Option (Outcome G lexer.State) :=
  let state := stateOf config.stack
  let code := tableEntry tables.defaults state
  if code = -2 then
    match fetch lexer config with
    | none => none
    | some (token, config) =>
        let code := exception (exceptionRows tables.exca state) (tokenNumber token)
        if code < 0 then some (.accepted config)
        else if code = 0 then some (recover tables lexer config)
        else reduce tables config code
  else if code = 0 then some (recover tables lexer config)
  else reduce tables config code

def step (config : Config G lexer.State) : Option (Outcome G lexer.State) :=
  let base := tableEntry tables.pact (stateOf config.stack)
  if base ≤ tables.flag then byDefault tables lexer config
  else
    match fetch lexer config with
    | none => none
    | some (token, config) =>
        let index := base + tokenNumber token
        if index < 0 ∨ tables.last ≤ index then byDefault tables lexer config
        else
          let target := tableEntry tables.act index
          if tableEntry tables.chk target = tokenNumber token then shift config token target
          else byDefault tables lexer config

/-- Run until the parser returns or panics; `none` when the rounds do not
suffice. -/
def run : Nat → Config G lexer.State → Option (Outcome G lexer.State)
  | 0, _ => none
  | rounds + 1, config =>
      match step tables lexer config with
      | none => none
      | some (.running next) => run rounds next
      | some outcome => some outcome

def Config.start {State : Type} (memory : Memory G.Cell) (lexer : State) :
    Config G State where
  stack := []
  memory := memory.write 0 G.zeroCell
  carried := G.zeroCell
  lookahead := none
  errflag := 0
  nerrs := 0
  lexer := lexer

end

end McoaGateway.Goyacc
