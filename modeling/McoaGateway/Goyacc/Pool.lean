/-
Parsers generated by goyacc that are used again.

The values of the stack are records with a field for every type (`%union`), in an
array that belongs to the parser and is not cleared.  A reduction starts from the
record that stands where the new value will be, and sets one field of it, or none.
What a parse leaves in the array and in the lexer's record is there in the next one.

`Machine` is the generated `Parse` over such records.  Two machines that start
with the same input go through the same rounds, whatever they have kept
(`run_paired`): what is read of a record is what was set in the same parse.
-/

import McoaGateway.Goyacc.References

namespace McoaGateway.Goyacc

/-! ### Records -/

structure Union (G : Grammar) where
  Record : Type
  zero : Record
  /-- What an action reads for a symbol; `none` if that was never set. -/
  get : (symbol : G.Symbol) → Record → Option (G.Sem symbol)
  set : (symbol : G.Symbol) → G.Sem symbol → Record → Record
  /-- The part that is read through addresses. -/
  cell : Record → G.Cell
  /-- The internal number of a token. -/
  code : G.Symbol → Int
  /-- Whether the action of a production, by its two sides, sets its value. -/
  assigns : G.Symbol → List G.Symbol → Bool

/-- What the parser asks of its lexer, which is the parser of the pool: the token
and the record after a call, what a reported error leaves, and what an action does to
it. -/
structure Source {G : Grammar} (union : Union G) where
  State : Type
  lex : union.Record → State → Option (Option G.Symbol × union.Record × State)
  /-- `Error`, with the message for a state and a token. -/
  error : Int → Int → State → State
  store : (symbol : G.Symbol) → G.Sem symbol → State → State

section

variable {G : Grammar} {union : Union G}

structure Machine (union : Union G) (State : Type) where
  /-- The states on the stack, with the symbols that they were entered by. -/
  stack : List (Int × G.Symbol)
  memory : Memory union.Record
  /-- `exprVAL` -/
  carried : union.Record
  /-- The record that the lexer sets. -/
  lval : union.Record
  lookahead : Option (Option G.Symbol)
  errflag : Nat
  nerrs : Nat
  source : State

inductive Halt (union : Union G) (State : Type) where
  | running (machine : Machine union State)
  | accepted (machine : Machine union State)
  | rejected (machine : Machine union State)
  | panicked (failure : G.Panic) (machine : Machine union State)

def Halt.machine {State : Type} : Halt union State → Machine union State
  | .running machine => machine
  | .accepted machine => machine
  | .rejected machine => machine
  | .panicked _ machine => machine

namespace Machine

variable {State : Type}

def state (stack : List (Int × G.Symbol)) : Int :=
  match stack with
  | [] => 0
  | (top, _) :: _ => top

def token (machine : Machine union State) : Int :=
  match machine.lookahead with
  | none => -1
  | some none => endCode
  | some (some symbol) => union.code symbol

def push (machine : Machine union State) (entry : Int × G.Symbol) (record : union.Record) :
    Machine union State :=
  let index := machine.stack.length + 1
  { machine with
    stack := entry :: machine.stack
    memory := (machine.memory.reserve union.zero index).write index record
    carried := record }

/-- The values of a right-hand side, which begins at an index. -/
def args (memory : Memory union.Record) :
    (rhs : List G.Symbol) → List (Int × G.Symbol) → Nat → Option (Args G.Sem rhs)
  | [], [], _ => some ()
  | symbol :: rhs, (_, own) :: entries, index =>
      if own = symbol then
        (union.get symbol (memory.cells memory.generation index)).bind fun value =>
          (args memory rhs entries (index + 1)).map fun others => (value, others)
      else none
  | _, _, _ => none

end Machine

end

/-! ### One round -/

section

variable {G : Grammar} {union : Union G} (tables : Tables) (source : Source union)

namespace Machine

def fetch (machine : Machine union source.State) : Option (Machine union source.State) :=
  match machine.lookahead with
  | some _ => some machine
  | none =>
      match source.lex machine.lval machine.source with
      | none => none
      | some (symbol, lval, state) =>
          some { machine with lookahead := some symbol, lval := lval, source := state }

def shift {State : Type} (machine : Machine union State) (target : Int) :
    Option (Halt union State) :=
  match machine.lookahead with
  | some (some symbol) =>
      some (.running
        { machine.push (target, symbol) machine.lval with
          lookahead := none
          errflag := machine.errflag - 1 })
  | _ => none

def popToError : List (Int × G.Symbol) → Option (Int × List (Int × G.Symbol))
  | [] => (errorShift tables 0).map fun target => (target, [])
  | top :: below =>
      match errorShift tables top.1 with
      | some target => some (target, top :: below)
      | none => popToError below

def resume {State : Type} (machine : Machine union State) : Halt union State :=
  match popToError tables machine.stack with
  | none => .rejected machine
  | some (target, below) =>
      .running
        ({ machine with stack := below, errflag := 3 }.push (target, G.errorSymbol)
          machine.carried)

def recover (machine : Machine union source.State) : Halt union source.State :=
  match machine.errflag with
  | 0 =>
      resume tables
        { machine with
          nerrs := machine.nerrs + 1
          source := source.error (state machine.stack) machine.token machine.source }
  | 1 | 2 => resume tables machine
  | _ =>
      match machine.lookahead with
      | some none => .rejected machine
      | _ => .running { machine with lookahead := none }

/-- Reduce by a production.  The new record is the one that stands in its place, with
the value set. -/
def reduce (machine : Machine union source.State) (number : Int) :
    Option (Halt union source.State) :=
  match G.productions[number.toNat - 1]? with
  | none => none
  | some production =>
      let count := (tableEntry tables.r2 number).toNat
      let below := machine.stack.drop count
      let memory := machine.memory.reserve union.zero (below.length + 1)
      match args memory production.rhs (machine.stack.take count).reverse (below.length + 1) with
      | none => none
      | some values =>
          let slots := fun i => Slot.mk memory.generation (below.length + i)
          let next := gotoState tables (state below) (tableEntry tables.r1 number)
          let machine := { machine with stack := below, memory := memory }
          match production.action slots values with
          | .error failure => some (.panicked failure machine)
          | .ok value =>
              let standing := memory.read (slots 1)
              let record :=
                if union.assigns production.lhs production.rhs then
                  union.set production.lhs value standing
                else standing
              some (.running
                ({ machine with source := source.store production.lhs value machine.source }.push
                  (next, production.lhs) record))

def byDefault (machine : Machine union source.State) : Option (Halt union source.State) :=
  let code := tableEntry tables.defaults (state machine.stack)
  if code = -2 then
    match fetch source machine with
    | none => none
    | some machine =>
        let code := exception (exceptionRows tables.exca (state machine.stack)) machine.token
        if code < 0 then some (.accepted machine)
        else if code = 0 then some (recover tables source machine)
        else reduce tables source machine code
  else if code = 0 then some (recover tables source machine)
  else reduce tables source machine code

def step (machine : Machine union source.State) : Option (Halt union source.State) :=
  let base := tableEntry tables.pact (state machine.stack)
  if base ≤ tables.flag then byDefault tables source machine
  else
    match fetch source machine with
    | none => none
    | some machine =>
        let index := base + machine.token
        if index < 0 ∨ tables.last ≤ index then byDefault tables source machine
        else
          let target := tableEntry tables.act index
          if tableEntry tables.chk target = machine.token then shift machine target
          else byDefault tables source machine

def run : Nat → Machine union source.State → Option (Halt union source.State)
  | 0, _ => none
  | rounds + 1, machine =>
      match step tables source machine with
      | none => none
      | some (.running next) => run rounds next
      | some halt => some halt

def start {State : Type} (memory : Memory union.Record) (lval : union.Record) (state : State) :
    Machine union State where
  stack := []
  memory := memory.write 0 union.zero
  carried := union.zero
  lval := lval
  lookahead := none
  errflag := 0
  nerrs := 0
  source := state

end Machine

end

theorem Machine.run_fetch {G : Grammar} {union : Union G} (tables : Tables) (source : Source union)
    (machine machine' : Machine union source.State) (sameStack : machine'.stack = machine.stack)
    (sameFetch : machine'.fetch source = machine.fetch source)
    (reads : ¬ tableEntry tables.pact (Machine.state machine.stack) ≤ tables.flag)
    (rounds : Nat) : machine'.run tables source rounds = machine.run tables source rounds := by
  have sameStep : machine'.step tables source = machine.step tables source := by
    unfold Machine.step
    rw [sameStack]
    dsimp only
    rw [if_neg reads, if_neg reads, sameFetch]
  cases rounds with
  | zero => rfl
  | succ rounds => rw [Machine.run, Machine.run, sameStep]

/-- The first error is reported; without a state that expects errors, it is the end. -/
theorem Machine.run_rejected {G : Grammar} {union : Union G} (tables : Tables)
    (source : Source union) {machine next : Machine union source.State}
    (fetched : machine.fetch source = some next) (sameStack : next.stack = machine.stack)
    (reads : ¬ tableEntry tables.pact (Machine.state machine.stack) ≤ tables.flag)
    (noShift : tableEntry tables.chk (tableEntry tables.act
      (tableEntry tables.pact (Machine.state machine.stack) + next.token)) ≠ next.token)
    (noDefault : tableEntry tables.defaults (Machine.state machine.stack) = 0)
    (unflagged : next.errflag = 0) (stuck : popToError tables machine.stack = none)
    (rounds : Nat) :
    machine.run tables source (rounds + 1) = some (.rejected
      { next with
        nerrs := next.nerrs + 1
        source := source.error (Machine.state machine.stack) next.token next.source }) := by
  have recovers : recover tables source next = .rejected
      { next with
        nerrs := next.nerrs + 1
        source := source.error (Machine.state machine.stack) next.token next.source } := by
    unfold recover
    rw [unflagged]
    unfold resume
    dsimp only
    rw [sameStack, stuck]
    rfl
  have defaults : byDefault tables source next = some (recover tables source next) := by
    unfold byDefault
    rw [sameStack, noDefault]
    rfl
  have steps : step tables source machine = byDefault tables source next := by
    unfold step
    dsimp only
    rw [if_neg reads, fetched]
    dsimp only
    rw [if_neg noShift, ite_self]
  rw [run, steps, defaults, recovers]

/-! ### Two machines -/

section

variable {G : Grammar}

def coreArgs (core : (symbol : G.Symbol) → G.Sem symbol → G.Sem symbol) :
    (symbols : List G.Symbol) → Args G.Sem symbols → Args G.Sem symbols
  | [], args => args
  | symbol :: symbols, (value, args) => (core symbol value, coreArgs core symbols args)

/-- The state in which a parser accepts is entered by the start symbol only. -/
structure Final (tables : Tables) (union : Union G) (start : G.Symbol) (final : Int) : Prop where
  nonzero : final ≠ 0
  shift : ∀ target symbol, tableEntry tables.chk target = union.code symbol → target ≠ final
  error : ∀ state target, errorShift tables state = some target → target ≠ final
  reduce : ∀ state (number : Int) production,
    G.productions[number.toNat - 1]? = some production →
    gotoState tables state (tableEntry tables.r1 number) = final → production.lhs = start
  accept : ∀ state token, exception (exceptionRows tables.exca state) token < 0 → state = final

/-- Why two machines stay together.  Of a value, the actions use its core only, and
records that agree for a symbol have the same core.  The addresses in values are those
of slots that are `safe`: there the machines have the same cell.  The lexers are related
by whether the start symbol was reduced and whether an error was reported. -/
structure Pairing (union : Union G) (source : Source union)
    (addresses : (symbol : G.Symbol) → G.Sem symbol → List Slot) where
  core : (symbol : G.Symbol) → G.Sem symbol → G.Sem symbol
  Agree : (Slot → Prop) → G.Symbol → union.Record → union.Record → Prop
  /-- Records in which only tokens were set. -/
  Clean : union.Record → Prop
  start : G.Symbol
  Related : (started failed : Prop) → (Slot → Prop) → source.State → source.State → Prop
  action : ∀ production ∈ G.productions, ∀ slots args, production.action slots args =
    production.action slots (coreArgs core production.rhs args)
  assigned : ∀ symbol value, G.assigned symbol (core symbol value) = G.assigned symbol value
  cell_get : ∀ symbol record value cell, union.get symbol record = some value →
    G.assigned symbol value = some cell → union.cell record = cell
  cell_set : ∀ symbol value record, union.cell (union.set symbol value record) =
    (G.assigned symbol value).getD (union.cell record)
  cell_clean : ∀ record, Clean record → union.cell record = G.zeroCell
  agree_mono : ∀ (safe safer : Slot → Prop), (∀ slot, safe slot → safer slot) →
    ∀ symbol record record', Agree safe symbol record record' → Agree safer symbol record record'
  agree_get : ∀ safe symbol record record', Agree safe symbol record record' →
    (union.get symbol record).map (core symbol) = (union.get symbol record').map (core symbol)
  agree_safe : ∀ safe symbol record record', Agree safe symbol record record' →
    ∀ value, union.get symbol record = some value → ∀ slot ∈ addresses symbol value, safe slot
  agree_set : ∀ safe, ∀ production ∈ G.productions, ∀ value record record',
    (∀ slot ∈ addresses production.lhs value, safe slot) →
    Agree safe production.lhs (union.set production.lhs value record)
      (union.set production.lhs value record')
  /-- A production that sets nothing. -/
  agree_standing : ∀ safe lhs rhs, union.assigns lhs rhs = false →
    ∃ symbol rest, rhs = symbol :: rest ∧
      ∀ record record', Agree safe symbol record record' → Agree safe lhs record record'
  agree_error : ∀ safe record record', Agree safe G.errorSymbol record record'
  related_mono : ∀ {started started' failed failed' : Prop} {safe safer : Slot → Prop},
    (started' → started) → (failed' → failed) → (∀ slot, safe slot → safer slot) →
    ∀ state state', Related started failed safe state state' →
      Related started' failed' safer state state'
  lex : ∀ started failed safe lval lval' state state', Clean lval → Clean lval' →
    Related started failed safe state state' →
    Option.Rel (fun (symbol, lval, state) (symbol', lval', state') =>
        symbol' = symbol ∧ Clean lval ∧ Clean lval' ∧ Related started failed safe state state' ∧
          ∀ token, symbol = some token → Agree safe token lval lval')
      (source.lex lval state) (source.lex lval' state')
  error : ∀ started failed safe top token state state', Related started failed safe state state' →
    Related started True safe (source.error top token state) (source.error top token state')
  store : ∀ started failed safe, ∀ production ∈ G.productions, ∀ value state state',
    Related started failed safe state state' →
    (∀ slot ∈ addresses production.lhs value, safe slot) →
    Related (started ∨ production.lhs = start) failed safe
      (source.store production.lhs value state) (source.store production.lhs value state')

variable {union : Union G} {source : Source union}
  {addresses : (symbol : G.Symbol) → G.Sem symbol → List Slot}

/-- A slot in which two memories have the same cell. -/
def SameCell (union : Union G) (memory memory' : Memory union.Record) (slot : Slot) : Prop :=
  slot.generation ≤ memory.generation ∧
    union.cell (memory.read slot) = union.cell (memory'.read slot)

/-- After a syntax error, no expression is returned. -/
def Machine.Safe {State : Type} (machine machine' : Machine union State) (slot : Slot) : Prop :=
  machine.nerrs = 0 → SameCell union machine.memory machine'.memory slot

structure SameShape {Cell : Type} (memory memory' : Memory Cell) : Prop where
  generation : memory'.generation = memory.generation
  capacity : memory'.capacity = memory.capacity

structure Paired (pairing : Pairing union source addresses) (final : Int)
    (machine machine' : Machine union source.State) : Prop where
  stack : machine'.stack = machine.stack
  shape : SameShape machine.memory machine'.memory
  room : machine.stack.length < machine.memory.capacity
  lookahead : machine'.lookahead = machine.lookahead
  errflag : machine'.errflag = machine.errflag
  nerrs : machine'.nerrs = machine.nerrs
  flagged : machine.nerrs = 0 → machine.errflag = 0
  values : ∀ i entry, machine.stack.reverse[i]? = some entry →
    pairing.Agree (machine.Safe machine') entry.2
      (machine.memory.cells machine.memory.generation (i + 1))
      (machine'.memory.cells machine'.memory.generation (i + 1))
  clean : pairing.Clean machine.lval ∧ pairing.Clean machine'.lval
  ahead : ∀ symbol, machine.lookahead = some (some symbol) →
    pairing.Agree (machine.Safe machine') symbol machine.lval machine'.lval
  source : pairing.Related (∃ entry ∈ machine.stack, entry.1 = final) (machine.nerrs ≠ 0)
    (machine.Safe machine') machine.source machine'.source

inductive HaltPaired (pairing : Pairing union source addresses) (final : Int) :
    Halt union source.State → Halt union source.State → Prop where
  | running {machine machine' : Machine union source.State}
      (paired : Paired pairing final machine machine') :
      HaltPaired pairing final (.running machine) (.running machine')
  | accepted {machine machine' : Machine union source.State}
      (paired : Paired pairing final machine machine')
      (started : ∃ entry ∈ machine.stack, entry.1 = final) :
      HaltPaired pairing final (.accepted machine) (.accepted machine')
  | rejected {machine machine' : Machine union source.State}
      (paired : Paired pairing final machine machine') (failed : machine.nerrs ≠ 0) :
      HaltPaired pairing final (.rejected machine) (.rejected machine')
  | panicked (failure : G.Panic) {machine machine' : Machine union source.State}
      (paired : Paired pairing final machine machine') :
      HaltPaired pairing final (.panicked failure machine) (.panicked failure machine')

theorem HaltPaired.machine {pairing : Pairing union source addresses} {final : Int}
    {halt halt' : Halt union source.State} (halts : HaltPaired pairing final halt halt') :
    Paired pairing final halt.machine halt'.machine := by
  cases halts <;> assumption

/-! ### Memories -/

section

variable {memory memory' : Memory union.Record}

theorem SameShape.reserve {Cell : Type} {memory memory' : Memory Cell}
    (shape : SameShape memory memory')
    (zero : Cell) (index : Nat) :
    SameShape (memory.reserve zero index) (memory'.reserve zero index) := by
  unfold Memory.reserve
  rw [shape.capacity]
  split
  · exact shape
  · exact ⟨congrArg (· + 1) shape.generation, rfl⟩

theorem SameCell.reserve (shape : SameShape memory memory') {slot : Slot}
    (same : SameCell union memory memory' slot) (index : Nat) :
    SameCell union (memory.reserve union.zero index) (memory'.reserve union.zero index) slot := by
  refine ⟨Nat.le_trans same.1 (generation_le_reserve memory union.zero index), ?_⟩
  rw [read_reserve memory union.zero index slot same.1,
    read_reserve memory' union.zero index slot (by rw [shape.generation]; exact same.1)]
  exact same.2

theorem read_write_self {Cell : Type} (memory : Memory Cell) (index : Nat) (cell : Cell) :
    (memory.write index cell).read ⟨memory.generation, index⟩ = cell := by
  unfold Memory.write Memory.read
  dsimp only
  rw [if_pos ⟨rfl, rfl⟩]

/-- Records with the same cell may be written, and records with the cells that stand
there already. -/
theorem SameCell.write (shape : SameShape memory memory') {slot : Slot}
    (same : SameCell union memory memory' slot) (index : Nat) (record record' : union.Record)
    (cells : union.cell record = union.cell record' ∨
      union.cell record = union.cell (memory.read ⟨memory.generation, index⟩) ∧
        union.cell record' = union.cell (memory'.read ⟨memory'.generation, index⟩)) :
    SameCell union (memory.write index record) (memory'.write index record') slot := by
  refine ⟨same.1, ?_⟩
  by_cases here : slot = ⟨memory.generation, index⟩
  · have there : slot = ⟨memory'.generation, index⟩ := by rw [shape.generation]; exact here
    have written := read_write_self memory index record
    have written' := read_write_self memory' index record'
    rw [← here] at written
    rw [← there] at written'
    rw [written, written']
    rcases cells with equal | ⟨own, own'⟩
    · exact equal
    · rw [own, own', ← here, ← there]
      exact same.2
  · rw [read_write_of_ne memory index record slot here,
      read_write_of_ne memory' index record' slot (by rw [shape.generation]; exact here)]
    exact same.2

theorem reserve_reserve {Cell : Type} (memory : Memory Cell) (zero : Cell) (height : Nat)
    (room : height < memory.capacity) :
    (memory.reserve zero (height + 1)).reserve zero (height + 1) =
      memory.reserve zero (height + 1) := by
  have fits := lt_capacity_reserve memory zero height room
  rw [Memory.reserve, if_pos fits]

theorem cells_write_self {Cell : Type} (memory : Memory Cell) (index : Nat) (cell : Cell) :
    (memory.write index cell).cells (memory.write index cell).generation index = cell :=
  read_write_self memory index cell

theorem cells_write_of_ne {Cell : Type} (memory : Memory Cell) (index i : Nat) (cell : Cell)
    (other : i ≠ index) :
    (memory.write index cell).cells memory.generation i = memory.cells memory.generation i := by
  unfold Memory.write
  dsimp only
  rw [if_neg fun both => other both.2]

end

/-! ### One round of two machines -/

section

variable {pairing : Pairing union source addresses} {final : Int}
  {machine machine' : Machine union source.State}

theorem getElem?_reverse_cons {α : Type} (entry : α) (stack : List α) (i : Nat) (own : α)
    (isOwn : (entry :: stack).reverse[i]? = some own) :
    i < stack.length ∧ stack.reverse[i]? = some own ∨ i = stack.length ∧ own = entry := by
  rw [List.reverse_cons] at isOwn
  rcases Nat.lt_trichotomy i stack.reverse.length with lower | same | higher
  · rw [List.getElem?_append_left lower] at isOwn
    rw [List.length_reverse] at lower
    exact Or.inl ⟨lower, isOwn⟩
  · subst same
    rw [List.getElem?_concat_length] at isOwn
    exact Or.inr ⟨List.length_reverse, (Option.some.inj isOwn).symm⟩
  · rw [List.getElem?_eq_none (by rw [List.length_append, List.length_singleton]; omega)] at isOwn
    cases isOwn

theorem Paired.push (paired : Paired pairing final machine machine') (entry : Int × G.Symbol)
    (record record' : union.Record)
    (agree : pairing.Agree (machine.Safe machine') entry.2 record record')
    (cells : machine.nerrs = 0 → union.cell record = union.cell record' ∨
      (let memory := machine.memory.reserve union.zero (machine.stack.length + 1)
       let memory' := machine'.memory.reserve union.zero (machine.stack.length + 1)
       union.cell record =
          union.cell (memory.read ⟨memory.generation, machine.stack.length + 1⟩) ∧
        union.cell record' =
          union.cell (memory'.read ⟨memory'.generation, machine.stack.length + 1⟩)))
    (related : pairing.Related (∃ own ∈ entry :: machine.stack, own.1 = final) (machine.nerrs ≠ 0)
      (machine.Safe machine') machine.source machine'.source) :
    Paired pairing final (machine.push entry record) (machine'.push entry record') := by
  obtain ⟨stack, shape, room, lookahead, errflag, nerrs, flagged, values, clean, ahead, -⟩ :=
    paired
  have safer : ∀ slot, machine.Safe machine' slot →
      (machine.push entry record).Safe (machine'.push entry record') slot := by
    intro slot safe noErrors
    have grown := (safe noErrors).reserve shape (machine.stack.length + 1)
    have wrote := grown.write (shape.reserve union.zero _) (machine.stack.length + 1) record record'
      (cells noErrors)
    unfold Machine.push
    rw [stack]
    exact wrote
  have reserved := shape.reserve union.zero (machine.stack.length + 1)
  unfold Machine.push at safer ⊢
  rw [stack] at safer ⊢
  refine ⟨rfl, ⟨reserved.generation, reserved.capacity⟩, ?_, lookahead, errflag, nerrs, flagged,
    ?_, clean, ?_, ?_⟩
  · exact lt_capacity_reserve machine.memory union.zero machine.stack.length room
  · intro i own isOwn
    dsimp only
    rcases getElem?_reverse_cons entry machine.stack i own isOwn with ⟨lower, isLower⟩ | ⟨rfl, rfl⟩
    · have old := cells_reserve machine.memory union.zero (machine.stack.length + 1) (i + 1)
        (by omega)
      have old' := cells_reserve machine'.memory union.zero (machine.stack.length + 1) (i + 1)
        (by rw [shape.capacity]; omega)
      have kept := cells_write_of_ne (machine.memory.reserve union.zero (machine.stack.length + 1))
        (machine.stack.length + 1) (i + 1) record (by omega)
      have kept' := cells_write_of_ne
        (machine'.memory.reserve union.zero (machine.stack.length + 1))
        (machine.stack.length + 1) (i + 1) record' (by omega)
      have both := pairing.agree_mono _ _ safer _ _ _ (values i own isLower)
      rw [← old, ← old', ← kept, ← kept'] at both
      exact both
    · have wrote := cells_write_self (machine.memory.reserve union.zero (machine.stack.length + 1))
        (machine.stack.length + 1) record
      have wrote' := cells_write_self
        (machine'.memory.reserve union.zero (machine.stack.length + 1))
        (machine.stack.length + 1) record'
      rw [wrote, wrote']
      exact pairing.agree_mono _ _ safer _ _ _ agree
  · intro symbol isAhead
    exact pairing.agree_mono _ _ safer _ _ _ (ahead symbol isAhead)
  · exact pairing.related_mono id id safer _ _ related

theorem Paired.related_push (paired : Paired pairing final machine machine')
    (entry : Int × G.Symbol) (other : entry.1 ≠ final) :
    pairing.Related (∃ own ∈ entry :: machine.stack, own.1 = final) (machine.nerrs ≠ 0)
      (machine.Safe machine') machine.source machine'.source := by
  refine pairing.related_mono ?_ id (fun _ safe => safe) _ _ paired.source
  rintro ⟨own, member, isFinal⟩
  rcases List.mem_cons.mp member with rfl | below
  · exact absurd isFinal other
  · exact ⟨own, below, isFinal⟩

theorem Paired.token (paired : Paired pairing final machine machine') :
    machine'.token = machine.token := by
  unfold Machine.token
  rw [paired.lookahead]

theorem Paired.fetch (paired : Paired pairing final machine machine') :
    Option.Rel (Paired pairing final) (machine.fetch source) (machine'.fetch source) := by
  unfold Machine.fetch
  rw [paired.lookahead]
  cases isAhead : machine.lookahead with
  | some token => exact .some paired
  | none =>
      have lexed := pairing.lex _ _ _ machine.lval machine'.lval machine.source machine'.source
        paired.clean.1 paired.clean.2 paired.source
      revert lexed
      generalize source.lex machine.lval machine.source = outcome
      generalize source.lex machine'.lval machine'.source = outcome'
      intro lexed
      cases lexed with
      | none => exact .none
      | @some first second both =>
          obtain ⟨symbol, lval, state⟩ := first
          obtain ⟨symbol', lval', state'⟩ := second
          obtain ⟨rfl, clean, clean', related, agree⟩ := both
          refine .some ⟨paired.stack, paired.shape, paired.room, rfl, paired.errflag, paired.nerrs,
            paired.flagged, paired.values, ⟨clean, clean'⟩, ?_, related⟩
          intro token isToken
          exact agree token (Option.some.inj isToken)

theorem Paired.shift (paired : Paired pairing final machine machine') (target : Int)
    (other : ∀ symbol, machine.lookahead = some (some symbol) → target ≠ final) :
    Option.Rel (HaltPaired pairing final) (machine.shift target) (machine'.shift target) := by
  unfold Machine.shift
  rw [paired.lookahead]
  split
  · rename_i symbol isAhead
    have pushed := paired.push (target, symbol) machine.lval machine'.lval
      (paired.ahead symbol isAhead) fun _ => Or.inl
        ((pairing.cell_clean _ paired.clean.1).trans (pairing.cell_clean _ paired.clean.2).symm)
    have pushed := pushed (paired.related_push (target, symbol) (other symbol isAhead))
    refine .some (.running ⟨pushed.stack, pushed.shape, pushed.room, rfl, ?_, pushed.nerrs, ?_,
      pushed.values, pushed.clean, nofun, pushed.source⟩)
    · rw [paired.errflag]
    · intro noErrors
      have unflagged := paired.flagged noErrors
      dsimp only
      rw [unflagged]
  · exact .none

theorem Paired.drop (paired : Paired pairing final machine machine') (below : List (Int × G.Symbol))
    (suffix : below <:+ machine.stack) (flag : Nat) (flagged : machine.nerrs = 0 → flag = 0) :
    Paired pairing final { machine with stack := below, errflag := flag }
      { machine' with stack := below, errflag := flag } := by
  refine ⟨rfl, paired.shape, Nat.lt_of_le_of_lt suffix.length_le paired.room, paired.lookahead,
    rfl, paired.nerrs, flagged, ?_, paired.clean, paired.ahead, ?_⟩
  · intro i entry isEntry
    obtain ⟨upper, isStack⟩ := List.reverse_prefix.mpr suffix
    obtain ⟨inside, -⟩ := List.getElem?_eq_some_iff.mp isEntry
    refine paired.values i entry ?_
    rw [← isStack, List.getElem?_append_left inside]
    exact isEntry
  · refine pairing.related_mono ?_ id (fun _ safe => safe) _ _ paired.source
    rintro ⟨entry, member, isFinal⟩
    exact ⟨entry, suffix.mem member, isFinal⟩

theorem Machine.popToError_spec {tables : Tables} {stack below : List (Int × G.Symbol)}
    {target : Int} (popped : Machine.popToError tables stack = some (target, below)) :
    below <:+ stack ∧ ∃ state, errorShift tables state = some target := by
  induction stack with
  | nil =>
      obtain ⟨own, shifts, isOwn⟩ := Option.map_eq_some_iff.mp popped
      cases isOwn
      exact ⟨List.suffix_rfl, 0, shifts⟩
  | cons top rest ih =>
      rw [Machine.popToError] at popped
      split at popped
      · rename_i shifts
        cases popped
        exact ⟨List.suffix_rfl, top.1, shifts⟩
      · obtain ⟨isSuffix, shifts⟩ := ih popped
        exact ⟨isSuffix.trans (List.suffix_cons top rest), shifts⟩

theorem Machine.top_mem {stack : List (Int × G.Symbol)} (atFinal : Machine.state stack = final)
    (nonzero : final ≠ 0) : ∃ entry ∈ stack, entry.1 = final := by
  cases stack with
  | nil => exact absurd atFinal.symm nonzero
  | cons entry below => exact ⟨entry, List.mem_cons_self, atFinal⟩

section

variable {tables : Tables} (isFinal : Final tables union pairing.start final)

include isFinal

theorem Paired.resume (paired : Paired pairing final machine machine')
    (failed : machine.nerrs ≠ 0) :
    HaltPaired pairing final (machine.resume tables) (machine'.resume tables) := by
  unfold Machine.resume
  rw [paired.stack]
  cases popped : Machine.popToError tables machine.stack with
  | none => exact .rejected paired failed
  | some found =>
      obtain ⟨target, below⟩ := found
      obtain ⟨isSuffix, state, shifts⟩ := Machine.popToError_spec popped
      have dropped := paired.drop below isSuffix 3 fun noErrors => absurd noErrors failed
      exact .running (dropped.push (target, G.errorSymbol) machine.carried machine'.carried
        (pairing.agree_error _ _ _) (fun noErrors => absurd noErrors failed)
        (dropped.related_push _ (isFinal.error state target shifts)))

theorem Paired.recover (paired : Paired pairing final machine machine') :
    HaltPaired pairing final (machine.recover tables source) (machine'.recover tables source) := by
  unfold Machine.recover
  rw [paired.errflag, paired.stack, paired.token]
  have failed : machine.errflag ≠ 0 → machine.nerrs ≠ 0 :=
    fun flagged noErrors => flagged (paired.flagged noErrors)
  split
  · rename_i unflagged
    refine Paired.resume isFinal ?_ (Nat.succ_ne_zero _)
    refine ⟨rfl, paired.shape, paired.room, paired.lookahead, rfl,
      congrArg (· + 1) paired.nerrs, nofun, ?_, paired.clean, ?_, ?_⟩
    · intro i entry isEntry
      exact pairing.agree_mono _ _ (fun _ _ => nofun) _ _ _ (paired.values i entry isEntry)
    · intro symbol isAhead
      exact pairing.agree_mono _ _ (fun _ _ => nofun) _ _ _ (paired.ahead symbol isAhead)
    · exact pairing.related_mono id (fun _ => trivial) (fun _ _ => nofun) _ _
        (pairing.error _ _ _ _ _ _ _ paired.source)
  · rename_i flagged
    exact paired.resume isFinal (failed (by rw [flagged]; decide))
  · rename_i flagged
    exact paired.resume isFinal (failed (by rw [flagged]; decide))
  · rename_i unflagged _ _
    rw [paired.lookahead]
    split
    · exact .rejected paired (failed unflagged)
    · exact .running ⟨rfl, paired.shape, paired.room, rfl, rfl, paired.nerrs, paired.flagged,
        paired.values, paired.clean, nofun, paired.source⟩

end

/-! ### Reductions -/

section

variable {memory memory' : Memory union.Record}

/-- The values that two machines read for a right-hand side have the same cores. -/
theorem args_paired (safe : Slot → Prop) (rhs : List G.Symbol)
    (entries : List (Int × G.Symbol)) (index : Nat)
    (agree : ∀ j entry, entries[j]? = some entry → pairing.Agree safe entry.2
      (memory.cells memory.generation (index + j))
      (memory'.cells memory'.generation (index + j))) :
    (Machine.args memory rhs entries index).map (coreArgs pairing.core rhs) =
        (Machine.args memory' rhs entries index).map (coreArgs pairing.core rhs) ∧
      ∀ values, Machine.args memory rhs entries index = some values →
        ∀ slot ∈ argAddresses addresses rhs values, safe slot := by
  induction rhs generalizing entries index with
  | nil =>
      cases entries with
      | nil => exact ⟨rfl, fun values _ slot member => (List.not_mem_nil member).elim⟩
      | cons entry entries => exact ⟨rfl, nofun⟩
  | cons symbol rhs ih =>
      cases entries with
      | nil => exact ⟨rfl, nofun⟩
      | cons entry entries =>
          obtain ⟨state, own⟩ := entry
          by_cases same : own = symbol
          · subst same
            have first := agree 0 (state, own) rfl
            rw [Nat.add_zero] at first
            have others := ih entries (index + 1) fun j entry isEntry => by
              have later := agree (j + 1) entry isEntry
              rwa [show index + (j + 1) = index + 1 + j by omega] at later
            have cores := pairing.agree_get safe own _ _ first
            have firstSafe := pairing.agree_safe safe own _ _ first
            unfold Machine.args
            rw [if_pos rfl, if_pos rfl]
            revert cores firstSafe
            generalize union.get own (memory.cells memory.generation index) = value
            generalize union.get own (memory'.cells memory'.generation index) = value'
            intro cores firstSafe
            cases value with
            | none =>
                cases value' with
                | none => exact ⟨rfl, nofun⟩
                | some value' => cases cores
            | some value =>
                cases value' with
                | none => cases cores
                | some value' =>
                    have sameCore : pairing.core own value = pairing.core own value' :=
                      Option.some.inj cores
                    revert others
                    generalize Machine.args memory rhs entries (index + 1) = rest
                    generalize Machine.args memory' rhs entries (index + 1) = rest'
                    intro others
                    obtain ⟨sameRest, restSafe⟩ := others
                    cases rest with
                    | none =>
                        cases rest' with
                        | none => exact ⟨rfl, nofun⟩
                        | some rest' => cases sameRest
                    | some rest =>
                        cases rest' with
                        | none => cases sameRest
                        | some rest' =>
                            have restCores := Option.some.inj sameRest
                            refine ⟨?_, ?_⟩
                            · exact congrArg some (Prod.ext sameCore restCores)
                            · intro values isValues slot member
                              cases isValues
                              rcases List.mem_append.mp member with here | there
                              · exact firstSafe value rfl slot here
                              · exact restSafe rest rfl slot there
          · unfold Machine.args
            rw [if_neg same, if_neg same]
            exact ⟨rfl, nofun⟩

theorem args_cell (pairing : Pairing union source addresses) (rhs : List G.Symbol)
    (entries : List (Int × G.Symbol)) (index : Nat) (values : Args G.Sem rhs)
    (read : Machine.args memory rhs entries index = some values) (j : Nat) (cell : G.Cell)
    (isCell : (argCells G rhs values)[j]? = some (some cell)) :
    union.cell (memory.cells memory.generation (index + j)) = cell := by
  induction rhs generalizing entries index j with
  | nil => cases isCell
  | cons symbol rhs ih =>
      cases entries with
      | nil => cases read
      | cons entry entries =>
          obtain ⟨state, own⟩ := entry
          unfold Machine.args at read
          split at read
          · rename_i same
            obtain ⟨value, isValue, read⟩ := Option.bind_eq_some_iff.mp read
            obtain ⟨rest, isRest, rfl⟩ := Option.map_eq_some_iff.mp read
            cases j with
            | zero => exact pairing.cell_get symbol _ value cell isValue (Option.some.inj isCell)
            | succ j =>
                have later := ih entries (index + 1) rest isRest j isCell
                rwa [show index + 1 + j = index + (j + 1) by omega] at later
          · cases read

theorem argCells_core (pairing : Pairing union source addresses) (rhs : List G.Symbol)
    (values : Args G.Sem rhs) :
    argCells G rhs (coreArgs pairing.core rhs values) = argCells G rhs values := by
  induction rhs with
  | nil => rfl
  | cons symbol rhs ih =>
      obtain ⟨value, values⟩ := values
      rw [coreArgs, argCells, argCells, pairing.assigned, ih]

end

section

variable {taken : List G.Symbol → List Nat}

theorem safe_of_action (tracks : Tracks G taken addresses) (memory memory' : Memory union.Record)
    (shape : SameShape memory memory') (safe : Slot → Prop)
    (production : Production G.Sem G.Panic) (member : production ∈ G.productions)
    (entries : List (Int × G.Symbol)) (base : Nat) (values values' : Args G.Sem production.rhs)
    (read : Machine.args memory production.rhs entries (base + 1) = some values)
    (read' : Machine.args memory' production.rhs entries (base + 1) = some values')
    (cores : coreArgs pairing.core production.rhs values =
      coreArgs pairing.core production.rhs values')
    (parts : ∀ slot ∈ argAddresses addresses production.rhs values, safe slot)
    (same : ∀ slot, SameCell union memory memory' slot → safe slot)
    (value : G.Sem production.lhs)
    (acted : production.action (fun i => ⟨memory.generation, base + i⟩) values = .ok value) :
    ∀ slot ∈ addresses production.lhs value, safe slot := by
  intro slot inValue
  rw [tracks.production production member _ values value acted] at inValue
  rcases List.mem_append.mp inValue with inParts | isTaken
  · exact parts slot inParts
  · obtain ⟨reference, isReference, rfl⟩ := List.mem_map.mp isTaken
    obtain ⟨place, isPlace, found⟩ := List.mem_filterMap.mp isReference
    obtain ⟨cell, isCell, rfl⟩ := Option.map_eq_some_iff.mp found
    have positive := tracks.positive production.rhs place isPlace
    have atPlace : (argCells G production.rhs values)[place - 1]? = some (some cell) :=
      Option.join_eq_some_iff.mp isCell
    have atPlace' : (argCells G production.rhs values')[place - 1]? = some (some cell) := by
      rw [← argCells_core pairing, ← cores, argCells_core pairing]
      exact atPlace
    have here := args_cell pairing production.rhs entries (base + 1) values read (place - 1) cell
      atPlace
    have there := args_cell pairing production.rhs entries (base + 1) values' read' (place - 1) cell
      atPlace'
    rw [show base + 1 + (place - 1) = base + place by omega] at here there
    refine same _ ⟨Nat.le_refl _, ?_⟩
    unfold Memory.read
    dsimp only
    rw [here]
    rw [shape.generation] at there
    exact there.symm

theorem Paired.reserve (paired : Paired pairing final machine machine') (index : Nat) :
    Paired pairing final { machine with memory := machine.memory.reserve union.zero index }
      { machine' with memory := machine'.memory.reserve union.zero index } := by
  have safer : ∀ slot, machine.Safe machine' slot →
      Machine.Safe { machine with memory := machine.memory.reserve union.zero index }
        { machine' with memory := machine'.memory.reserve union.zero index } slot :=
    fun slot safe noErrors => (safe noErrors).reserve paired.shape index
  refine ⟨paired.stack, paired.shape.reserve union.zero index, ?_, paired.lookahead, paired.errflag,
    paired.nerrs, paired.flagged, ?_, paired.clean, ?_, ?_⟩
  · exact Nat.lt_of_lt_of_le paired.room (capacity_le_reserve machine.memory union.zero index)
  · intro i entry isEntry
    obtain ⟨inside, -⟩ := List.getElem?_eq_some_iff.mp isEntry
    have room := paired.room
    rw [List.length_reverse] at inside
    dsimp only at inside ⊢
    rw [cells_reserve machine.memory union.zero index (i + 1) (by omega),
      cells_reserve machine'.memory union.zero index (i + 1)
        (by rw [paired.shape.capacity]; omega)]
    exact pairing.agree_mono _ _ safer _ _ _ (paired.values i entry isEntry)
  · intro symbol isAhead
    exact pairing.agree_mono _ _ safer _ _ _ (paired.ahead symbol isAhead)
  · exact pairing.related_mono id id safer _ _ paired.source

theorem Paired.popped (paired : Paired pairing final machine machine') (count j : Nat)
    (entry : Int × G.Symbol) (isEntry : (machine.stack.take count).reverse[j]? = some entry) :
    pairing.Agree (machine.Safe machine') entry.2
      (machine.memory.cells machine.memory.generation ((machine.stack.drop count).length + 1 + j))
      (machine'.memory.cells machine'.memory.generation
        ((machine.stack.drop count).length + 1 + j)) := by
  have whole : machine.stack.reverse =
      (machine.stack.drop count).reverse ++ (machine.stack.take count).reverse := by
    rw [← List.reverse_append, List.take_append_drop]
  have above := paired.values ((machine.stack.drop count).length + j) entry (by
    rw [whole, List.getElem?_append_right (by rw [List.length_reverse]; omega),
      List.length_reverse, Nat.add_sub_cancel_left]
    exact isEntry)
  rwa [show (machine.stack.drop count).length + j + 1 =
    (machine.stack.drop count).length + 1 + j by omega] at above

theorem args_first {memory : Memory union.Record} {rhs : List G.Symbol}
    {entries : List (Int × G.Symbol)} {index : Nat} {values : Args G.Sem rhs}
    (read : Machine.args memory rhs entries index = some values) {symbol : G.Symbol}
    {rest : List G.Symbol} (isRhs : rhs = symbol :: rest) :
    ∃ state, entries[0]? = some (state, symbol) := by
  subst isRhs
  cases entries with
  | nil => cases read
  | cons entry entries =>
      obtain ⟨state, own⟩ := entry
      unfold Machine.args at read
      split at read
      · rename_i same
        exact ⟨state, by rw [← same]; rfl⟩
      · cases read

theorem Paired.replace (paired : Paired pairing final machine machine')
    (production : Production G.Sem G.Panic) (member : production ∈ G.productions)
    (value : G.Sem production.lhs)
    (safe : ∀ slot ∈ addresses production.lhs value, machine.Safe machine' slot)
    (next : Int) (starts : next = final → production.lhs = pairing.start) (assigns : Bool)
    (fits : machine.memory.reserve union.zero (machine.stack.length + 1) = machine.memory)
    (fits' : machine'.memory.reserve union.zero (machine.stack.length + 1) = machine'.memory)
    (standing standing' : union.Record)
    (isStanding : machine.memory.read ⟨machine.memory.generation, machine.stack.length + 1⟩ =
      standing)
    (isStanding' : machine'.memory.read ⟨machine'.memory.generation, machine.stack.length + 1⟩ =
      standing')
    (agree : assigns = false → pairing.Agree (machine.Safe machine') production.lhs standing
      standing') :
    Paired pairing final
      ({ machine with source := source.store production.lhs value machine.source }.push
        (next, production.lhs)
        (if assigns then union.set production.lhs value standing else standing))
      ({ machine' with source := source.store production.lhs value machine'.source }.push
        (next, production.lhs)
        (if assigns then union.set production.lhs value standing' else standing')) := by
  have related := pairing.store _ _ _ production member value _ _ paired.source safe
  have stored : Paired pairing final
      { machine with source := source.store production.lhs value machine.source }
      { machine' with source := source.store production.lhs value machine'.source } :=
    ⟨paired.stack, paired.shape, paired.room, paired.lookahead, paired.errflag, paired.nerrs,
      paired.flagged, paired.values, paired.clean, paired.ahead,
      pairing.related_mono Or.inl id (fun _ safe => safe) _ _ related⟩
  refine stored.push (next, production.lhs) _ _ ?_ ?_ ?_
  · cases assigns with
    | true => exact pairing.agree_set _ production member value standing standing' safe
    | false => exact agree rfl
  · intro noErrors
    dsimp only
    rw [fits, fits', isStanding, isStanding']
    cases assigns with
    | false => exact Or.inr ⟨rfl, rfl⟩
    | true =>
        rw [if_pos rfl, if_pos rfl, pairing.cell_set, pairing.cell_set]
        cases G.assigned production.lhs value with
        | some cell => exact Or.inl rfl
        | none => exact Or.inr ⟨rfl, rfl⟩
  · refine pairing.related_mono ?_ id (fun _ safe => safe) _ _ related
    rintro ⟨own, isOwn, isFinal⟩
    rcases List.mem_cons.mp isOwn with rfl | below
    · exact Or.inr (starts isFinal)
    · exact Or.inl ⟨own, below, isFinal⟩

section

variable {tables : Tables} (tracks : Tracks G taken addresses)
  (isFinal : Final tables union pairing.start final)

include tracks isFinal

theorem Paired.reduce (paired : Paired pairing final machine machine') (number : Int) :
    Option.Rel (HaltPaired pairing final) (machine.reduce tables source number)
      (machine'.reduce tables source number) := by
  unfold Machine.reduce
  cases found : G.productions[number.toNat - 1]? with
  | none => exact .none
  | some production =>
      have member := List.mem_of_getElem? found
      dsimp only
      rw [paired.stack, paired.errflag]
      generalize (tableEntry tables.r2 number).toNat = count
      have isSuffix := List.drop_suffix count machine.stack
      have room := Nat.lt_of_le_of_lt isSuffix.length_le paired.room
      have grown := paired.reserve ((machine.stack.drop count).length + 1)
      have dropped := grown.drop (machine.stack.drop count) isSuffix machine.errflag paired.flagged
      have popped := grown.popped count
      have fits := reserve_reserve machine.memory union.zero (machine.stack.drop count).length room
      have fits' := reserve_reserve machine'.memory union.zero (machine.stack.drop count).length
        (by rw [paired.shape.capacity]; exact room)
      have shape := grown.shape
      dsimp only at popped dropped shape
      revert dropped popped fits fits' shape
      generalize (machine.stack.drop count) = below
      generalize (machine.stack.take count).reverse = entries
      generalize machine.memory.reserve union.zero (below.length + 1) = memory
      generalize machine'.memory.reserve union.zero (below.length + 1) = memory'
      intro dropped popped fits fits' shape
      obtain ⟨cores, safe⟩ := args_paired _ production.rhs entries
        (below.length + 1) popped
      cases read : Machine.args memory production.rhs entries (below.length + 1) with
      | none =>
          rw [read] at cores
          rw [Option.map_eq_none_iff.mp cores.symm]
          exact .none
      | some values =>
          rw [read] at cores
          obtain ⟨values', read', sameCores⟩ := Option.map_eq_some_iff.mp cores.symm
          rw [read']
          dsimp only
          have sameAction : ∀ slots, production.action slots values' =
              production.action slots values := by
            intro slots
            rw [pairing.action production member slots values, ← sameCores,
              ← pairing.action production member slots values']
          rw [sameAction, shape.generation]
          cases acted : production.action
              (fun i => Slot.mk memory.generation (below.length + i)) values with
          | error failure => exact .some (.panicked failure dropped)
          | ok value =>
              refine .some (.running (dropped.replace production member value ?_ _
                (isFinal.reduce _ number production found) _ fits fits' _ _ rfl
                (by rw [shape.generation]) ?_))
              · exact safe_of_action tracks memory memory' shape _ production member entries
                  below.length values values' read read' sameCores.symm (safe values read)
                  (fun slot same _ => same) value acted
              · intro sets
                obtain ⟨symbol, rest, isRhs, standing⟩ := pairing.agree_standing _ _ _ sets
                obtain ⟨state, isFirst⟩ := args_first read isRhs
                have lowest := popped 0 _ isFirst
                rw [shape.generation] at lowest
                exact standing _ _ lowest

theorem Paired.byDefault (paired : Paired pairing final machine machine') :
    Option.Rel (HaltPaired pairing final) (machine.byDefault tables source)
      (machine'.byDefault tables source) := by
  unfold Machine.byDefault
  rw [paired.stack]
  dsimp only
  by_cases looks : tableEntry tables.defaults (Machine.state machine.stack) = -2
  · rw [if_pos looks, if_pos looks]
    have fetched := paired.fetch
    revert fetched
    generalize machine.fetch source = outcome
    generalize machine'.fetch source = outcome'
    intro fetched
    cases fetched with
    | none => exact .none
    | @some next next' paired =>
        dsimp only
        rw [paired.stack, paired.token]
        by_cases accepts :
            exception (exceptionRows tables.exca (Machine.state next.stack)) next.token < 0
        · rw [if_pos accepts, if_pos accepts]
          have atFinal := isFinal.accept _ _ accepts
          exact .some (.accepted paired (Machine.top_mem atFinal isFinal.nonzero))
        · rw [if_neg accepts, if_neg accepts]
          by_cases fails :
              exception (exceptionRows tables.exca (Machine.state next.stack)) next.token = 0
          · rw [if_pos fails, if_pos fails]
            exact .some (paired.recover isFinal)
          · rw [if_neg fails, if_neg fails]
            exact paired.reduce tracks isFinal _
  · rw [if_neg looks, if_neg looks]
    by_cases fails : tableEntry tables.defaults (Machine.state machine.stack) = 0
    · rw [if_pos fails, if_pos fails]
      exact .some (paired.recover isFinal)
    · rw [if_neg fails, if_neg fails]
      exact paired.reduce tracks isFinal _

theorem Paired.step (paired : Paired pairing final machine machine') :
    Option.Rel (HaltPaired pairing final) (machine.step tables source)
      (machine'.step tables source) := by
  unfold Machine.step
  rw [paired.stack]
  dsimp only
  generalize tableEntry tables.pact (Machine.state machine.stack) = base
  by_cases simple : base ≤ tables.flag
  · rw [if_pos simple, if_pos simple]
    exact paired.byDefault tracks isFinal
  · rw [if_neg simple, if_neg simple]
    have fetched := paired.fetch
    revert fetched
    generalize machine.fetch source = outcome
    generalize machine'.fetch source = outcome'
    intro fetched
    cases fetched with
    | none => exact .none
    | @some next next' paired =>
        dsimp only
        rw [paired.token]
        by_cases outside : base + next.token < 0 ∨ tables.last ≤ base + next.token
        · rw [if_pos outside, if_pos outside]
          exact paired.byDefault tracks isFinal
        · rw [if_neg outside, if_neg outside]
          by_cases shifts :
              tableEntry tables.chk (tableEntry tables.act (base + next.token)) = next.token
          · rw [if_pos shifts, if_pos shifts]
            refine paired.shift _ fun symbol isAhead => isFinal.shift _ symbol ?_
            rw [shifts, Machine.token, isAhead]
          · rw [if_neg shifts, if_neg shifts]
            exact paired.byDefault tracks isFinal

theorem run_paired (rounds : Nat) (paired : Paired pairing final machine machine') :
    Option.Rel (HaltPaired pairing final) (machine.run tables source rounds)
      (machine'.run tables source rounds) := by
  induction rounds generalizing machine machine' with
  | zero => exact .none
  | succ rounds ih =>
      have stepped := paired.step tracks isFinal
      unfold Machine.run
      revert stepped
      generalize machine.step tables source = outcome
      generalize machine'.step tables source = outcome'
      intro stepped
      cases stepped with
      | none => exact .none
      | some halts =>
          cases halts with
          | running paired => exact ih paired
          | accepted paired started => exact .some (.accepted paired started)
          | rejected paired failed => exact .some (.rejected paired failed)
          | panicked failure paired => exact .some (.panicked failure paired)

end

end

end

end

end McoaGateway.Goyacc
