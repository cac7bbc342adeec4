/-
Addresses of values on the parser stack.

`DerivesUsing` is a derivation together with the addresses that its actions have
taken and the values that were meant.  A slot of the stack is used again and again,
so an address can come to refer to another value.  In a run in which no slot is
written whose address is on the stack, all addresses refer to what was meant
(`accepted_references`).
-/

import McoaGateway.Goyacc.Derivation

namespace McoaGateway.Goyacc

variable {G : Grammar}

/-! ### Derivations with addresses -/

/-- An address, and the cell that it was taken of. -/
structure Reference (Cell : Type) where
  slot : Slot
  cell : Cell

def argCells (G : Grammar) :
    (symbols : List G.Symbol) → Args G.Sem symbols → List (Option G.Cell)
  | [], _ => []
  | symbol :: symbols, (value, args) => G.assigned symbol value :: argCells G symbols args

/-- `taken` gives the places of a right-hand side, from 1, whose address is taken. -/
def references (taken : List G.Symbol → List Nat) (rhs : List G.Symbol) (slots : Nat → Slot)
    (args : Args G.Sem rhs) : List (Reference G.Cell) :=
  (taken rhs).filterMap fun place =>
    (argCells G rhs args)[place - 1]?.join.map fun cell => ⟨slots place, cell⟩

mutual

inductive DerivesUsing (G : Grammar) (taken : List G.Symbol → List Nat) :
    (symbol : G.Symbol) → List G.Token → G.Sem symbol → List (Reference G.Cell) → Prop where
  | token (token : G.Token) : DerivesUsing G taken (G.kind token) [token] (G.value token) []
  | production (production : Production G.Sem G.Panic)
      (member : production ∈ G.productions) (slots : Nat → Slot)
      (tokens : List G.Token) (args : Args G.Sem production.rhs)
      (value : G.Sem production.lhs) (used : List (Reference G.Cell))
      (parts : DerivesAllUsing G taken production.rhs tokens args used)
      (acted : production.action slots args = .ok value) :
      DerivesUsing G taken production.lhs tokens value
        (used ++ references taken production.rhs slots args)

inductive DerivesAllUsing (G : Grammar) (taken : List G.Symbol → List Nat) :
    (symbols : List G.Symbol) → List G.Token → Args G.Sem symbols →
    List (Reference G.Cell) → Prop where
  | nil : DerivesAllUsing G taken [] [] () []
  | cons (symbol : G.Symbol) (symbols : List G.Symbol) (tokens others : List G.Token)
      (value : G.Sem symbol) (args : Args G.Sem symbols) (used more : List (Reference G.Cell))
      (first : DerivesUsing G taken symbol tokens value used)
      (rest : DerivesAllUsing G taken symbols others args more) :
      DerivesAllUsing G taken (symbol :: symbols) (tokens ++ others) (value, args) (used ++ more)

end

/-- The entries, lowest first, stand for the tokens. -/
inductive EntriesUsing (G : Grammar) (taken : List G.Symbol → List Nat) :
    List (Entry G) → List G.Token → List (Reference G.Cell) → Prop where
  | nil : EntriesUsing G taken [] [] []
  | cons (entry : Entry G) (entries : List (Entry G)) (tokens others : List G.Token)
      (used more : List (Reference G.Cell))
      (first : DerivesUsing G taken entry.symbol tokens entry.value used)
      (rest : EntriesUsing G taken entries others more) :
      EntriesUsing G taken (entry :: entries) (tokens ++ others) (used ++ more)

section

variable {taken : List G.Symbol → List Nat}

theorem EntriesUsing.append {low high : List (Entry G)} {tokens others : List G.Token}
    {used more : List (Reference G.Cell)} (first : EntriesUsing G taken low tokens used)
    (second : EntriesUsing G taken high others more) :
    EntriesUsing G taken (low ++ high) (tokens ++ others) (used ++ more) := by
  induction first with
  | nil => exact second
  | cons entry entries own _ ownUsed _ derived _ ih =>
      rw [List.append_assoc, List.append_assoc]
      exact .cons entry _ own _ ownUsed _ derived ih

theorem EntriesUsing.concat {low : List (Entry G)} {entry : Entry G}
    {tokens others : List G.Token} {used more : List (Reference G.Cell)}
    (first : EntriesUsing G taken low tokens used)
    (last : DerivesUsing G taken entry.symbol others entry.value more) :
    EntriesUsing G taken (low ++ [entry]) (tokens ++ others) (used ++ more) := by
  rw [← List.append_nil others, ← List.append_nil more]
  exact first.append (.cons entry [] others [] more [] last .nil)

theorem EntriesUsing.of_append {low high : List (Entry G)} {tokens : List G.Token}
    {used : List (Reference G.Cell)} (derived : EntriesUsing G taken (low ++ high) tokens used) :
    ∃ first second front back, tokens = first ++ second ∧ used = front ++ back ∧
      EntriesUsing G taken low first front ∧ EntriesUsing G taken high second back := by
  induction low generalizing tokens used with
  | nil => exact ⟨[], tokens, [], used, rfl, rfl, .nil, derived⟩
  | cons entry low ih =>
      cases derived with
      | cons _ _ own others ownUsed more first rest =>
          obtain ⟨left, right, front, back, rfl, rfl, lowDerived, highDerived⟩ := ih rest
          refine ⟨own ++ left, right, ownUsed ++ front, back, by rw [List.append_assoc],
            by rw [List.append_assoc], ?_, highDerived⟩
          exact .cons entry low own left ownUsed front first lowDerived

theorem EntriesUsing.matchArgs {entries : List (Entry G)} {tokens : List G.Token}
    {used : List (Reference G.Cell)} (derived : EntriesUsing G taken entries tokens used)
    (rhs : List G.Symbol) (args : Args G.Sem rhs)
    (matched : Goyacc.matchArgs rhs entries = some args) :
    DerivesAllUsing G taken rhs tokens args used := by
  induction derived generalizing rhs with
  | nil =>
      cases rhs with
      | nil =>
          cases matched
          exact .nil
      | cons symbol rhs => cases matched
  | cons entry entries own others ownUsed more first _ ih =>
      cases rhs with
      | nil => cases matched
      | cons symbol rhs =>
          rw [Goyacc.matchArgs] at matched
          split at matched
          · rename_i same
            obtain ⟨rest, isRest, rfl⟩ := Option.map_eq_some_iff.mp matched
            subst same
            exact .cons _ rhs own others _ rest ownUsed more first (ih rhs rest isRest)
          · cases matched

end

/-- The part of an entry that is read through addresses, if its action wrote one. -/
def Entry.cell (entry : Entry G) : Option G.Cell :=
  G.assigned entry.symbol entry.value

theorem argCells_of_matchArgs (rhs : List G.Symbol) (entries : List (Entry G))
    (args : Args G.Sem rhs) (matched : matchArgs rhs entries = some args) :
    argCells G rhs args = entries.map Entry.cell := by
  induction rhs generalizing entries with
  | nil =>
      cases entries with
      | nil => rfl
      | cons entry entries => cases matched
  | cons symbol rhs ih =>
      cases entries with
      | nil => cases matched
      | cons entry entries =>
          rw [matchArgs] at matched
          split at matched
          · rename_i same
            obtain ⟨rest, isRest, rfl⟩ := Option.map_eq_some_iff.mp matched
            subst same
            rw [List.map_cons, ← ih entries rest isRest]
            rfl
          · cases matched

/-! ### The memory of the stack -/

section

variable {Cell : Type} (memory : Memory Cell) (zero : Cell)

theorem read_write_of_ne (index : Nat) (cell : Cell) (slot : Slot)
    (other : slot ≠ ⟨memory.generation, index⟩) :
    (memory.write index cell).read slot = memory.read slot := by
  unfold Memory.write Memory.read
  dsimp only
  rw [if_neg]
  rintro ⟨sameGeneration, sameIndex⟩
  apply other
  rw [← sameGeneration, ← sameIndex]

theorem read_reserve (index : Nat) (slot : Slot)
    (present : slot.generation ≤ memory.generation) :
    (memory.reserve zero index).read slot = memory.read slot := by
  have older : slot.generation ≠ memory.generation + 1 := by omega
  unfold Memory.reserve Memory.read
  split
  · rfl
  · dsimp only
    rw [if_neg older]

theorem generation_le_reserve (index : Nat) :
    memory.generation ≤ (memory.reserve zero index).generation := by
  unfold Memory.reserve
  split
  · exact Nat.le_refl _
  · exact Nat.le_succ _

theorem cells_reserve (index i : Nat) (inside : i < memory.capacity) :
    (memory.reserve zero index).cells (memory.reserve zero index).generation i =
      memory.cells memory.generation i := by
  unfold Memory.reserve
  split
  · rfl
  · dsimp only
    rw [if_pos rfl, if_pos inside]

theorem capacity_le_reserve (index : Nat) :
    memory.capacity ≤ (memory.reserve zero index).capacity := by
  unfold Memory.reserve
  split
  · exact Nat.le_refl _
  · dsimp only
    omega

theorem lt_capacity_reserve (height : Nat) (inside : height < memory.capacity) :
    height + 1 < (memory.reserve zero (height + 1)).capacity := by
  unfold Memory.reserve
  split
  · rename_i fits
    exact fits
  · dsimp only
    omega

end

/-- The stack in use has the cells of its entries, and the references are right. -/
structure Holds (memory : Memory G.Cell) (stack : List (Entry G))
    (used : List (Reference G.Cell)) : Prop where
  room : stack.length < memory.capacity
  mirrored : ∀ height entry cell, stack.reverse[height]? = some entry →
    entry.cell = some cell → memory.cells memory.generation (height + 1) = cell
  right : ∀ reference ∈ used, memory.read reference.slot = reference.cell
  present : ∀ reference ∈ used, reference.slot.generation ≤ memory.generation

theorem Holds.reserve {memory : Memory G.Cell} {stack : List (Entry G)}
    {used : List (Reference G.Cell)} (holds : Holds memory stack used) (zero : G.Cell)
    (index : Nat) : Holds (memory.reserve zero index) stack used := by
  refine ⟨Nat.lt_of_lt_of_le holds.room (capacity_le_reserve memory zero index), ?_, ?_, ?_⟩
  · intro height entry cell isEntry isCell
    obtain ⟨inside, -⟩ := List.getElem?_eq_some_iff.mp isEntry
    rw [List.length_reverse] at inside
    have room := holds.room
    rw [cells_reserve memory zero index (height + 1) (by omega)]
    exact holds.mirrored height entry cell isEntry isCell
  · intro reference member
    rw [read_reserve memory zero index _ (holds.present reference member)]
    exact holds.right reference member
  · intro reference member
    exact Nat.le_trans (holds.present reference member) (generation_le_reserve memory zero index)

theorem Holds.drop {memory : Memory G.Cell} {stack : List (Entry G)}
    {used : List (Reference G.Cell)} (holds : Holds memory stack used) (count : Nat) :
    Holds memory (stack.drop count) used := by
  have lower : (stack.drop count).reverse <+: stack.reverse :=
    List.reverse_prefix.mpr (List.drop_suffix count stack)
  refine ⟨Nat.lt_of_le_of_lt ?_ holds.room, ?_, holds.right, holds.present⟩
  · rw [List.length_drop]
    exact Nat.sub_le _ _
  · intro height entry cell isEntry isCell
    obtain ⟨inside, -⟩ := List.getElem?_eq_some_iff.mp isEntry
    obtain ⟨upper, isStack⟩ := lower
    refine holds.mirrored height entry cell ?_ isCell
    rw [← isStack, List.getElem?_append_left inside]
    exact isEntry

def Config.topSlot {State : Type} (config : Config G State) : Slot :=
  ⟨config.memory.generation, config.stack.length⟩

theorem Holds.push {State : Type} {config : Config G State} {used : List (Reference G.Cell)}
    (holds : Holds config.memory config.stack used) (entry : Entry G) (cell : G.Cell)
    (own : ∀ c, entry.cell = some c → cell = c)
    (apart : ∀ reference ∈ used, reference.slot ≠ (config.push entry cell).topSlot) :
    Holds (config.push entry cell).memory (config.push entry cell).stack used := by
  have grown := holds.reserve G.zeroCell (config.stack.length + 1)
  have room := lt_capacity_reserve config.memory G.zeroCell config.stack.length holds.room
  unfold Config.topSlot at apart
  unfold Config.push at apart ⊢
  dsimp only at apart ⊢
  generalize config.memory.reserve G.zeroCell (config.stack.length + 1) = memory
    at grown room apart ⊢
  refine ⟨room, ?_, ?_, grown.present⟩
  · intro height upper c isEntry isCell
    rw [List.reverse_cons] at isEntry
    by_cases below : height < config.stack.length
    · rw [List.getElem?_append_left (by rw [List.length_reverse]; exact below)] at isEntry
      have kept := read_write_of_ne memory (config.stack.length + 1) cell
        ⟨memory.generation, height + 1⟩ (fun same => by cases same; omega)
      exact kept.trans (grown.mirrored height upper c isEntry isCell)
    · rw [List.getElem?_append_right (by rw [List.length_reverse]; omega),
        List.length_reverse] at isEntry
      obtain ⟨inside, isUpper⟩ := List.getElem?_eq_some_iff.mp isEntry
      rw [List.length_singleton] at inside
      have isTop : height = config.stack.length := by omega
      subst isTop
      have same : entry = upper := by
        rw [← isUpper]
        simp
      subst same
      rw [← own c isCell]
      exact if_pos ⟨rfl, rfl⟩
  · intro reference member
    have kept := read_write_of_ne memory (config.stack.length + 1) cell reference.slot
      (apart reference member)
    exact kept.trans (grown.right reference member)

theorem Holds.references {memory : Memory G.Cell} {stack : List (Entry G)}
    {used : List (Reference G.Cell)} (holds : Holds memory stack used)
    (taken : List G.Symbol → List Nat) (positive : ∀ rhs, ∀ place ∈ taken rhs, 0 < place)
    (rhs : List G.Symbol) (args : Args G.Sem rhs) (count : Nat)
    (matched : matchArgs rhs (stack.take count).reverse = some args) :
    ∀ reference ∈ Goyacc.references taken rhs
        (fun i => ⟨memory.generation, (stack.drop count).length + i⟩) args,
      memory.read reference.slot = reference.cell ∧
        reference.slot.generation = memory.generation := by
  intro reference member
  obtain ⟨place, isPlace, found⟩ := List.mem_filterMap.mp member
  obtain ⟨cell, isCell, rfl⟩ := Option.map_eq_some_iff.mp found
  refine ⟨?_, rfl⟩
  rw [argCells_of_matchArgs rhs _ args matched, List.getElem?_map] at isCell
  cases atPlace : (stack.take count).reverse[place - 1]? with
  | none =>
      rw [atPlace] at isCell
      cases isCell
  | some entry =>
      rw [atPlace] at isCell
      have isStack : stack.reverse[(stack.drop count).length + (place - 1)]? = some entry := by
        rw [← List.take_append_drop count stack, List.reverse_append,
          List.getElem?_append_right (by rw [List.length_reverse, List.take_append_drop]; omega)]
        simp only [List.take_append_drop, List.length_reverse, Nat.add_sub_cancel_left]
        exact atPlace
      have read := holds.mirrored _ entry cell isStack isCell
      have place_pos := positive rhs place isPlace
      rw [show (stack.drop count).length + (place - 1) + 1 = (stack.drop count).length + place
        by omega] at read
      exact read

/-! ### The addresses in values -/

def argAddresses (addresses : (symbol : G.Symbol) → G.Sem symbol → List Slot) :
    (symbols : List G.Symbol) → Args G.Sem symbols → List Slot
  | [], _ => []
  | symbol :: symbols, (value, args) =>
      addresses symbol value ++ argAddresses addresses symbols args

def Entry.addresses (addresses : (symbol : G.Symbol) → G.Sem symbol → List Slot)
    (entry : Entry G) : List Slot :=
  addresses entry.symbol entry.value

/-- A value has the addresses of its parts and those that its action has taken. -/
structure Tracks (G : Grammar) (taken : List G.Symbol → List Nat)
    (addresses : (symbol : G.Symbol) → G.Sem symbol → List Slot) : Prop where
  positive : ∀ rhs, ∀ place ∈ taken rhs, 0 < place
  token : ∀ token, addresses (G.kind token) (G.value token) = []
  cell : ∀ token, G.assigned (G.kind token) (G.value token) = none
  production : ∀ production ∈ G.productions, ∀ slots args value,
    production.action slots args = .ok value →
    addresses production.lhs value = argAddresses addresses production.rhs args ++
      (references taken production.rhs slots args).map Reference.slot

section

variable {taken : List G.Symbol → List Nat}
  {addresses : (symbol : G.Symbol) → G.Sem symbol → List Slot}

theorem DerivesUsing.slots (tracks : Tracks G taken addresses) {symbol : G.Symbol}
    {tokens : List G.Token} {value : G.Sem symbol} {used : List (Reference G.Cell)}
    (derived : DerivesUsing G taken symbol tokens value used) :
    used.map Reference.slot = addresses symbol value := by
  refine @DerivesUsing.rec G taken
    (fun symbol _ value used _ => used.map Reference.slot = addresses symbol value)
    (fun symbols _ args used _ =>
      used.map Reference.slot = argAddresses addresses symbols args) ?_ ?_ ?_ ?_
    symbol tokens value used derived
  · intro token
    exact (tracks.token token).symm
  · intro production member slots tokens args value used _ acted parts
    rw [List.map_append, parts, tracks.production production member slots args value acted]
  · rfl
  · intro symbol symbols tokens others value args used more _ _ first rest
    rw [List.map_append, first, rest]
    rfl

theorem EntriesUsing.slots (tracks : Tracks G taken addresses) {entries : List (Entry G)}
    {tokens : List G.Token} {used : List (Reference G.Cell)}
    (derived : EntriesUsing G taken entries tokens used) :
    used.map Reference.slot = entries.flatMap (Entry.addresses addresses) := by
  induction derived with
  | nil => rfl
  | cons entry entries _ _ _ _ first _ ih =>
      rw [List.map_append, first.slots tracks, ih]
      rfl

/-- The slot written last is not one whose address is on the stack. -/
def Unaddressed (addresses : (symbol : G.Symbol) → G.Sem symbol → List Slot) {State : Type}
    (config : Config G State) : Prop :=
  config.topSlot ∉ config.stack.flatMap (Entry.addresses addresses)

theorem EntriesUsing.apart (tracks : Tracks G taken addresses) {State : Type}
    {config : Config G State} {tokens : List G.Token} {used : List (Reference G.Cell)}
    (derived : EntriesUsing G taken config.stack.reverse tokens used)
    (unaddressed : Unaddressed addresses config) :
    ∀ reference ∈ used, reference.slot ≠ config.topSlot := by
  intro reference member same
  have slots := List.mem_map_of_mem (f := Reference.slot) member
  rw [derived.slots tracks, same] at slots
  obtain ⟨entry, inStack, inEntry⟩ := List.mem_flatMap.mp slots
  exact unaddressed (List.mem_flatMap.mpr ⟨entry, List.mem_reverse.mp inStack, inEntry⟩)

/-! ### Runs -/

variable {tables : Tables} {lexer : Lexer G} {start : lexer.State}

/-- A property of the configurations in all rounds. -/
def Throughout (tables : Tables) (lexer : Lexer G) (P : Config G lexer.State → Prop) :
    Nat → Config G lexer.State → Prop
  | 0, config => P config
  | rounds + 1, config =>
      P config ∧
        match step tables lexer config with
        | some (.running next) => Throughout tables lexer P rounds next
        | _ => True

instance decidableThroughout (P : Config G lexer.State → Prop) [DecidablePred P] :
    (rounds : Nat) → (config : Config G lexer.State) →
      Decidable (Throughout tables lexer P rounds config)
  | 0, config => inferInstanceAs (Decidable (P config))
  | rounds + 1, config => by
      unfold Throughout
      have rest : Decidable (match step tables lexer config with
          | some (.running next) => Throughout tables lexer P rounds next
          | _ => True) := by
        split
        · exact decidableThroughout P rounds _
        · exact .isTrue trivial
      exact inferInstance

theorem Throughout.first {P : Config G lexer.State → Prop} {rounds : Nat}
    {config : Config G lexer.State} (all : Throughout tables lexer P rounds config) :
    P config := by
  cases rounds with
  | zero => exact all
  | succ rounds => exact all.1

theorem Throughout.mono {P Q : Config G lexer.State → Prop} {rounds : Nat}
    {config : Config G lexer.State} (all : Throughout tables lexer P rounds config)
    (weaker : ∀ config, P config → Q config) : Throughout tables lexer Q rounds config := by
  induction rounds generalizing config with
  | zero => exact weaker config all
  | succ rounds ih =>
      rw [Throughout] at all ⊢
      obtain ⟨first, rest⟩ := all
      refine ⟨weaker config first, ?_⟩
      split
      · rename_i next stepped
        rw [stepped] at rest
        exact ih rest
      · trivial

theorem run_throughout {Inv P : Config G lexer.State → Prop}
    (keeps : ∀ config next, Inv config → Stepped tables lexer config (.running next) →
      P next → Inv next)
    {config : Config G lexer.State} {outcome : Outcome G lexer.State} {rounds : Nat}
    (first : Inv config) (all : Throughout tables lexer P rounds config)
    (ran : run tables lexer rounds config = some outcome) :
    ∃ last, Inv last ∧ Stepped tables lexer last outcome := by
  induction rounds generalizing config with
  | zero => cases ran
  | succ rounds ih =>
      rw [run] at ran
      rw [Throughout] at all
      split at ran
      · cases ran
      · rename_i next stepped
        rw [stepped] at all
        exact ih (keeps config next first (step_stepped stepped) all.2.first) all.2 ran
      · rename_i last _ stepped
        cases ran
        exact ⟨config, first, step_stepped stepped⟩

theorem reduce_push {State : Type} {config next : Config G State} {number : Int}
    (reduced : reduce tables config number = some (.running next)) :
    ∃ production, G.productions[number.toNat - 1]? = some production ∧
      ∃ memory, memory = config.memory.reserve G.zeroCell
          ((belowHandle tables config.stack number).length + 1) ∧
      ∃ args value cell state,
        matchArgs production.rhs (handle tables config.stack number) = some args ∧
        production.action (fun i => ⟨memory.generation,
          (belowHandle tables config.stack number).length + i⟩) args = .ok value ∧
        (∀ c, G.assigned production.lhs value = some c → cell = c) ∧
        next = { config with
          stack := belowHandle tables config.stack number, memory := memory }.push
            ⟨state, production.lhs, value⟩ cell := by
  unfold reduce at reduced
  split at reduced
  · cases reduced
  · rename_i production found
    dsimp only at reduced
    split at reduced
    · cases reduced
    · rename_i args matched
      split at reduced
      · cases reduced
      · rename_i value acted
        cases reduced
        refine ⟨production, found, _, rfl, args, value, _, _, matched, acted, ?_, rfl⟩
        intro c isCell
        rw [isCell]
        rfl

/-- As long as there was no syntax error, the stack stands for all tokens that were
shifted, and the references are right. -/
def Refers (taken : List G.Symbol → List Nat) (lexer : Lexer G) (start : lexer.State)
    (config : Config G lexer.State) : Prop :=
  config.nerrs = 0 → config.errflag = 0 ∧
    ∃ shifted used, EntriesUsing G taken config.stack.reverse shifted used ∧
      Taken lexer start shifted config.lookahead config.lexer ∧
      Holds config.memory config.stack used

theorem refers_start (memory : Memory G.Cell) (room : 0 < memory.capacity) :
    Refers taken lexer start (Config.start memory start) := by
  intro _
  refine ⟨rfl, [], [], .nil, .nil start, room, ?_, ?_, ?_⟩
  · intro height entry cell isEntry
    cases isEntry
  · exact fun reference member => absurd member List.not_mem_nil
  · exact fun reference member => absurd member List.not_mem_nil

theorem Refers.fetch {config ready : Config G lexer.State} {token : Option G.Token}
    (refers : Refers taken lexer start config)
    (fetched : Goyacc.fetch lexer config = some (token, ready)) :
    Refers taken lexer start ready := by
  unfold Goyacc.fetch at fetched
  split at fetched
  · cases fetched
    exact refers
  · rename_i absent
    split at fetched
    · cases fetched
    · rename_i own state lexed
      cases fetched
      intro noErrors
      obtain ⟨flag, shifted, used, derived, isTaken, holds⟩ := refers noErrors
      rw [absent] at isTaken
      exact ⟨flag, shifted, used, derived, ⟨_, isTaken, lexed⟩, holds⟩

theorem Refers.ready {config ready : Config G lexer.State}
    (refers : Refers taken lexer start config) (isReady : Ready lexer config ready) :
    Refers taken lexer start ready := by
  rcases isReady with rfl | ⟨token, fetched⟩
  · exact refers
  · exact refers.fetch fetched

theorem Refers.shift (tracks : Tracks G taken addresses) {ready next : Config G lexer.State}
    {token : G.Token} {target : Int} (refers : Refers taken lexer start ready)
    (ahead : ready.lookahead = some (some token))
    (shifted : Goyacc.shift ready (some token) target = some (.running next))
    (unaddressed : Unaddressed addresses next) : Refers taken lexer start next := by
  cases shifted
  intro noErrors
  obtain ⟨flag, before, used, derived, isTaken, holds⟩ := refers noErrors
  rw [ahead] at isTaken
  obtain ⟨state, lexed, final⟩ := isTaken
  have flagged : ready.errflag - 1 = 0 := by omega
  have pushed : EntriesUsing G taken
      ((⟨target, G.kind token, G.value token⟩ : Entry G) :: ready.stack).reverse
      (before ++ [token]) (used ++ []) := by
    rw [List.reverse_cons]
    exact derived.concat (.token token)
  have apart := pushed.apart tracks unaddressed
  rw [List.append_nil] at pushed apart
  refine ⟨flagged, before ++ [token], used, pushed, lexed.concat final, ?_⟩
  refine holds.push ⟨target, G.kind token, G.value token⟩ G.zeroCell ?_ apart
  intro c isCell
  rw [Entry.cell, tracks.cell token] at isCell
  cases isCell

theorem Refers.recover {ready next : Config G lexer.State}
    (refers : Refers taken lexer start ready)
    (recovered : Goyacc.recover tables lexer ready = .running next) :
    Refers taken lexer start next := by
  intro noErrors
  rcases recover_running recovered with ⟨flagged, counted, -⟩ | ⟨counted, -⟩
  · rw [counted] at noErrors
    exact absurd (refers noErrors).1 flagged
  · rw [counted] at noErrors
    cases noErrors

theorem Refers.reduce (tracks : Tracks G taken addresses) {ready next : Config G lexer.State}
    {number : Int} (refers : Refers taken lexer start ready)
    (reduced : Goyacc.reduce tables ready number = some (.running next))
    (unaddressed : Unaddressed addresses next) : Refers taken lexer start next := by
  obtain ⟨production, found, memory, isMemory, args, value, cell, state, matched, acted, own,
    isNext⟩ := reduce_push reduced
  subst isNext
  intro noErrors
  obtain ⟨flag, shifted, used, derived, isTaken, holds⟩ := refers noErrors
  have grown : Holds memory ready.stack used := by
    rw [isMemory]
    exact holds.reserve _ _
  have fresh := grown.references taken tracks.positive production.rhs args _ matched
  -- The stack is what stays below, and the entries of the right-hand side.
  rw [← List.take_append_drop (tableEntry tables.r2 number).toNat ready.stack,
    List.reverse_append] at derived
  obtain ⟨low, high, front, back, rfl, rfl, lowDerived, highDerived⟩ := derived.of_append
  have parts := highDerived.matchArgs production.rhs args matched
  have pushed : EntriesUsing G taken
      ((⟨state, production.lhs, value⟩ : Entry G) ::
        belowHandle tables ready.stack number).reverse (low ++ high)
      (front ++ (back ++ references taken production.rhs (fun i => ⟨memory.generation,
        (belowHandle tables ready.stack number).length + i⟩) args)) := by
    rw [List.reverse_cons]
    exact lowDerived.concat (.production production (List.mem_of_getElem? found) _ high args
      value back parts acted)
  refine ⟨flag, low ++ high, _, pushed, isTaken, ?_⟩
  have all : Holds memory (belowHandle tables ready.stack number)
      (front ++ (back ++ references taken production.rhs (fun i => ⟨memory.generation,
        (belowHandle tables ready.stack number).length + i⟩) args)) := by
    have dropped := grown.drop (tableEntry tables.r2 number).toNat
    rw [← List.append_assoc]
    refine ⟨dropped.room, dropped.mirrored, ?_, ?_⟩
    · intro reference member
      rcases List.mem_append.mp member with old | new
      · exact grown.right reference old
      · exact (fresh reference new).1
    · intro reference member
      rcases List.mem_append.mp member with old | new
      · exact grown.present reference old
      · exact Nat.le_of_eq (fresh reference new).2
  exact all.push ⟨state, production.lhs, value⟩ cell own (pushed.apart tracks unaddressed)

theorem Refers.stepped (tracks : Tracks G taken addresses) {config next : Config G lexer.State}
    (refers : Refers taken lexer start config)
    (stepped : Stepped tables lexer config (.running next))
    (unaddressed : Unaddressed addresses next) : Refers taken lexer start next := by
  generalize isOutcome : Outcome.running next = outcome at stepped
  cases stepped with
  | shifted ready own token target fetched _ isNext =>
      cases isOutcome
      exact (refers.fetch fetched).shift tracks (fetch_ready fetched).1 isNext unaddressed
  | accepted => cases isOutcome
  | recovered ready isReady => exact (refers.ready isReady).recover isOutcome.symm
  | reduced ready number outcome isReady _ reduced =>
      subst isOutcome
      exact (refers.ready isReady).reduce tracks reduced unaddressed

/-- A run that accepts, in which no slot is written whose address is on the stack, ends
with references that are right. -/
theorem accepted_references (tracks : Tracks G taken addresses)
    (acceptsAtEnd : ∀ state (token : Option G.Token),
      exception (exceptionRows tables.exca state) (tokenNumber token) < 0 → token = none)
    (memory : Memory G.Cell) (room : 0 < memory.capacity) (start : lexer.State) (rounds : Nat)
    (final : Config G lexer.State)
    (unaddressed : Throughout tables lexer (Unaddressed addresses) rounds
      (Config.start memory start))
    (ran : run tables lexer rounds (Config.start memory start) = some (.accepted final))
    (clean : final.nerrs = 0) :
    ∃ tokens used before, EntriesUsing G taken final.stack.reverse tokens used ∧
      Lexed lexer start tokens before ∧ lexer.lex before = some (none, final.lexer) ∧
      ∀ reference ∈ used, final.memory.read reference.slot = reference.cell := by
  have first : Refers taken lexer start (Config.start memory start) := refers_start memory room
  obtain ⟨last, refers, stepped⟩ := run_throughout
    (fun _ _ refers stepped unaddressed => refers.stepped tracks stepped unaddressed)
    first unaddressed ran
  obtain ⟨token, fetched, negative⟩ := stepped_accepted stepped
  obtain ⟨-, shifted, used, derived, isTaken, holds⟩ := refers.fetch fetched clean
  cases acceptsAtEnd _ token negative
  rw [(fetch_ready fetched).1] at isTaken
  obtain ⟨before, lexed, ended⟩ := isTaken
  exact ⟨shifted, used, before, derived, lexed, ended, holds.right⟩

end

/-! ### Slots that a run does not write -/

def Outcome.config {State : Type} : Outcome G State → Config G State
  | .running config => config
  | .accepted config => config
  | .rejected config => config
  | .panicked _ config => config

/-- The slot has kept its cell, and its array is not newer than the one in use. -/
structure Keeps {State : Type} (slot : Slot) (cell : G.Cell) (config : Config G State) :
    Prop where
  read : config.memory.read slot = cell
  present : slot.generation ≤ config.memory.generation

section

variable {tables : Tables} {lexer : Lexer G} {slot : Slot} {cell : G.Cell}

theorem Keeps.push {State : Type} {config : Config G State} (keeps : Keeps slot cell config)
    (entry : Entry G) (written : G.Cell) (other : slot ≠ (config.push entry written).topSlot) :
    Keeps slot cell (config.push entry written) := by
  have grown := read_reserve config.memory G.zeroCell (config.stack.length + 1) slot keeps.present
  have newer := generation_le_reserve config.memory G.zeroCell (config.stack.length + 1)
  unfold Config.topSlot at other
  unfold Config.push at other ⊢
  dsimp only at other
  have kept := read_write_of_ne
    (config.memory.reserve G.zeroCell (config.stack.length + 1)) (config.stack.length + 1)
    written slot other
  exact ⟨kept.trans (grown.trans keeps.read), Nat.le_trans keeps.present newer⟩

theorem fetch_memory {config ready : Config G lexer.State} {token : Option G.Token}
    (fetched : fetch lexer config = some (token, ready)) : ready.memory = config.memory := by
  unfold fetch at fetched
  split at fetched
  · cases fetched
    rfl
  · split at fetched
    · cases fetched
    · cases fetched
      rfl

theorem Keeps.ready {config ready : Config G lexer.State} (keeps : Keeps slot cell config)
    (isReady : Ready lexer config ready) : Keeps slot cell ready := by
  rcases isReady with rfl | ⟨token, fetched⟩
  · exact keeps
  · have same := fetch_memory fetched
    exact ⟨by rw [same]; exact keeps.read, by rw [same]; exact keeps.present⟩

theorem Keeps.resume {State : Type} {config : Config G State} (keeps : Keeps slot cell config)
    (other : ∀ next, resume tables config = .running next → slot ≠ next.topSlot) :
    Keeps slot cell (resume tables config).config := by
  unfold Goyacc.resume at other ⊢
  split at other
  · exact keeps
  · rename_i target below popped
    have popKeeps : Keeps slot cell { config with stack := below, errflag := 3 } :=
      ⟨keeps.read, keeps.present⟩
    exact popKeeps.push _ _ (other _ rfl)

theorem Keeps.recover {config : Config G lexer.State} (keeps : Keeps slot cell config)
    (other : ∀ next, recover tables lexer config = .running next → slot ≠ next.topSlot) :
    Keeps slot cell (recover tables lexer config).config := by
  have reported : Keeps slot cell
      { config with nerrs := config.nerrs + 1, lexer := lexer.report config.lexer } :=
    ⟨keeps.read, keeps.present⟩
  unfold Goyacc.recover at other ⊢
  split at other
  · exact reported.resume other
  · exact keeps.resume other
  · exact keeps.resume other
  · split at other
    · exact keeps
    · exact ⟨keeps.read, keeps.present⟩

/-- A reduction goes on or panics, and then it has only enlarged the stack. -/
theorem Keeps.reduce {config : Config G lexer.State} {outcome : Outcome G lexer.State}
    {number : Int} (keeps : Keeps slot cell config)
    (reduced : reduce tables config number = some outcome)
    (other : ∀ next, outcome = .running next → slot ≠ next.topSlot) :
    Keeps slot cell outcome.config := by
  unfold Goyacc.reduce at reduced
  split at reduced
  · cases reduced
  · dsimp only at reduced
    split at reduced
    · cases reduced
    · have below : Keeps slot cell { config with
          stack := belowHandle tables config.stack number
          memory := config.memory.reserve G.zeroCell
            ((belowHandle tables config.stack number).length + 1) } := by
        refine ⟨(read_reserve _ _ _ slot keeps.present).trans keeps.read, ?_⟩
        exact Nat.le_trans keeps.present (generation_le_reserve _ _ _)
      split at reduced
      · cases reduced
        exact below
      · cases reduced
        exact below.push _ _ (other _ rfl)

theorem Keeps.stepped {config : Config G lexer.State} {outcome : Outcome G lexer.State}
    (keeps : Keeps slot cell config) (stepped : Stepped tables lexer config outcome)
    (other : ∀ next, outcome = .running next → slot ≠ next.topSlot) :
    Keeps slot cell outcome.config := by
  cases stepped with
  | shifted ready next token target fetched _ isNext =>
      cases isNext
      have apart := other _ rfl
      have pushed := (keeps.ready (Or.inr ⟨_, fetched⟩)).push
        ⟨target, G.kind token, G.value token⟩ G.zeroCell apart
      exact ⟨pushed.read, pushed.present⟩
  | accepted ready token fetched => exact keeps.ready (Or.inr ⟨_, fetched⟩)
  | recovered ready isReady => exact (keeps.ready isReady).recover other
  | reduced ready number _ isReady _ reduced =>
      exact (keeps.ready isReady).reduce reduced other

theorem run_keeps {config : Config G lexer.State} {outcome : Outcome G lexer.State}
    {rounds : Nat} (keeps : Keeps slot cell config)
    (unwritten : Throughout tables lexer (fun config => slot ≠ config.topSlot) rounds config)
    (ran : run tables lexer rounds config = some outcome) : Keeps slot cell outcome.config := by
  have each : ∀ config next, Keeps slot cell config →
      Stepped tables lexer config (.running next) → slot ≠ next.topSlot →
      Keeps slot cell next := by
    intro config next keeps stepped other
    refine keeps.stepped stepped fun own isOwn => ?_
    cases isOwn
    exact other
  obtain ⟨last, lastKeeps, stepped⟩ := run_throughout each keeps unwritten ran
  refine lastKeeps.stepped stepped fun next isNext => ?_
  rw [isNext] at ran
  exact absurd ran (run_ne_running rounds config next)

end

end McoaGateway.Goyacc
