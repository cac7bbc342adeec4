/-
Actions that panic.

Two grammars may differ in their actions only: those of the second one do what
those of the first one do, or panic.  The parsers then take the same rounds until
the second one comes to a reduction that it refuses (`run_guarded`).  Which
reductions there are is said by the first grammar alone (`reductions`).
-/

import McoaGateway.Goyacc.Derivation

namespace McoaGateway.Goyacc

/-! ### The reductions of a run -/

/-- What a round decides to do, from the tables and the lexer. -/
inductive Move (Token : Type) where
  | shift (token : Option Token) (target : Int)
  | accept
  | recover
  | reduce (number : Int)

/-- A production with the values of its right-hand side. -/
structure Reduction (G : Grammar) where
  production : Production G.Sem G.Panic
  args : Args G.Sem production.rhs

section Reductions

variable {G : Grammar} (tables : Tables) (lexer : Lexer G)

def moveByDefault (config : Config G lexer.State) :
    Option (Move G.Token × Config G lexer.State) :=
  let state := stateOf config.stack
  let code := tableEntry tables.defaults state
  if code = -2 then
    match fetch lexer config with
    | none => none
    | some (token, config) =>
        let code := exception (exceptionRows tables.exca state) (tokenNumber token)
        if code < 0 then some (.accept, config)
        else if code = 0 then some (.recover, config)
        else some (.reduce code, config)
  else if code = 0 then some (.recover, config)
  else some (.reduce code, config)

def move (config : Config G lexer.State) : Option (Move G.Token × Config G lexer.State) :=
  let base := tableEntry tables.pact (stateOf config.stack)
  if base ≤ tables.flag then moveByDefault tables lexer config
  else
    match fetch lexer config with
    | none => none
    | some (token, config) =>
        let index := base + tokenNumber token
        if index < 0 ∨ tables.last ≤ index then moveByDefault tables lexer config
        else
          let target := tableEntry tables.act index
          if tableEntry tables.chk target = tokenNumber token then
            some (.shift token target, config)
          else moveByDefault tables lexer config

def perform : Move G.Token → Config G lexer.State → Option (Outcome G lexer.State)
  | .shift token target, config => shift config token target
  | .accept, config => some (.accepted config)
  | .recover, config => some (recover tables lexer config)
  | .reduce number, config => reduce tables config number

theorem byDefault_eq_perform (config : Config G lexer.State) :
    byDefault tables lexer config =
      (moveByDefault tables lexer config).bind fun m => perform tables lexer m.1 m.2 := by
  unfold byDefault moveByDefault
  dsimp only
  split_ifs
  · cases fetch lexer config with
    | none => rfl
    | some fetched =>
        dsimp only
        split_ifs <;> rfl
  · rfl
  · rfl

theorem step_eq_perform (config : Config G lexer.State) :
    step tables lexer config =
      (move tables lexer config).bind fun m => perform tables lexer m.1 m.2 := by
  unfold step move
  dsimp only
  split_ifs
  · exact byDefault_eq_perform tables lexer config
  · cases fetch lexer config with
    | none => rfl
    | some fetched =>
        dsimp only
        split_ifs
        · exact byDefault_eq_perform tables lexer fetched.2
        · rfl
        · exact byDefault_eq_perform tables lexer fetched.2

def reductionBy (stack : List (Entry G)) (number : Int) : Option (Reduction G) :=
  match G.productions[number.toNat - 1]? with
  | none => none
  | some production => (matchArgs production.rhs (handle tables stack number)).map (.mk production)

def Move.reduction : Move G.Token → List (Entry G) → Option (Reduction G)
  | .reduce number, stack => reductionBy tables stack number
  | _, _ => none

def reductionOf (config : Config G lexer.State) : Option (Reduction G) :=
  (move tables lexer config).bind fun m => m.1.reduction tables m.2.stack

/-- The reductions within a number of rounds, in order. -/
def reductions : Nat → Config G lexer.State → List (Reduction G)
  | 0, _ => []
  | rounds + 1, config =>
      (reductionOf tables lexer config).toList ++
        match step tables lexer config with
        | some (.running next) => reductions rounds next
        | _ => []

end Reductions

/-! ### Other actions for the same symbols -/

abbrev Grammar.withProductions (G : Grammar) (productions : List (Production G.Sem G.Panic)) :
    Grammar :=
  { G with productions := productions }

section Recast

variable {G : Grammar} (productions : List (Production G.Sem G.Panic))

def Entry.recast (entry : Entry G) : Entry (G.withProductions productions) :=
  ⟨entry.state, entry.symbol, entry.value⟩

def Config.recast {State : Type} (config : Config G State) :
    Config (G.withProductions productions) State where
  stack := config.stack.map (Entry.recast productions)
  memory := config.memory
  carried := config.carried
  lookahead := config.lookahead
  errflag := config.errflag
  nerrs := config.nerrs
  lexer := config.lexer

def Outcome.recast {State : Type} : Outcome G State →
    Outcome (G.withProductions productions) State
  | .running config => .running (config.recast productions)
  | .accepted config => .accepted (config.recast productions)
  | .rejected config => .rejected (config.recast productions)
  | .panicked failure config => .panicked failure (config.recast productions)

abbrev Lexer.recast (lexer : Lexer G) : Lexer (G.withProductions productions) :=
  ⟨lexer.State, lexer.lex, lexer.report⟩

theorem stateOf_recast (stack : List (Entry G)) :
    stateOf (stack.map (Entry.recast productions)) = stateOf stack := by
  cases stack <;> rfl

theorem matchArgs_recast (rhs : List G.Symbol) (entries : List (Entry G)) :
    matchArgs (G := G.withProductions productions) rhs (entries.map (Entry.recast productions)) =
      matchArgs rhs entries := by
  induction rhs generalizing entries with
  | nil => cases entries <;> rfl
  | cons symbol rhs ih =>
      cases entries with
      | nil => rfl
      | cons entry entries =>
          rw [List.map_cons, matchArgs, matchArgs]
          by_cases same : entry.symbol = symbol
          · rw [dif_pos same, dif_pos (show (entry.recast productions).symbol = symbol from same),
              ih]
            rfl
          · rw [dif_neg same, dif_neg (show (entry.recast productions).symbol ≠ symbol from same)]

theorem tokenNumber_recast (token : Option G.Token) :
    tokenNumber (G := G.withProductions productions) token = tokenNumber token := by
  cases token <;> rfl

variable (tables : Tables) (lexer : Lexer G)

theorem fetch_recast (config : Config G lexer.State) :
    fetch (lexer.recast productions) (config.recast productions) =
      (fetch lexer config).map fun f => (f.1, f.2.recast productions) := by
  unfold fetch
  cases ahead : config.lookahead with
  | some token =>
      rw [show (config.recast productions).lookahead = some token from ahead]
      rfl
  | none =>
      rw [show (config.recast productions).lookahead = none from ahead]
      dsimp only
      rw [show (lexer.recast productions).lex (config.recast productions).lexer =
        lexer.lex config.lexer from rfl]
      cases lexer.lex config.lexer <;> rfl

theorem moveByDefault_recast (config : Config G lexer.State) :
    moveByDefault tables (lexer.recast productions) (config.recast productions) =
      (moveByDefault tables lexer config).map fun m => (m.1, m.2.recast productions) := by
  unfold moveByDefault
  dsimp only
  rw [show stateOf (config.recast productions).stack = stateOf config.stack from
    stateOf_recast productions config.stack, fetch_recast]
  split_ifs
  · cases fetch lexer config with
    | none => rfl
    | some fetched =>
        dsimp only [Option.map_some]
        rw [tokenNumber_recast]
        split_ifs <;> rfl
  · rfl
  · rfl

theorem move_recast (config : Config G lexer.State) :
    move tables (lexer.recast productions) (config.recast productions) =
      (move tables lexer config).map fun m => (m.1, m.2.recast productions) := by
  unfold move
  dsimp only
  rw [show stateOf (config.recast productions).stack = stateOf config.stack from
    stateOf_recast productions config.stack, fetch_recast]
  split_ifs
  · exact moveByDefault_recast productions tables lexer config
  · cases fetch lexer config with
    | none => rfl
    | some fetched =>
        dsimp only [Option.map_some]
        rw [tokenNumber_recast]
        split_ifs
        · exact moveByDefault_recast productions tables lexer fetched.2
        · rfl
        · exact moveByDefault_recast productions tables lexer fetched.2

theorem push_recast {State : Type} (config : Config G State) (entry : Entry G) (cell : G.Cell) :
    (config.recast productions).push (entry.recast productions) cell =
      (config.push entry cell).recast productions := by
  unfold Config.push Config.recast
  simp

theorem shift_recast {State : Type} (config : Config G State) (token : Option G.Token)
    (target : Int) :
    shift (config.recast productions) token target =
      (shift config token target).map (Outcome.recast productions) := by
  cases token with
  | none => rfl
  | some token =>
      unfold shift
      dsimp only
      rw [show (⟨target, G.kind token, G.value token⟩ : Entry (G.withProductions productions)) =
        Entry.recast productions ⟨target, G.kind token, G.value token⟩ from rfl, push_recast]
      rfl

theorem popToError_recast (stack : List (Entry G)) :
    popToError tables (stack.map (Entry.recast productions)) =
      (popToError tables stack).map fun p => (p.1, p.2.map (Entry.recast productions)) := by
  induction stack with
  | nil =>
      unfold popToError
      cases errorShift tables 0 <;> rfl
  | cons top below ih =>
      rw [List.map_cons, popToError, popToError,
        show (top.recast productions).state = top.state from rfl, ih]
      cases errorShift tables top.state <;> rfl

theorem resume_recast {State : Type} (config : Config G State) :
    resume tables (config.recast productions) =
      (resume tables config).recast productions := by
  unfold resume
  rw [show (config.recast productions).stack = config.stack.map (Entry.recast productions) from rfl,
    popToError_recast]
  cases popToError tables config.stack with
  | none => rfl
  | some popped =>
      exact congrArg Outcome.running (push_recast productions
        { config with stack := popped.2, errflag := 3 }
        ⟨popped.1, G.errorSymbol, G.errorValue⟩ config.carried)

theorem recover_recast (config : Config G lexer.State) :
    recover tables (lexer.recast productions) (config.recast productions) =
      (recover tables lexer config).recast productions := by
  unfold recover
  rw [show (config.recast productions).errflag = config.errflag from rfl]
  split
  · exact resume_recast productions tables
      { config with nerrs := config.nerrs + 1, lexer := lexer.report config.lexer }
  · exact resume_recast productions tables config
  · exact resume_recast productions tables config
  · rw [show (config.recast productions).lookahead = config.lookahead from rfl]
    split <;> rfl

end Recast

/-! ### Refused reductions -/

section Guarded

variable {G : Grammar} {productions : List (Production G.Sem G.Panic)}
  (refused : Reduction G → Prop)

/-- The second action panics for what is refused, and does the same as the first
one otherwise. -/
inductive Guarded : Production G.Sem G.Panic → Production G.Sem G.Panic → Prop where
  | mk (lhs : G.Symbol) (rhs : List G.Symbol)
      (action guarded : (Nat → Slot) → Args G.Sem rhs → Except G.Panic (G.Sem lhs))
      (panics : ∀ slots args, refused ⟨⟨lhs, rhs, action⟩, args⟩ →
        ∃ failure, guarded slots args = .error failure)
      (same : ∀ slots args, ¬ refused ⟨⟨lhs, rhs, action⟩, args⟩ →
        guarded slots args = action slots args) :
      Guarded ⟨lhs, rhs, action⟩ ⟨lhs, rhs, guarded⟩

/-- The outcome for the grammar with the guards, next to the one without them and
the reductions on the way. -/
def Follows {State : Type} (reductions : List (Reduction G)) (plain : Option (Outcome G State))
    (guarded : Option (Outcome (G.withProductions productions) State)) : Prop :=
  (∀ reduction ∈ reductions, ¬ refused reduction) ∧
      guarded = plain.map (Outcome.recast productions) ∨
    (∃ reduction ∈ reductions, refused reduction) ∧
      ∃ failure final, guarded = some (.panicked failure final)

variable {refused}

theorem getElem?_guarded {plain guarded : List (Production G.Sem G.Panic)}
    (guards : List.Forall₂ (Guarded refused) plain guarded) (index : Nat) :
    plain[index]? = none ∧ guarded[index]? = none ∨
      ∃ first second, plain[index]? = some first ∧ guarded[index]? = some second ∧
        Guarded refused first second := by
  induction guards generalizing index with
  | nil => exact Or.inl ⟨rfl, rfl⟩
  | cons first rest ih =>
      cases index with
      | zero => exact Or.inr ⟨_, _, rfl, rfl, first⟩
      | succ index => exact ih index

variable (tables : Tables) (lexer : Lexer G)

theorem reduce_guarded (guards : List.Forall₂ (Guarded refused) G.productions productions)
    {State : Type} (config : Config G State) (number : Int) :
    Follows refused (reductionBy tables config.stack number).toList (reduce tables config number)
      (reduce tables (config.recast productions) number) := by
  unfold reductionBy reduce
  rcases getElem?_guarded guards (number.toNat - 1) with
    ⟨absent, guardedAbsent⟩ | ⟨_, _, found, guardedFound, guard⟩
  · rw [absent, show (G.withProductions productions).productions[number.toNat - 1]? = none from
      guardedAbsent]
    exact Or.inl ⟨by simp, rfl⟩
  rw [found, show (G.withProductions productions).productions[number.toNat - 1]? = some _ from
    guardedFound]
  obtain ⟨lhs, rhs, action, guarded, panics, same⟩ := guard
  have top : ((config.recast productions).stack.take (tableEntry tables.r2 number).toNat).reverse =
      (handle tables config.stack number).map (Entry.recast productions) := by
    rw [handle, List.map_reverse, List.map_take]
    rfl
  have below : (config.recast productions).stack.drop (tableEntry tables.r2 number).toNat =
      (belowHandle tables config.stack number).map (Entry.recast productions) := by
    rw [belowHandle, List.map_drop]
    rfl
  dsimp only
  rw [top, below, matchArgs_recast, stateOf_recast, List.length_map, ← handle, ← belowHandle]
  cases matchArgs rhs (handle tables config.stack number) with
  | none => exact Or.inl ⟨by simp, rfl⟩
  | some args =>
      dsimp only [Option.map_some, Option.toList_some]
      by_cases isRefused : refused ⟨⟨lhs, rhs, action⟩, args⟩
      · obtain ⟨failure, acted⟩ := panics _ args isRefused
        rw [acted]
        exact Or.inr ⟨⟨_, List.mem_singleton.mpr rfl, isRefused⟩, _, _, rfl⟩
      · rw [same _ args isRefused]
        refine Or.inl ⟨by simpa using isRefused, ?_⟩
        rw [show (config.recast productions).memory = config.memory from rfl]
        cases action _ args with
        | error failure => rfl
        | ok value =>
            exact congrArg (fun next => some (Outcome.running next)) (push_recast productions
              { config with stack := belowHandle tables config.stack number, memory := _ }
              ⟨_, lhs, value⟩ _)

theorem perform_guarded (guards : List.Forall₂ (Guarded refused) G.productions productions)
    (move : Move G.Token) (config : Config G lexer.State) :
    Follows refused (move.reduction tables config.stack).toList (perform tables lexer move config)
      (perform tables (lexer.recast productions) move (config.recast productions)) := by
  cases move with
  | shift token target =>
      exact Or.inl ⟨by simp [Move.reduction], shift_recast productions config token target⟩
  | accept => exact Or.inl ⟨by simp [Move.reduction], rfl⟩
  | recover =>
      exact Or.inl ⟨by simp [Move.reduction],
        congrArg some (recover_recast productions tables lexer config)⟩
  | reduce number => exact reduce_guarded tables guards config number

theorem step_guarded (guards : List.Forall₂ (Guarded refused) G.productions productions)
    (config : Config G lexer.State) :
    Follows refused (reductionOf tables lexer config).toList (step tables lexer config)
      (step tables (lexer.recast productions) (config.recast productions)) := by
  rw [step_eq_perform, step_eq_perform, move_recast, reductionOf]
  cases move tables lexer config with
  | none => exact Or.inl ⟨by simp, rfl⟩
  | some m => exact perform_guarded tables lexer guards m.1 m.2

/-- The run with the guards is the one without them, unless one of the reductions is
refused; then it panics. -/
theorem run_guarded (guards : List.Forall₂ (Guarded refused) G.productions productions)
    (rounds : Nat) (config : Config G lexer.State) :
    Follows refused (reductions tables lexer rounds config) (run tables lexer rounds config)
      (run tables (lexer.recast productions) rounds (config.recast productions)) := by
  induction rounds generalizing config with
  | zero => exact Or.inl ⟨by simp [reductions], rfl⟩
  | succ rounds ih =>
      rw [run, run, reductions]
      rcases step_guarded tables lexer guards config with
        ⟨accepted, same⟩ | ⟨⟨reduction, member, isRefused⟩, failure, final, panicked⟩
      · rw [same]
        cases step tables lexer config with
        | none =>
            refine Or.inl ⟨?_, rfl⟩
            simpa using accepted
        | some outcome =>
            cases outcome with
            | running next =>
                rcases ih next with ⟨later, sameRun⟩ | ⟨⟨reduction, member, isRefused⟩, panicked⟩
                · refine Or.inl ⟨?_, sameRun⟩
                  intro reduction member
                  rcases List.mem_append.mp member with own | inRest
                  · exact accepted reduction own
                  · exact later reduction inRest
                · exact Or.inr ⟨⟨reduction, List.mem_append_right _ member, isRefused⟩, panicked⟩
            | _ =>
                refine Or.inl ⟨?_, rfl⟩
                simpa using accepted
      · rw [panicked]
        exact Or.inr ⟨⟨reduction, List.mem_append_left _ member, isRefused⟩, failure, final, rfl⟩

end Guarded

end McoaGateway.Goyacc
