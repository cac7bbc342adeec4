/-
What a run of a generated parser says about its input.

`Derives` is the meaning of a grammar: which values a sequence of tokens has.
When a run accepts without a syntax error, the tokens that the lexer gave have
the value on the stack (`accepted_derives`).  Nothing is assumed of the tables.
-/

import McoaGateway.Goyacc.Engine

namespace McoaGateway.Goyacc

variable {G : Grammar}

mutual

inductive Derives (G : Grammar) :
    (symbol : G.Symbol) → List G.Token → G.Sem symbol → Prop where
  | token (token : G.Token) : Derives G (G.kind token) [token] (G.value token)
  | production (production : Production G.Sem G.Panic)
      (member : production ∈ G.productions) (slots : Nat → Slot)
      (tokens : List G.Token) (args : Args G.Sem production.rhs)
      (value : G.Sem production.lhs)
      (parts : DerivesAll G production.rhs tokens args)
      (acted : production.action slots args = .ok value) :
      Derives G production.lhs tokens value

inductive DerivesAll (G : Grammar) :
    (symbols : List G.Symbol) → List G.Token → Args G.Sem symbols → Prop where
  | nil : DerivesAll G [] [] ()
  | cons (symbol : G.Symbol) (symbols : List G.Symbol) (tokens others : List G.Token)
      (value : G.Sem symbol) (args : Args G.Sem symbols)
      (first : Derives G symbol tokens value) (rest : DerivesAll G symbols others args) :
      DerivesAll G (symbol :: symbols) (tokens ++ others) (value, args)

end

/-- The parts of a right-hand side have a property. -/
def ArgsSatisfy (Inv : (symbol : G.Symbol) → List G.Token → G.Sem symbol → Prop) :
    (symbols : List G.Symbol) → List G.Token → Args G.Sem symbols → Prop
  | [], tokens, _ => tokens = []
  | symbol :: symbols, tokens, (value, args) =>
      ∃ first rest, tokens = first ++ rest ∧ Inv symbol first value ∧
        ArgsSatisfy Inv symbols rest args

/-- Induction over derivations: a property of the tokens that every production
keeps. -/
theorem Derives.induction (Inv : (symbol : G.Symbol) → List G.Token → G.Sem symbol → Prop)
    (ofToken : ∀ token, Inv (G.kind token) [token] (G.value token))
    (keeps : ∀ production ∈ G.productions, ∀ slots tokens args value,
      ArgsSatisfy Inv production.rhs tokens args →
      production.action slots args = .ok value → Inv production.lhs tokens value)
    {symbol : G.Symbol} {tokens : List G.Token} {value : G.Sem symbol}
    (derived : Derives G symbol tokens value) : Inv symbol tokens value := by
  refine @Derives.rec G (fun symbol tokens value _ => Inv symbol tokens value)
    (fun symbols tokens args _ => ArgsSatisfy Inv symbols tokens args) ?_ ?_ ?_ ?_
    symbol tokens value derived
  · exact ofToken
  · intro production member slots tokens args value _ acted parts
    exact keeps production member slots tokens args value parts acted
  · rfl
  · intro symbol symbols tokens others value args _ _ first rest
    exact ⟨tokens, others, rfl, first, rest⟩

/-- The values of a right-hand side have a property. -/
def ArgsHold {Symbol : Type} {Sem : Symbol → Type}
    (Inv : (symbol : Symbol) → Sem symbol → Prop) :
    (symbols : List Symbol) → Args Sem symbols → Prop
  | [], _ => True
  | symbol :: symbols, (value, args) => Inv symbol value ∧ ArgsHold Inv symbols args

/-- The action of a production keeps a property of values. -/
def Production.Keeps {Symbol Panic : Type} {Sem : Symbol → Type}
    (Inv : (symbol : Symbol) → Sem symbol → Prop) (production : Production Sem Panic) : Prop :=
  ∀ slots args value, ArgsHold Inv production.rhs args →
    production.action slots args = .ok value → Inv production.lhs value

theorem Derives.holds {Inv : (symbol : G.Symbol) → G.Sem symbol → Prop}
    {Good : G.Token → Prop} (ofToken : ∀ token, Good token → Inv (G.kind token) (G.value token))
    (keeps : ∀ production ∈ G.productions, production.Keeps Inv)
    {symbol : G.Symbol} {tokens : List G.Token} {value : G.Sem symbol}
    (derived : Derives G symbol tokens value) (good : ∀ token ∈ tokens, Good token) :
    Inv symbol value := by
  have collect : ∀ symbols tokens (args : Args G.Sem symbols),
      (∀ token ∈ tokens, Good token) →
      ArgsSatisfy (fun symbol tokens value => (∀ token ∈ tokens, Good token) →
        Inv symbol value) symbols tokens args → ArgsHold Inv symbols args := by
    intro symbols
    induction symbols with
    | nil => exact fun _ _ _ _ => trivial
    | cons symbol symbols ih =>
        intro tokens args good satisfied
        obtain ⟨value, args⟩ := args
        obtain ⟨first, rest, rfl, held, others⟩ := satisfied
        refine ⟨held fun token member => good token (List.mem_append_left _ member), ?_⟩
        exact ih rest args (fun token member => good token (List.mem_append_right _ member))
          others
  refine derived.induction
    (fun symbol tokens value => (∀ token ∈ tokens, Good token) → Inv symbol value) ?_ ?_ good
  · intro token good
    exact ofToken token (good token List.mem_cons_self)
  · intro production member slots tokens args value satisfied acted good
    exact keeps production member slots args value (collect _ _ _ good satisfied) acted

/-- The entries, lowest first, stand for the tokens. -/
inductive EntriesDerive (G : Grammar) : List (Entry G) → List G.Token → Prop where
  | nil : EntriesDerive G [] []
  | cons (entry : Entry G) (entries : List (Entry G)) (tokens others : List G.Token)
      (first : Derives G entry.symbol tokens entry.value)
      (rest : EntriesDerive G entries others) :
      EntriesDerive G (entry :: entries) (tokens ++ others)

theorem EntriesDerive.append {low high : List (Entry G)} {tokens others : List G.Token}
    (first : EntriesDerive G low tokens) (second : EntriesDerive G high others) :
    EntriesDerive G (low ++ high) (tokens ++ others) := by
  induction first with
  | nil => exact second
  | cons entry entries own _ derived _ ih =>
      rw [List.append_assoc]
      exact .cons entry _ own _ derived ih

theorem EntriesDerive.of_append {low high : List (Entry G)} {tokens : List G.Token}
    (derived : EntriesDerive G (low ++ high) tokens) :
    ∃ first second, tokens = first ++ second ∧ EntriesDerive G low first ∧
      EntriesDerive G high second := by
  induction low generalizing tokens with
  | nil => exact ⟨[], tokens, rfl, .nil, derived⟩
  | cons entry low ih =>
      cases derived with
      | cons _ _ own others first rest =>
          obtain ⟨left, right, rfl, lowDerived, highDerived⟩ := ih rest
          refine ⟨own ++ left, right, by rw [List.append_assoc], ?_, highDerived⟩
          exact .cons entry low own left first lowDerived

theorem EntriesDerive.matchArgs {entries : List (Entry G)} {tokens : List G.Token}
    (derived : EntriesDerive G entries tokens) (rhs : List G.Symbol)
    (args : Args G.Sem rhs) (matched : Goyacc.matchArgs rhs entries = some args) :
    DerivesAll G rhs tokens args := by
  induction derived generalizing rhs with
  | nil =>
      cases rhs with
      | nil =>
          cases matched
          exact .nil
      | cons symbol rhs => cases matched
  | cons entry entries own others first _ ih =>
      cases rhs with
      | nil => cases matched
      | cons symbol rhs =>
          rw [Goyacc.matchArgs] at matched
          split at matched
          · rename_i same
            obtain ⟨rest, isRest, rfl⟩ := Option.map_eq_some_iff.mp matched
            subst same
            exact .cons _ rhs own others _ rest first (ih rhs rest isRest)
          · cases matched

/-! ### What one round can do -/

/-- The configuration as it is, or with a token read ahead. -/
def Ready (lexer : Lexer G) (config ready : Config G lexer.State) : Prop :=
  ready = config ∨ ∃ token, fetch lexer config = some (token, ready)

/-- The production that a state reduces by, by default or by an exception. -/
def Chosen (tables : Tables) (stack : List (Entry G)) (number : Int) : Prop :=
  number = tableEntry tables.defaults (stateOf stack) ∨
    ∃ token, number = exception (exceptionRows tables.exca (stateOf stack)) token

inductive Stepped (tables : Tables) (lexer : Lexer G) (config : Config G lexer.State) :
    Outcome G lexer.State → Prop where
  | shifted (ready next : Config G lexer.State) (token : G.Token) (target : Int)
      (fetched : fetch lexer config = some (some token, ready))
      (checked : tableEntry tables.chk target = G.number token)
      (isNext : shift ready (some token) target = some (.running next)) :
      Stepped tables lexer config (.running next)
  | accepted (ready : Config G lexer.State) (token : Option G.Token)
      (fetched : fetch lexer config = some (token, ready))
      (negative :
        exception (exceptionRows tables.exca (stateOf config.stack)) (tokenNumber token) < 0) :
      Stepped tables lexer config (.accepted ready)
  | recovered (ready : Config G lexer.State) (isReady : Ready lexer config ready) :
      Stepped tables lexer config (recover tables lexer ready)
  | reduced (ready : Config G lexer.State) (number : Int) (outcome : Outcome G lexer.State)
      (isReady : Ready lexer config ready) (chosen : Chosen tables config.stack number)
      (isOutcome : reduce tables ready number = some outcome) :
      Stepped tables lexer config outcome

section

variable {tables : Tables} {lexer : Lexer G}

theorem fetch_ready {config ready : Config G lexer.State} {token : Option G.Token}
    (fetched : fetch lexer config = some (token, ready)) :
    ready.lookahead = some token ∧ ready.stack = config.stack ∧
      fetch lexer ready = some (token, ready) := by
  unfold fetch at fetched
  split at fetched
  · rename_i own present
    cases fetched
    exact ⟨present, rfl, by rw [fetch, present]⟩
  · split at fetched
    · cases fetched
    · cases fetched
      exact ⟨rfl, rfl, rfl⟩

theorem byDefault_stepped {config ready : Config G lexer.State}
    {outcome : Outcome G lexer.State} (isReady : Ready lexer config ready)
    (defaulted : byDefault tables lexer ready = some outcome) :
    Stepped tables lexer config outcome := by
  have sameStack : ready.stack = config.stack := by
    rcases isReady with rfl | ⟨token, fetched⟩
    · rfl
    · exact (fetch_ready fetched).2.1
  -- A second request for a token changes nothing.
  have fetchAgain : ∀ token next, fetch lexer ready = some (token, next) →
      fetch lexer config = some (token, next) := by
    intro token next again
    rcases isReady with rfl | ⟨own, fetched⟩
    · exact again
    · rw [(fetch_ready fetched).2.2] at again
      cases again
      exact fetched
  unfold byDefault at defaulted
  dsimp only at defaulted
  split at defaulted
  · split at defaulted
    · cases defaulted
    · rename_i token next again
      have fetched := fetchAgain token next again
      split at defaulted
      · rename_i negative
        cases defaulted
        rw [sameStack] at negative
        exact .accepted next token fetched negative
      · split at defaulted
        · cases defaulted
          exact .recovered next (Or.inr ⟨token, fetched⟩)
        · refine .reduced next _ outcome (Or.inr ⟨token, fetched⟩)
            (Or.inr ⟨tokenNumber token, ?_⟩) defaulted
          rw [sameStack]
  · split at defaulted
    · cases defaulted
      exact .recovered ready isReady
    · refine .reduced ready _ outcome isReady (Or.inl ?_) defaulted
      rw [sameStack]

theorem step_stepped {config : Config G lexer.State} {outcome : Outcome G lexer.State}
    (stepped : step tables lexer config = some outcome) :
    Stepped tables lexer config outcome := by
  unfold step at stepped
  dsimp only at stepped
  split at stepped
  · exact byDefault_stepped (Or.inl rfl) stepped
  · split at stepped
    · cases stepped
    · rename_i token ready fetched
      split at stepped
      · exact byDefault_stepped (Or.inr ⟨token, fetched⟩) stepped
      · split at stepped
        · rename_i checked
          cases token with
          | none => cases stepped
          | some token =>
              cases stepped
              exact .shifted ready _ token _ fetched checked rfl
        · exact byDefault_stepped (Or.inr ⟨token, fetched⟩) stepped

theorem run_invariant {Inv : Config G lexer.State → Prop}
    (keeps : ∀ config next, Inv config →
      Stepped tables lexer config (.running next) → Inv next)
    {config : Config G lexer.State} {outcome : Outcome G lexer.State} {rounds : Nat}
    (first : Inv config) (ran : run tables lexer rounds config = some outcome) :
    ∃ last, Inv last ∧ Stepped tables lexer last outcome := by
  induction rounds generalizing config with
  | zero => cases ran
  | succ rounds ih =>
      rw [run] at ran
      split at ran
      · cases ran
      · rename_i next stepped
        exact ih (keeps config next first (step_stepped stepped)) ran
      · rename_i last _ stepped
        cases ran
        exact ⟨config, first, step_stepped stepped⟩

theorem run_ne_running (rounds : Nat) (config next : Config G lexer.State) :
    run tables lexer rounds config ≠ some (.running next) := by
  induction rounds generalizing config with
  | zero => exact fun ran => nomatch ran
  | succ rounds ih =>
      rw [run]
      split
      · exact fun ran => nomatch ran
      · rename_i own _
        exact ih own
      · rename_i outcome notRunning _
        intro ran
        exact notRunning next (Option.some.inj ran)

theorem resume_running {State : Type} {config next : Config G State}
    (resumed : resume tables config = .running next) :
    next.nerrs = config.nerrs ∧ next.lexer = config.lexer := by
  unfold resume at resumed
  split at resumed
  · cases resumed
  · cases resumed
    exact ⟨rfl, rfl⟩

theorem recover_running {config next : Config G lexer.State}
    (recovered : recover tables lexer config = .running next) :
    (config.errflag ≠ 0 ∧ next.nerrs = config.nerrs ∧ next.lexer = config.lexer) ∨
      (next.nerrs = config.nerrs + 1 ∧ next.lexer = lexer.report config.lexer) := by
  unfold recover at recovered
  split at recovered
  · exact Or.inr (resume_running recovered)
  · rename_i flagged
    exact Or.inl ⟨by rw [flagged]; decide, resume_running recovered⟩
  · rename_i flagged
    exact Or.inl ⟨by rw [flagged]; decide, resume_running recovered⟩
  · rename_i fresh _ _
    split at recovered
    · cases recovered
    · cases recovered
      exact Or.inl ⟨fresh, rfl, rfl⟩

theorem resume_rejected {State : Type} {config final : Config G State}
    (resumed : resume tables config = .rejected final) : final = config := by
  unfold resume at resumed
  split at resumed
  · cases resumed
    rfl
  · cases resumed

theorem recover_rejected {config final : Config G lexer.State}
    (recovered : recover tables lexer config = .rejected final) :
    (config.errflag ≠ 0 ∧ final.lexer = config.lexer) ∨
      final.lexer = lexer.report config.lexer := by
  unfold recover at recovered
  split at recovered
  · exact Or.inr (by rw [resume_rejected recovered])
  · rename_i flagged
    exact Or.inl ⟨by rw [flagged]; decide, by rw [resume_rejected recovered]⟩
  · rename_i flagged
    exact Or.inl ⟨by rw [flagged]; decide, by rw [resume_rejected recovered]⟩
  · rename_i fresh _ _
    split at recovered
    · cases recovered
      exact Or.inl ⟨fresh, rfl⟩
    · cases recovered

theorem recover_ne_accepted (config next : Config G lexer.State) :
    recover tables lexer config ≠ .accepted next := by
  intro accepted
  unfold recover resume at accepted
  split at accepted
  · split at accepted <;> cases accepted
  · split at accepted <;> cases accepted
  · split at accepted <;> cases accepted
  · split at accepted <;> cases accepted

/-- The entries for the right-hand side of a production, lowest first. -/
def handle (tables : Tables) (stack : List (Entry G)) (number : Int) : List (Entry G) :=
  (stack.take (tableEntry tables.r2 number).toNat).reverse

def belowHandle (tables : Tables) (stack : List (Entry G)) (number : Int) : List (Entry G) :=
  stack.drop (tableEntry tables.r2 number).toNat

theorem reduce_running {State : Type} {config : Config G State}
    {outcome : Outcome G State} {number : Int}
    (reduced : reduce tables config number = some outcome) :
    (∃ failure next, outcome = .panicked failure next ∧
      ∃ production ∈ G.productions, ∃ slots args,
        matchArgs production.rhs (handle tables config.stack number) = some args ∧
        production.action slots args = .error failure) ∨
    ∃ next, outcome = .running next ∧ next.lookahead = config.lookahead ∧
      next.errflag = config.errflag ∧ next.nerrs = config.nerrs ∧
      next.lexer = config.lexer ∧
      ∃ production, G.productions[number.toNat - 1]? = some production ∧ ∃ slots args value,
        matchArgs production.rhs (handle tables config.stack number) = some args ∧
        production.action slots args = .ok value ∧
        next.stack =
          ⟨gotoState tables (stateOf (belowHandle tables config.stack number))
            (tableEntry tables.r1 number), production.lhs, value⟩ ::
          belowHandle tables config.stack number := by
  unfold reduce at reduced
  split at reduced
  · cases reduced
  · rename_i production found
    dsimp only at reduced
    split at reduced
    · cases reduced
    · rename_i args matched
      split at reduced
      · rename_i failure acted
        cases reduced
        exact Or.inl ⟨_, _, rfl, production, List.mem_of_getElem? found, _, args, matched, acted⟩
      · rename_i value acted
        cases reduced
        exact Or.inr ⟨_, rfl, rfl, rfl, rfl, rfl, production, found, _, args, value, matched,
          acted, rfl⟩

theorem stepped_accepted {config final : Config G lexer.State}
    (stepped : Stepped tables lexer config (.accepted final)) :
    ∃ token, fetch lexer config = some (token, final) ∧
      exception (exceptionRows tables.exca (stateOf config.stack)) (tokenNumber token) < 0 := by
  generalize isOutcome : Outcome.accepted final = outcome at stepped
  cases stepped with
  | shifted => cases isOutcome
  | accepted ready token fetched negative =>
      cases isOutcome
      exact ⟨token, fetched, negative⟩
  | recovered ready isReady => exact absurd isOutcome.symm (recover_ne_accepted ready final)
  | reduced ready number outcome isReady _ reduced =>
      subst isOutcome
      rcases reduce_running reduced with ⟨_, _, impossible, -⟩ | ⟨_, impossible, -⟩
      · cases impossible
      · cases impossible

theorem panicked_action {rounds : Nat} {config final : Config G lexer.State} {failure : G.Panic}
    (ran : run tables lexer rounds config = some (.panicked failure final)) :
    ∃ production ∈ G.productions, ∃ slots args, production.action slots args = .error failure := by
  obtain ⟨last, -, stepped⟩ := run_invariant (fun _ _ _ _ => trivial) trivial ran
  generalize isOutcome : Outcome.panicked failure final = outcome at stepped
  cases stepped with
  | shifted => cases isOutcome
  | accepted => cases isOutcome
  | recovered ready isReady =>
      unfold Goyacc.recover Goyacc.resume at isOutcome
      split at isOutcome
      all_goals split at isOutcome <;> cases isOutcome
  | reduced ready number outcome isReady _ reduced =>
      subst isOutcome
      rcases reduce_running reduced with ⟨_, _, same, production, member, slots, args, -, acted⟩ |
        ⟨_, impossible, -⟩
      · cases same
        exact ⟨production, member, slots, args, acted⟩
      · cases impossible

end

/-! ### The lexer -/

/-- The lexer gives these tokens one after the other. -/
inductive Lexed (lexer : Lexer G) : lexer.State → List G.Token → lexer.State → Prop where
  | nil (state : lexer.State) : Lexed lexer state [] state
  | cons (state next last : lexer.State) (token : G.Token) (tokens : List G.Token)
      (first : lexer.lex state = some (some token, next))
      (rest : Lexed lexer next tokens last) : Lexed lexer state (token :: tokens) last

theorem Lexed.concat {lexer : Lexer G} {state next last : lexer.State}
    {tokens : List G.Token} {token : G.Token} (front : Lexed lexer state tokens next)
    (final : lexer.lex next = some (some token, last)) :
    Lexed lexer state (tokens ++ [token]) last := by
  induction front with
  | nil state => exact .cons _ _ _ token [] final (.nil last)
  | cons state middle _ own others first _ ih => exact .cons _ _ _ own _ first (ih final)

/-- What the lexer has given: the tokens on the stack, and the one read ahead. -/
def Taken (lexer : Lexer G) (start : lexer.State) (shifted : List G.Token)
    (lookahead : Option (Option G.Token)) (state : lexer.State) : Prop :=
  match lookahead with
  | none => Lexed lexer start shifted state
  | some token =>
      ∃ before, Lexed lexer start shifted before ∧ lexer.lex before = some (token, state)

/-- As long as there was no syntax error, the stack stands for all tokens that
were shifted. -/
def Sound (lexer : Lexer G) (start : lexer.State) (config : Config G lexer.State) : Prop :=
  config.nerrs = 0 → config.errflag = 0 ∧
    ∃ shifted, EntriesDerive G config.stack.reverse shifted ∧
      Taken lexer start shifted config.lookahead config.lexer

section

variable {tables : Tables} {lexer : Lexer G} {start : lexer.State}

theorem sound_start (memory : Memory G.Cell) :
    Sound lexer start (Config.start memory start) := by
  intro _
  exact ⟨rfl, [], .nil, .nil start⟩

theorem Sound.fetch {config ready : Config G lexer.State} {token : Option G.Token}
    (sound : Sound lexer start config)
    (fetched : Goyacc.fetch lexer config = some (token, ready)) :
    Sound lexer start ready := by
  unfold Goyacc.fetch at fetched
  split at fetched
  · cases fetched
    exact sound
  · rename_i absent
    split at fetched
    · cases fetched
    · rename_i own state lexed
      cases fetched
      intro noErrors
      obtain ⟨flag, shifted, derived, taken⟩ := sound noErrors
      rw [absent] at taken
      exact ⟨flag, shifted, derived, _, taken, lexed⟩

theorem Sound.ready {config ready : Config G lexer.State} (sound : Sound lexer start config)
    (isReady : Ready lexer config ready) : Sound lexer start ready := by
  rcases isReady with rfl | ⟨token, fetched⟩
  · exact sound
  · exact sound.fetch fetched

theorem Sound.shift {ready next : Config G lexer.State} {token : G.Token} {target : Int}
    (sound : Sound lexer start ready) (ahead : ready.lookahead = some (some token))
    (shifted : Goyacc.shift ready (some token) target = some (.running next)) :
    Sound lexer start next := by
  cases shifted
  intro noErrors
  obtain ⟨flag, before, derived, taken⟩ := sound noErrors
  rw [ahead] at taken
  obtain ⟨state, lexed, final⟩ := taken
  have flagged : ready.errflag - 1 = 0 := by omega
  refine ⟨flagged, before ++ [token], ?_, lexed.concat final⟩
  change EntriesDerive G (_ :: ready.stack).reverse _
  rw [List.reverse_cons]
  apply derived.append
  rw [← List.append_nil [token]]
  exact .cons _ [] [token] [] (.token token) .nil

theorem Sound.recover {ready next : Config G lexer.State} (sound : Sound lexer start ready)
    (recovered : Goyacc.recover tables lexer ready = .running next) :
    Sound lexer start next := by
  intro noErrors
  rcases recover_running recovered with ⟨flagged, counted, -⟩ | ⟨counted, -⟩
  · rw [counted] at noErrors
    exact absurd (sound noErrors).1 flagged
  · rw [counted] at noErrors
    cases noErrors

theorem Sound.reduce {ready next : Config G lexer.State} {number : Int}
    (sound : Sound lexer start ready)
    (reduced : Goyacc.reduce tables ready number = some (.running next)) :
    Sound lexer start next := by
  rcases reduce_running reduced with ⟨_, _, impossible, -⟩ |
    ⟨_, isNext, lookahead, errflag, nerrs, state, production, found, slots, args, value,
      matched, acted, stack⟩
  · cases impossible
  · cases isNext
    intro noErrors
    rw [nerrs] at noErrors
    obtain ⟨flag, shifted, derived, taken⟩ := sound noErrors
    rw [lookahead, state, errflag, stack]
    refine ⟨flag, shifted, ?_, taken⟩
    -- The stack is what stays below, and the entries of the right-hand side.
    rw [← List.take_append_drop (tableEntry tables.r2 number).toNat ready.stack,
      List.reverse_append] at derived
    obtain ⟨low, high, rfl, lowDerived, highDerived⟩ := derived.of_append
    have parts := highDerived.matchArgs production.rhs args matched
    rw [List.reverse_cons]
    apply lowDerived.append
    rw [← List.append_nil high]
    refine .cons _ [] high [] ?_ .nil
    exact .production production (List.mem_of_getElem? found) slots high args value parts acted

theorem Sound.stepped {config next : Config G lexer.State} (sound : Sound lexer start config)
    (stepped : Stepped tables lexer config (.running next)) : Sound lexer start next := by
  generalize isOutcome : Outcome.running next = outcome at stepped
  cases stepped with
  | shifted ready own token target fetched _ isNext =>
      cases isOutcome
      exact (sound.fetch fetched).shift (fetch_ready fetched).1 isNext
  | accepted => cases isOutcome
  | recovered ready isReady => exact (sound.ready isReady).recover isOutcome.symm
  | reduced ready number outcome isReady _ reduced =>
      subst isOutcome
      exact (sound.ready isReady).reduce reduced

end

/-- The stack of a run that accepts stands for all that the lexer gave before the
end of the input. -/
theorem accepted_derives (tables : Tables) (lexer : Lexer G)
    (acceptsAtEnd : ∀ state (token : Option G.Token),
      exception (exceptionRows tables.exca state) (tokenNumber token) < 0 → token = none)
    (memory : Memory G.Cell) (start : lexer.State) (rounds : Nat)
    (final : Config G lexer.State)
    (ran : run tables lexer rounds (Config.start memory start) = some (.accepted final))
    (clean : final.nerrs = 0) :
    ∃ tokens before, EntriesDerive G final.stack.reverse tokens ∧
      Lexed lexer start tokens before ∧ lexer.lex before = some (none, final.lexer) := by
  have first : Sound lexer start (Config.start memory start) := sound_start memory
  obtain ⟨last, sound, stepped⟩ :=
    run_invariant (fun _ _ sound stepped => sound.stepped stepped) first ran
  obtain ⟨token, fetched, negative⟩ := stepped_accepted stepped
  obtain ⟨-, shifted, derived, taken⟩ := sound.fetch fetched clean
  cases acceptsAtEnd _ token negative
  rw [(fetch_ready fetched).1] at taken
  obtain ⟨before, lexed, ended⟩ := taken
  exact ⟨shifted, before, derived, lexed, ended⟩

/-! ### Syntax errors -/

section

variable {tables : Tables} {lexer : Lexer G} {Failed : lexer.State → Prop}

/-- A parser that has met a syntax error has reported it. -/
def Reported (Failed : lexer.State → Prop) (config : Config G lexer.State) : Prop :=
  config.errflag ≠ 0 ∨ config.nerrs ≠ 0 → Failed config.lexer

theorem reported_start (memory : Memory G.Cell) (start : lexer.State) :
    Reported Failed (Config.start memory start) := by
  rintro (flagged | counted)
  · exact absurd rfl flagged
  · exact absurd rfl counted

variable (stays : ∀ state token next, lexer.lex state = some (token, next) →
  Failed state → Failed next)

include stays

theorem Reported.fetch {config ready : Config G lexer.State} {token : Option G.Token}
    (reported : Reported Failed config)
    (fetched : Goyacc.fetch lexer config = some (token, ready)) : Reported Failed ready := by
  unfold Goyacc.fetch at fetched
  split at fetched
  · cases fetched
    exact reported
  · split at fetched
    · cases fetched
    · rename_i own state lexed
      cases fetched
      exact fun erroneous => stays _ _ _ lexed (reported erroneous)

theorem Reported.ready {config ready : Config G lexer.State} (reported : Reported Failed config)
    (isReady : Ready lexer config ready) : Reported Failed ready := by
  rcases isReady with rfl | ⟨token, fetched⟩
  · exact reported
  · exact reported.fetch stays fetched

theorem Reported.stepped (reports : ∀ state, Failed (lexer.report state))
    {config next : Config G lexer.State} (reported : Reported Failed config)
    (stepped : Stepped tables lexer config (.running next)) : Reported Failed next := by
  generalize isOutcome : Outcome.running next = outcome at stepped
  cases stepped with
  | shifted ready own token target fetched _ isNext =>
      cases isOutcome
      cases isNext
      have before := reported.fetch stays fetched
      rintro (flagged | counted)
      · have earlier : ready.errflag ≠ 0 := fun none =>
          flagged (by rw [show _ = ready.errflag - 1 from rfl, none])
        exact before (Or.inl earlier)
      · exact before (Or.inr counted)
  | accepted => cases isOutcome
  | recovered ready isReady =>
      rcases recover_running isOutcome.symm with ⟨flagged, _, state⟩ | ⟨_, state⟩
      · intro _
        rw [state]
        exact reported.ready stays isReady (Or.inl flagged)
      · intro _
        rw [state]
        exact reports ready.lexer
  | reduced ready number outcome isReady _ reduced =>
      subst isOutcome
      rcases reduce_running reduced with ⟨_, _, impossible, -⟩ |
        ⟨_, isNext, -, flagged, counted, state, -⟩
      · cases impossible
      · cases isNext
        have before := reported.ready stays isReady
        rw [Reported, flagged, counted, state]
        exact before

end

section

variable (tables : Tables) (lexer : Lexer G) (Failed : lexer.State → Prop)
  (stays : ∀ state token next, lexer.lex state = some (token, next) →
    Failed state → Failed next)
  (reports : ∀ state, Failed (lexer.report state))
  (memory : Memory G.Cell) (start : lexer.State) (rounds : Nat) (final : Config G lexer.State)

include stays reports

/-- A fact that reporting an error establishes, and that no call of the lexer takes
away, holds at the end of a run with a syntax error. -/
theorem accepted_reported
    (ran : run tables lexer rounds (Config.start memory start) = some (.accepted final))
    (erroneous : final.nerrs ≠ 0) : Failed final.lexer := by
  obtain ⟨last, reported, stepped⟩ := run_invariant
    (fun _ _ reported stepped => reported.stepped stays reports stepped)
    (reported_start memory start) ran
  obtain ⟨token, fetched, -⟩ := stepped_accepted stepped
  exact reported.fetch stays fetched (Or.inr erroneous)

theorem rejected_reported
    (ran : run tables lexer rounds (Config.start memory start) = some (.rejected final)) :
    Failed final.lexer := by
  obtain ⟨last, reported, stepped⟩ := run_invariant
    (fun _ _ reported stepped => reported.stepped stays reports stepped)
    (reported_start memory start) ran
  generalize isOutcome : Outcome.rejected final = outcome at stepped
  cases stepped with
  | shifted => cases isOutcome
  | accepted => cases isOutcome
  | recovered ready isReady =>
      rcases recover_rejected isOutcome.symm with ⟨flagged, state⟩ | state
      · rw [state]
        exact reported.ready stays isReady (Or.inl flagged)
      · rw [state]
        exact reports ready.lexer
  | reduced ready number outcome isReady _ reduced =>
      subst isOutcome
      rcases reduce_running reduced with ⟨_, _, impossible, -⟩ | ⟨_, impossible, -⟩
      · cases impossible
      · cases impossible

end

end McoaGateway.Goyacc
