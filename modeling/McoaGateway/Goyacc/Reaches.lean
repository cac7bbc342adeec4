/-
What a generated parser does with given tokens.

`Reaches` says that the parser, in a state and in front of some tokens, comes to have a
symbol with a value on its stack, whatever lexer gives the tokens.  It is put together
from tokens that the tables shift (`reaches_token`) and from productions that they reduce
(`reaches_production`).  If the whole input is reached, the parser accepts it
(`Reaches.accepted`).
-/

import McoaGateway.Goyacc.Stack

namespace McoaGateway.Goyacc

variable {G : Grammar}

/-! ### What the tables say -/

/-- What is done in a state when a token follows. -/
inductive Decision where
  | shift (target : Int)
  | reduce (number : Int)
  | accept
  | error
deriving DecidableEq, Repr

/-- The state after a token, where it can be shifted. -/
def shiftTarget (tables : Tables) (state token : Int) : Option Int :=
  let base := tableEntry tables.pact state
  let index := base + token
  let target := tableEntry tables.act index
  if tables.flag < base ∧ 0 ≤ index ∧ index < tables.last ∧
      tableEntry tables.chk target = token then some target
  else none

def defaultDecision (tables : Tables) (state token : Int) : Decision :=
  let code := tableEntry tables.defaults state
  if code = -2 then
    let code := exception (exceptionRows tables.exca state) token
    if code < 0 then .accept else if code = 0 then .error else .reduce code
  else if code = 0 then .error else .reduce code

def decision (tables : Tables) (state token : Int) : Decision :=
  match shiftTarget tables state token with
  | some target => .shift target
  | none => defaultDecision tables state token

/-- The state after several tokens that are all shifted. -/
def shiftPath (tables : Tables) : Int → List Int → Option Int
  | state, [] => some state
  | state, token :: tokens =>
      match decision tables state token with
      | .shift target => shiftPath tables target tokens
      | _ => none

/-! ### The tokens that a lexer will give -/

/-- The lexer gives these tokens and then the end. -/
inductive Gives (lexer : Lexer G) : lexer.State → List G.Token → lexer.State → Prop where
  | nil (state final : lexer.State) (ended : lexer.lex state = some (none, final)) :
      Gives lexer state [] final
  | cons (state next final : lexer.State) (token : G.Token) (tokens : List G.Token)
      (first : lexer.lex state = some (some token, next)) (rest : Gives lexer next tokens final) :
      Gives lexer state (token :: tokens) final

theorem gives_of_lexed {lexer : Lexer G} {state last final : lexer.State} {tokens : List G.Token}
    (lexed : Lexed lexer state tokens last) (ended : lexer.lex last = some (none, final)) :
    Gives lexer state tokens final := by
  induction lexed with
  | nil state => exact .nil state final ended
  | cons state next _ token tokens first _ ih =>
      exact .cons state next final token tokens first (ih ended)

/-- The tokens that are not shifted yet; the first one may have been read ahead. -/
def Remaining (lexer : Lexer G) (config : Config G lexer.State) (tokens : List G.Token)
    (final : lexer.State) : Prop :=
  match config.lookahead with
  | none => Gives lexer config.lexer tokens final
  | some none => tokens = [] ∧ config.lexer = final
  | some (some token) => ∃ rest, tokens = token :: rest ∧ Gives lexer config.lexer rest final

section

variable {tables : Tables} {lexer : Lexer G} {final : lexer.State}

/-- The configuration, with the next token read ahead or not. -/
structure Prepared (config ready : Config G lexer.State) (tokens : List G.Token)
    (final : lexer.State) : Prop where
  remaining : Remaining lexer ready tokens final
  stack : ready.stack = config.stack
  errflag : ready.errflag = config.errflag

/-- The first of the remaining tokens is the next one. -/
theorem Remaining.fetch {config : Config G lexer.State} {tokens : List G.Token}
    (remaining : Remaining lexer config tokens final) :
    ∃ ready, fetch lexer config = some (tokens.head?, ready) ∧
      ready.lookahead = some tokens.head? ∧ Prepared config ready tokens final := by
  have itself := remaining
  unfold Remaining at remaining
  unfold Goyacc.fetch
  cases isAhead : config.lookahead with
  | none =>
      rw [isAhead] at remaining
      dsimp only at remaining ⊢
      cases remaining with
      | nil _ _ ended =>
          rw [ended]
          exact ⟨_, rfl, rfl, ⟨rfl, rfl⟩, rfl, rfl⟩
      | cons _ next _ token tokens first rest =>
          rw [first]
          exact ⟨_, rfl, rfl, ⟨tokens, rfl, rest⟩, rfl, rfl⟩
  | some ahead =>
      rw [isAhead] at remaining
      cases ahead with
      | none =>
          obtain ⟨rfl, -⟩ := remaining
          exact ⟨config, rfl, isAhead, itself, rfl, rfl⟩
      | some token =>
          obtain ⟨rest, rfl, -⟩ := remaining
          exact ⟨config, rfl, isAhead, itself, rfl, rfl⟩

/-- The outcome of a round in which this is done. -/
def Decided (tables : Tables) (lexer : Lexer G) (ready : Config G lexer.State)
    (token : Option G.Token) (choice : Decision) (outcome : Option (Outcome G lexer.State)) :
    Prop :=
  match choice with
  | .shift target => ready.lookahead = some token ∧ outcome = shift ready token target
  | .reduce number => outcome = reduce tables ready number
  | .accept => outcome = some (.accepted ready)
  | .error => outcome = some (recover tables lexer ready)

variable (tables) in
theorem byDefault_decided {config : Config G lexer.State} {tokens : List G.Token}
    (remaining : Remaining lexer config tokens final) :
    ∃ ready, Prepared config ready tokens final ∧
      Decided tables lexer ready tokens.head?
        (defaultDecision tables (stateOf config.stack) (tokenNumber tokens.head?))
        (byDefault tables lexer config) := by
  obtain ⟨ready, fetched, -, prepared⟩ := remaining.fetch
  unfold byDefault defaultDecision
  dsimp only
  split
  · rw [fetched]
    refine ⟨ready, prepared, ?_⟩
    dsimp only
    split
    · exact rfl
    · split
      · exact rfl
      · exact rfl
  · refine ⟨config, ⟨remaining, rfl, rfl⟩, ?_⟩
    split
    · exact rfl
    · exact rfl

variable (tables) in
/-- A round follows the tables. -/
theorem step_decided {config : Config G lexer.State} {tokens : List G.Token}
    (remaining : Remaining lexer config tokens final) :
    ∃ ready, Prepared config ready tokens final ∧
      Decided tables lexer ready tokens.head?
        (decision tables (stateOf config.stack) (tokenNumber tokens.head?))
        (step tables lexer config) := by
  obtain ⟨ready, fetched, ahead, prepared⟩ := remaining.fetch
  have whenFetched : ∃ own, Prepared config own tokens final ∧
      Decided tables lexer own tokens.head?
        (defaultDecision tables (stateOf config.stack) (tokenNumber tokens.head?))
        (byDefault tables lexer ready) := by
    obtain ⟨own, others, decided⟩ := byDefault_decided tables prepared.remaining
    rw [prepared.stack] at decided
    exact ⟨own, ⟨others.remaining, others.stack.trans prepared.stack,
      others.errflag.trans prepared.errflag⟩, decided⟩
  unfold step decision shiftTarget
  dsimp only
  by_cases simple : tableEntry tables.pact (stateOf config.stack) ≤ tables.flag
  · rw [if_pos simple, if_neg (fun all => absurd all.1 (Int.not_lt.mpr simple))]
    exact byDefault_decided tables remaining
  · rw [if_neg simple, fetched]
    dsimp only
    generalize tableEntry tables.pact (stateOf config.stack) + tokenNumber tokens.head? = index
    by_cases outside : index < 0 ∨ tables.last ≤ index
    · rw [if_pos outside, if_neg (fun all => by omega)]
      exact whenFetched
    · rw [if_neg outside]
      by_cases checked :
          tableEntry tables.chk (tableEntry tables.act index) = tokenNumber tokens.head?
      · rw [if_pos checked, if_pos ⟨Int.not_le.mp simple, by omega, by omega, checked⟩]
        exact ⟨ready, prepared, ahead, rfl⟩
      · rw [if_neg checked, if_neg (fun all => checked all.2.2.2)]
        exact whenFetched

theorem advance_trans {first second : Nat} {config middle last : Config G lexer.State}
    (front : advance tables lexer first config = some middle)
    (back : advance tables lexer second middle = some last) :
    advance tables lexer (first + second) config = some last := by
  induction first generalizing config with
  | zero =>
      cases front
      rw [Nat.zero_add]
      exact back
  | succ first ih =>
      rw [Nat.succ_add, advance]
      rw [advance] at front
      split at front
      · exact ih front
      · cases front

theorem advance_one {config next : Config G lexer.State}
    (stepped : step tables lexer config = some (.running next)) :
    advance tables lexer 1 config = some next := by
  rw [advance, stepped]
  rfl

end

/-! ### Reaching a symbol -/

section

-- The values that an action does not distinguish.
variable (Alike : (symbol : G.Symbol) → G.Sem symbol → G.Sem symbol → Prop)

inductive AlikeAt : (symbol : G.Symbol) → G.Sem symbol → (other : G.Symbol) → G.Sem other →
    Prop where
  | same {symbol : G.Symbol} {value value' : G.Sem symbol} (alike : Alike symbol value value') :
      AlikeAt symbol value symbol value'

structure TokenAlike (token token' : G.Token) : Prop where
  number : G.number token' = G.number token
  value : AlikeAt Alike (G.kind token) (G.value token) (G.kind token') (G.value token')

def ArgsAlike : (symbols : List G.Symbol) → Args G.Sem symbols → Args G.Sem symbols → Prop
  | [], _, _ => True
  | symbol :: symbols, (value, args), (value', args') =>
      Alike symbol value value' ∧ ArgsAlike symbols args args'

/-- The number of the first token, or else of the one that follows. -/
def firstNumber (tokens : List G.Token) (follower : Int) : Int :=
  match tokens with
  | [] => follower
  | token :: _ => G.number token

/-- In the state, the parser reads the tokens as the symbol, when the token with this number
follows.  The tokens that the lexer gives may differ in what no action reads. -/
def Reaches (tables : Tables) (state : Int) (symbol : G.Symbol) (tokens : List G.Token)
    (follower : Int) (value : G.Sem symbol) (target : Int) : Prop :=
  ∀ (lexer : Lexer G) (final : lexer.State) (config : Config G lexer.State)
    (given rest : List G.Token),
    stateOf config.stack = state → config.errflag = 0 →
    List.Forall₂ (TokenAlike Alike) tokens given →
    Remaining lexer config (given ++ rest) final → tokenNumber rest.head? = follower →
    ∃ rounds next value', advance tables lexer rounds config = some next ∧
      next.stack = ⟨target, symbol, value'⟩ :: config.stack ∧ Alike symbol value value' ∧
      next.errflag = 0 ∧ Remaining lexer next rest final

/-- The same for several symbols. -/
def ReachesAll (tables : Tables) (state : Int) (symbols : List G.Symbol) (tokens : List G.Token)
    (follower : Int) (args : Args G.Sem symbols) (target : Int) : Prop :=
  ∀ (lexer : Lexer G) (final : lexer.State) (config : Config G lexer.State)
    (given rest : List G.Token),
    stateOf config.stack = state → config.errflag = 0 →
    List.Forall₂ (TokenAlike Alike) tokens given →
    Remaining lexer config (given ++ rest) final → tokenNumber rest.head? = follower →
    ∃ rounds next entries args', advance tables lexer rounds config = some next ∧
      next.stack = entries ++ config.stack ∧ entries.length = symbols.length ∧
      matchArgs symbols entries.reverse = some args' ∧ ArgsAlike Alike symbols args args' ∧
      stateOf next.stack = target ∧ next.errflag = 0 ∧ Remaining lexer next rest final

def tokenArgs : (tokens : List G.Token) → Args G.Sem (tokens.map G.kind)
  | [] => ()
  | token :: tokens => (G.value token, tokenArgs tokens)

end

section

variable {tables : Tables} {Alike : (symbol : G.Symbol) → G.Sem symbol → G.Sem symbol → Prop}

theorem AlikeAt.entry {symbol other : G.Symbol} {value : G.Sem symbol} {value' : G.Sem other}
    (alike : AlikeAt Alike symbol value other value') (state : Int) :
    ∃ own, Alike symbol value own ∧
      (⟨state, other, value'⟩ : Entry G) = ⟨state, symbol, own⟩ := by
  cases alike with
  | same alike => exact ⟨_, alike, rfl⟩

theorem reaches_token {state : Int} {token : G.Token} {follower target : Int}
    (shifts : decision tables state (G.number token) = .shift target) :
    Reaches Alike tables state (G.kind token) [token] follower (G.value token) target := by
  intro lexer final config given rest isState flag alike remaining isFollower
  cases alike with
  | cons first others =>
      rename_i own more
      cases others
      obtain ⟨ready, prepared, decided⟩ := step_decided tables remaining
      rw [isState, List.cons_append, List.head?_cons, tokenNumber, first.number, shifts] at decided
      obtain ⟨isAhead, stepped⟩ := decided
      have gives : Gives lexer ready.lexer rest final := by
        have all := prepared.remaining
        unfold Remaining at all
        rw [isAhead] at all
        obtain ⟨tail, same, gives⟩ := all
        cases same
        exact gives
      obtain ⟨ownValue, alike, isEntry⟩ := first.value.entry target
      refine ⟨1, _, ownValue, advance_one stepped, ?_, alike, ?_, gives⟩
      · rw [← prepared.stack, ← isEntry]
        rfl
      · have flagged := prepared.errflag.trans flag
        change ready.errflag - 1 = 0
        omega

theorem reachesAll_nil (state follower : Int) :
    ReachesAll Alike tables state [] [] follower () state := by
  intro lexer final config given rest isState flag alike remaining isFollower
  cases alike
  exact ⟨0, config, [], (), rfl, rfl, rfl, rfl, trivial, isState, flag, remaining⟩

theorem firstNumber_alike {tokens given : List G.Token} (rest : List G.Token)
    (alike : List.Forall₂ (TokenAlike Alike) tokens given) :
    tokenNumber (given ++ rest).head? = firstNumber tokens (tokenNumber rest.head?) := by
  cases alike with
  | nil => rfl
  | cons first _ => exact first.number

theorem tokensAlike_split {front back given : List G.Token}
    (alike : List.Forall₂ (TokenAlike Alike) (front ++ back) given) :
    ∃ own others, given = own ++ others ∧ List.Forall₂ (TokenAlike Alike) front own ∧
      List.Forall₂ (TokenAlike Alike) back others := by
  induction front generalizing given with
  | nil => exact ⟨[], given, rfl, .nil, alike⟩
  | cons token front ih =>
      cases alike with
      | cons first more =>
          obtain ⟨own, others, rfl, ownAlike, othersAlike⟩ := ih more
          exact ⟨_ :: own, others, rfl, .cons first ownAlike, othersAlike⟩

theorem reachesAll_cons {state : Int} {symbol : G.Symbol} {symbols : List G.Symbol}
    {tokens others : List G.Token} {follower : Int} {value : G.Sem symbol}
    {args : Args G.Sem symbols} {middle last : Int}
    (first : Reaches Alike tables state symbol tokens (firstNumber others follower) value middle)
    (more : ReachesAll Alike tables middle symbols others follower args last) :
    ReachesAll Alike tables state (symbol :: symbols) (tokens ++ others) follower (value, args)
      last := by
  intro lexer final config given rest isState flag alike remaining isFollower
  obtain ⟨own, back, rfl, ownAlike, backAlike⟩ := tokensAlike_split alike
  rw [List.append_assoc] at remaining
  obtain ⟨rounds, next, value', advanced, stack, valueAlike, nextFlag, others⟩ :=
    first lexer final config own (back ++ rest) isState flag ownAlike remaining (by
      rw [firstNumber_alike rest backAlike, isFollower])
  obtain ⟨more, last, entries, args', onward, lastStack, count, matched, argsAlike, isLast,
      lastFlag, left⟩ :=
    more lexer final next back rest (by rw [stack]; rfl) nextFlag backAlike others isFollower
  refine ⟨rounds + more, last, entries ++ [⟨middle, symbol, value'⟩], (value', args'),
    advance_trans advanced onward, ?_, ?_, ?_, ⟨valueAlike, argsAlike⟩, isLast, lastFlag, left⟩
  · rw [lastStack, stack, List.append_assoc]
    rfl
  · rw [List.length_append, count]
    rfl
  · rw [List.reverse_append, List.reverse_singleton, List.singleton_append, matchArgs,
      dif_pos rfl, matched]
    rfl

/-- Tokens that are all shifted. -/
theorem reachesAll_tokens {state follower last : Int} {tokens : List G.Token}
    (shifted : shiftPath tables state (tokens.map G.number) = some last) :
    ReachesAll Alike tables state (tokens.map G.kind) tokens follower (tokenArgs tokens) last := by
  induction tokens generalizing state with
  | nil =>
      cases shifted
      exact reachesAll_nil _ follower
  | cons token tokens ih =>
      rw [List.map_cons, shiftPath] at shifted
      split at shifted
      · rename_i target shifts
        exact reachesAll_cons (reaches_token shifts) (ih shifted)
      · cases shifted

/-- A production whose action gives the value for all arguments that are alike. -/
theorem reaches_production {state : Int} {production : Production G.Sem G.Panic} {number : Int}
    (found : G.productions[number.toNat - 1]? = some production)
    (count : (tableEntry tables.r2 number).toNat = production.rhs.length)
    {tokens : List G.Token} {follower last : Int} {args : Args G.Sem production.rhs}
    (parts : ReachesAll Alike tables state production.rhs tokens follower args last)
    (reduces : decision tables last follower = .reduce number) {value : G.Sem production.lhs}
    (alike : Alike production.lhs value value)
    (acted : ∀ slots args', ArgsAlike Alike production.rhs args args' →
      production.action slots args' = .ok value) :
    Reaches Alike tables state production.lhs tokens follower value
      (gotoState tables state (tableEntry tables.r1 number)) := by
  intro lexer final config given rest isState flag tokensAlike remaining isFollower
  obtain ⟨rounds, next, entries, args', advanced, stack, length, matched, argsAlike, isLast,
    nextFlag, left⟩ :=
    parts lexer final config given rest isState flag tokensAlike remaining isFollower
  obtain ⟨ready, prepared, decided⟩ := step_decided tables left
  rw [isLast, isFollower, reduces] at decided
  have reduced : step tables lexer next = reduce tables ready number := decided
  have onStack : ready.stack = entries ++ config.stack := prepared.stack.trans stack
  have top : ready.stack.take (tableEntry tables.r2 number).toNat = entries := by
    rw [count, onStack, ← length, List.take_left]
  have below : ready.stack.drop (tableEntry tables.r2 number).toNat = config.stack := by
    rw [count, onStack, ← length, List.drop_left]
  unfold reduce at reduced
  rw [found] at reduced
  dsimp only at reduced
  rw [top, below, matched] at reduced
  dsimp only at reduced
  rw [acted _ args' argsAlike] at reduced
  refine ⟨rounds + 1, _, value, advance_trans advanced (advance_one reduced), ?_, alike, ?_,
    prepared.remaining⟩
  · rw [isState]
    rfl
  · exact prepared.errflag.trans nextFlag

theorem run_of_advance {lexer : Lexer G} {rounds : Nat} {config next : Config G lexer.State}
    {outcome : Outcome G lexer.State} (advanced : advance tables lexer rounds config = some next)
    (stepped : step tables lexer next = some outcome)
    (returned : ∀ own, outcome ≠ .running own) :
    run tables lexer (rounds + 1) config = some outcome := by
  induction rounds generalizing config with
  | zero =>
      cases advanced
      rw [run, stepped]
      cases outcome with
      | running own => exact absurd rfl (returned own)
      | accepted => rfl
      | rejected => rfl
      | panicked => rfl
  | succ rounds ih =>
      rw [advance] at advanced
      split at advanced
      · rename_i own isOwn
        rw [run, isOwn]
        exact ih advanced
      · cases advanced

/-- The parser accepts an input that it reads as a symbol. -/
theorem Reaches.accepted {symbol : G.Symbol} {tokens given : List G.Token}
    {value : G.Sem symbol} {target : Int}
    (reaches : Reaches Alike tables 0 symbol tokens endCode value target)
    (accepts : decision tables target endCode = .accept)
    (alike : List.Forall₂ (TokenAlike Alike) tokens given) (memory : Memory G.Cell)
    {lexer : Lexer G} {start final : lexer.State} (gives : Gives lexer start given final) :
    ∃ rounds last value', run tables lexer rounds (Config.start memory start) =
        some (.accepted last) ∧
      last.stack = [⟨target, symbol, value'⟩] ∧ Alike symbol value value' ∧
      last.lexer = final := by
  have remaining : Remaining lexer (Config.start memory start) (given ++ []) final := by
    rw [List.append_nil]
    exact gives
  obtain ⟨rounds, next, value', advanced, stack, valueAlike, -, left⟩ :=
    reaches lexer final (Config.start memory start) given [] rfl rfl alike remaining rfl
  obtain ⟨ready, prepared, decided⟩ := step_decided tables left
  rw [stack] at decided
  rw [show decision tables (stateOf (⟨target, symbol, value'⟩ ::
      (Config.start memory start).stack)) (tokenNumber ([] : List G.Token).head?) = .accept
    from accepts] at decided
  have stepped : step tables lexer next = some (.accepted ready) := decided
  refine ⟨rounds + 1, ready, value', run_of_advance advanced stepped (fun _ => nofun),
    prepared.stack.trans stack, valueAlike, ?_⟩
  obtain ⟨token, fetched, -⟩ := stepped_accepted (step_stepped stepped)
  have isAhead := (fetch_ready fetched).1
  have all := prepared.remaining
  unfold Remaining at all
  rw [isAhead] at all
  cases token with
  | none => exact all.2
  | some token =>
      obtain ⟨rest, impossible, -⟩ := all
      cases impossible

end

end McoaGateway.Goyacc
