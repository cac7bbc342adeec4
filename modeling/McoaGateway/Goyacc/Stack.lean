/-
The stack of a generated parser.

A relation between neighbours on the stack that the tables establish holds in all
configurations of a run (`Linked`).
-/

import McoaGateway.Goyacc.Derivation

namespace McoaGateway.Goyacc

variable {G : Grammar}

/-! ### Neighbours on the stack -/

def Linked (Link : Int → Entry G → Prop) : List (Entry G) → Prop
  | [] => True
  | entry :: below => Link (stateOf below) entry ∧ Linked Link below

theorem Linked.drop {Link : Int → Entry G → Prop} {stack : List (Entry G)}
    (linked : Linked Link stack) (count : Nat) : Linked Link (stack.drop count) := by
  induction count generalizing stack with
  | zero => exact linked
  | succ count ih =>
      cases stack with
      | nil => trivial
      | cons entry below => exact ih linked.2

/-- The tables establish the relation when something is put on the stack. -/
structure Links (tables : Tables) (Link : Int → Entry G → Prop) : Prop where
  shift : ∀ state token target, tableEntry tables.chk target = G.number token →
    Link state ⟨target, G.kind token, G.value token⟩
  error : ∀ state target, tableEntry tables.chk target = errorCode →
    Link state ⟨target, G.errorSymbol, G.errorValue⟩
  reduce : ∀ stack number production value, Linked Link stack →
    Chosen tables stack number → G.productions[number.toNat - 1]? = some production →
    Link (stateOf (belowHandle tables stack number))
      ⟨gotoState tables (stateOf (belowHandle tables stack number))
        (tableEntry tables.r1 number), production.lhs, value⟩

section

variable {tables : Tables} {Link : Int → Entry G → Prop}

theorem errorShift_checked {state target : Int} (shifts : errorShift tables state = some target) :
    tableEntry tables.chk target = errorCode := by
  unfold errorShift at shifts
  dsimp only at shifts
  split at shifts
  · rename_i checked
    cases shifts
    exact checked.2.2
  · cases shifts

theorem popToError_suffix {stack below : List (Entry G)} {target : Int}
    (popped : popToError tables stack = some (target, below)) :
    below <:+ stack ∧ tableEntry tables.chk target = errorCode := by
  induction stack with
  | nil =>
      obtain ⟨own, shifts, isOwn⟩ := Option.map_eq_some_iff.mp popped
      cases isOwn
      exact ⟨List.suffix_refl _, errorShift_checked shifts⟩
  | cons top rest ih =>
      rw [popToError] at popped
      split at popped
      · rename_i own shifts
        cases popped
        exact ⟨List.suffix_refl _, errorShift_checked shifts⟩
      · obtain ⟨suffix, checked⟩ := ih popped
        exact ⟨suffix.trans (List.suffix_cons _ _), checked⟩

theorem Linked.suffix {stack below : List (Entry G)} (linked : Linked Link stack)
    (suffix : below <:+ stack) : Linked Link below := by
  obtain ⟨front, rfl⟩ := suffix
  have dropped := linked.drop front.length
  rw [List.drop_left] at dropped
  exact dropped

theorem Linked.resume {State : Type} {config next : Config G State}
    (links : Links tables Link) (linked : Linked Link config.stack)
    (resumed : Goyacc.resume tables config = .running next) : Linked Link next.stack := by
  unfold Goyacc.resume at resumed
  split at resumed
  · cases resumed
  · rename_i target below popped
    cases resumed
    obtain ⟨suffix, checked⟩ := popToError_suffix popped
    exact ⟨links.error _ target checked, linked.suffix suffix⟩

variable {lexer : Lexer G}

theorem Linked.recover {config next : Config G lexer.State}
    (links : Links tables Link) (linked : Linked Link config.stack)
    (recovered : Goyacc.recover tables lexer config = .running next) :
    Linked Link next.stack := by
  unfold Goyacc.recover at recovered
  split at recovered
  · refine Linked.resume links ?_ recovered
    exact linked
  · exact Linked.resume links linked recovered
  · exact Linked.resume links linked recovered
  · split at recovered
    · cases recovered
    · cases recovered
      exact linked

theorem ready_stack {config ready : Config G lexer.State} (isReady : Ready lexer config ready) :
    ready.stack = config.stack := by
  rcases isReady with rfl | ⟨token, fetched⟩
  · rfl
  · exact (fetch_ready fetched).2.1

theorem Linked.stepped {config next : Config G lexer.State} (links : Links tables Link)
    (linked : Linked Link config.stack)
    (stepped : Stepped tables lexer config (.running next)) : Linked Link next.stack := by
  generalize isOutcome : Outcome.running next = outcome at stepped
  cases stepped with
  | shifted ready own token target fetched checked isNext =>
      cases isOutcome
      cases isNext
      have same := (fetch_ready fetched).2.1
      rw [← same] at linked
      exact ⟨links.shift _ token target checked, linked⟩
  | accepted => cases isOutcome
  | recovered ready isReady =>
      rw [← ready_stack isReady] at linked
      exact Linked.recover links linked isOutcome.symm
  | reduced ready number outcome isReady chosen reduced =>
      subst isOutcome
      rw [← ready_stack isReady] at linked chosen
      rcases reduce_running reduced with ⟨_, _, impossible, -⟩ |
        ⟨_, isNext, -, -, -, -, production, found, slots, args, value, -, -, stack⟩
      · cases impossible
      · cases isNext
        rw [stack]
        exact ⟨links.reduce _ number production value linked chosen found, linked.drop _⟩

end

/-! ### What the lexer gives -/

/-- The lexer gives these tokens, while syntax errors may be reported to it. -/
inductive Served (lexer : Lexer G) : lexer.State → List G.Token → lexer.State → Prop where
  | nil (state : lexer.State) : Served lexer state [] state
  | call {start state next : lexer.State} {tokens : List G.Token} {token : Option G.Token}
      (front : Served lexer start tokens state) (lexed : lexer.lex state = some (token, next)) :
      Served lexer start (tokens ++ token.toList) next
  | report {start state : lexer.State} {tokens : List G.Token}
      (front : Served lexer start tokens state) : Served lexer start tokens (lexer.report state)

/-- Whatever has been given, the lexer comes to the end. -/
def Ends (lexer : Lexer G) (start : lexer.State) : Prop :=
  ∀ tokens state, Served lexer start tokens state →
    ∃ more last final, Served lexer state more last ∧ lexer.lex last = some (none, final)

theorem Served.trans {lexer : Lexer G} {start middle last : lexer.State}
    {tokens more : List G.Token} (front : Served lexer start tokens middle)
    (back : Served lexer middle more last) : Served lexer start (tokens ++ more) last := by
  induction back with
  | nil =>
      rw [List.append_nil]
      exact front
  | call _ lexed ih =>
      rw [← List.append_assoc]
      exact ih.call lexed
  | report _ ih => exact ih.report

theorem Served.relates {lexer : Lexer G} {start state : lexer.State} {tokens : List G.Token}
    (served : Served lexer start tokens state)
    (Relation : lexer.State → lexer.State → Prop) (refl : ∀ state, Relation state state)
    (calls : ∀ first second token third, Relation first second →
      lexer.lex second = some (token, third) → Relation first third)
    (reports : ∀ first second, Relation first second → Relation first (lexer.report second)) :
    Relation start state := by
  induction served with
  | nil => exact refl start
  | call _ lexed ih => exact calls _ _ _ _ ih lexed
  | report _ ih => exact reports _ _ ih

/-- A lexer whose calls return, and whose tokens take something from its text, comes
to the end. -/
theorem ends_of_shrinks (lexer : Lexer G) (size : lexer.State → Nat)
    (shrinks : ∀ state token next, lexer.lex state = some (some token, next) →
      size next < size state)
    (start : lexer.State)
    (returns : ∀ tokens state, Served lexer start tokens state → lexer.lex state ≠ none) :
    Ends lexer start := by
  intro tokens state served
  -- The size bounds the number of tokens that are still to come.
  induction bound : size state using Nat.strongRecOn generalizing tokens state with
  | _ bound ih =>
      cases lexed : lexer.lex state with
      | none => exact absurd lexed (returns tokens state served)
      | some result =>
          obtain ⟨token, next⟩ := result
          cases token with
          | none => exact ⟨[], state, next, .nil state, lexed⟩
          | some token =>
              have smaller := shrinks state token next lexed
              obtain ⟨more, last, final, front, ended⟩ :=
                ih (size next) (by omega) (tokens ++ [token]) next (served.call lexed) rfl
              have first : Served lexer state ([] ++ [token]) next := .call (.nil state) lexed
              exact ⟨_, last, final, first.trans front, ended⟩

/-! ### Runs that do not return -/

section

variable {tables : Tables} {lexer : Lexer G}

def advance (tables : Tables) (lexer : Lexer G) :
    Nat → Config G lexer.State → Option (Config G lexer.State)
  | 0, config => some config
  | rounds + 1, config =>
      match step tables lexer config with
      | some (.running next) => advance tables lexer rounds next
      | _ => none

theorem run_eq_none_of_advance (count : Nat) (config stuck : Config G lexer.State)
    (advanced : advance tables lexer count config = some stuck)
    (isStuck : step tables lexer stuck = none) (rounds : Nat) :
    run tables lexer rounds config = none := by
  induction count generalizing config rounds with
  | zero =>
      cases advanced
      cases rounds with
      | zero => rfl
      | succ rounds => rw [run, isStuck]
  | succ count ih =>
      cases rounds with
      | zero => rfl
      | succ rounds =>
          rw [advance] at advanced
          split at advanced
          · rename_i next stepped
            rw [run, stepped]
            exact ih next advanced rounds
          · cases advanced

end

end McoaGateway.Goyacc
