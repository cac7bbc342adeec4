/-
What the parser reads: stages and pipelines.

The tokens of a stage that can be written are read as that stage, wherever a stage can begin
and whatever may follow it there.
-/

import McoaGateway.Logql.Decisions
import McoaGateway.Logql.Stages

namespace McoaGateway.Logql

open GoString
open Goyacc (decision gotoState tableEntry shiftPath firstNumber)

def tokensOf (lexemes : List Lexeme) : List Token :=
  lexemes.filterMap Lexeme.token

theorem tokensOf_append (first second : List Lexeme) :
    tokensOf (first ++ second) = tokensOf first ++ tokensOf second :=
  List.filterMap_append

/-! ### Symbols and their parts -/

section

variable (engine : RegexpEngine) (library : Library)

/-- In the state, the tokens are read as the symbol when this token follows. -/
abbrev Reads (state : Int) (symbol : Symbol) (tokens : List Token) (ahead : Int)
    (value : Sem symbol) (target : Int) : Prop :=
  Goyacc.Reaches (G := grammar engine library) AlikeSem exprTables state symbol tokens ahead value
    target

abbrev ReadsAll (state : Int) (symbols : List Symbol) (tokens : List Token) (ahead : Int)
    (args : Goyacc.Args Sem symbols) (target : Int) : Prop :=
  Goyacc.ReachesAll (G := grammar engine library) AlikeSem exprTables state symbols tokens ahead
    args target

end

variable {engine : RegexpEngine} {library : Library} {state last ahead number : Int}

theorem readsAll_nil (state ahead : Int) :
    ReadsAll engine library state [] [] ahead () state :=
  Goyacc.reachesAll_nil (G := grammar engine library) state ahead

theorem readsAll_symbol {middle : Int} {symbol : Symbol} {symbols : List Symbol}
    {own others : List Token} {value : Sem symbol} {args : Goyacc.Args Sem symbols}
    (first : Reads engine library state symbol own
      (firstNumber (G := grammar engine library) others ahead) value middle)
    (rest : ReadsAll engine library middle symbols others ahead args last) :
    ReadsAll engine library state (symbol :: symbols) (own ++ others) ahead (value, args) last :=
  Goyacc.reachesAll_cons (G := grammar engine library) first rest

theorem readsAll_token {middle : Int} {t : Terminal} {lval : LexValue} {symbols : List Symbol}
    {others : List Token} {args : Goyacc.Args Sem symbols}
    (shifts : decision exprTables state t.internalNumber = .shift middle)
    (rest : ReadsAll engine library middle symbols others ahead args last) :
    ReadsAll engine library state (.terminal t :: symbols) (⟨t, lval⟩ :: others) ahead
      (lval, args) last :=
  have first : Reads engine library state (.terminal t) [⟨t, lval⟩] _ lval middle :=
    Goyacc.reaches_token (G := grammar engine library) shifts
  readsAll_symbol first rest

/-- Tokens that are all shifted. -/
theorem readsAll_tokens (tokens : List Token) (kinds : List Terminal) (last : Int)
    (shifted : shiftPath exprTables state (kinds.map Terminal.internalNumber) = some last)
    (areKinds : tokens.map Token.kind = kinds) :
    ReadsAll engine library state (tokens.map (grammar engine library).kind) tokens ahead
      (Goyacc.tokenArgs (G := grammar engine library) tokens) last := by
  rw [← areKinds, List.map_map] at shifted
  exact Goyacc.reachesAll_tokens (G := grammar engine library) shifted

theorem reads_production {production : Rule} {tokens : List Token}
    {args : Goyacc.Args Sem production.rhs}
    (isNumbered : Numbered engine library number production)
    (noAddress : production.takesAddress = false)
    (parts : ReadsAll engine library state production.rhs tokens ahead args last)
    (reduces : decision exprTables last ahead = .reduce number)
    {value : Sem production.lhs} (slots : Nat → Goyacc.Slot)
    (acted : production.action slots args = .ok value) :
    Reads engine library state production.lhs tokens ahead value
      (gotoState exprTables state production.lhs.number) := by
  obtain ⟨isLeft, isCount⟩ := tableRow_found engine library isNumbered.positive isNumbered.found
  have count : (tableEntry exprTables.r2 number).toNat = production.rhs.length := by
    rw [isCount, Int.toNat_natCast]
  rw [← isLeft]
  refine Goyacc.reaches_production (G := grammar engine library) isNumbered.found count parts
    reduces rfl fun others args' alike => ?_
  exact (action_alike engine library (List.mem_of_getElem? isNumbered.found) noAddress slots others
    alike).symm.trans acted

theorem reads_rule {lhs : Symbol} {rhs : List Symbol} {action : Goyacc.Args Sem rhs → Sem lhs}
    {tokens : List Token} {args : Goyacc.Args Sem rhs}
    (isNumbered : Numbered engine library number (rule lhs rhs action))
    (parts : ReadsAll engine library state rhs tokens ahead args last)
    (reduces : decision exprTables last ahead = .reduce number)
    (noAddress : rhs ≠ [tok .identifier, .comparisonOp, .logNumberExpr] := by decide) :
    Reads engine library state lhs tokens ahead (action args)
      (gotoState exprTables state lhs.number) :=
  reads_production isNumbered (decide_eq_false noAddress) parts reduces (fun _ => ⟨0, 0⟩) rfl

theorem reads_of_tokens {target : Int} {symbol : Symbol} {value : Sem symbol}
    {tokens tokens' : List Token} (same : tokens = tokens')
    (reads : Reads engine library state symbol tokens' ahead value target) :
    Reads engine library state symbol tokens ahead value target :=
  same ▸ reads

/-- A symbol that is one keyword. -/
theorem reads_keyword {lhs : Symbol} {t : Terminal} {op : Sem lhs} (target : Int)
    (isNumbered : Numbered engine library number (rule lhs [tok t] fun _ => op))
    (table : decision exprTables state t.internalNumber = .shift target ∧
      (0 < number ∧ tableEntry exprTables.defaults target = number) ∧
        tableEntry exprTables.pact target ≤ exprTables.flag) (ahead : Int) :
    Reads engine library state lhs [⟨t, ⟨[], 0⟩⟩] ahead op
      (gotoState exprTables state lhs.number) :=
  reads_rule isNumbered (readsAll_token table.1 (readsAll_nil target ahead))
    (reduce_simple table.2 ahead) (by simp)

/-! ### Stages -/

/-- The states behind a selector, behind a range, and behind a range in parentheses, each
without and with stages. -/
def stageStates : List Int :=
  [8, 59, 194, 241, 243, 276]

/-- What may follow a stage: the end of the input, or one of these tokens. -/
def stageFollowers : List Int :=
  Goyacc.endCode :: [Terminal.closeParenthesis, .pipe, .pipeMatch, .pipeExact, .pipeMatchPattern,
    .pipeNotMatchPattern, .nre, .neq].map Terminal.internalNumber

variable (engine library) in
theorem reads_lineFilter (begins : state ∈ stageStates) (filter : LineFilter) (ahead : Int) :
    Reads engine library state .filter (tokensOf [filter.lexeme]) ahead filter 63 := by
  have isTarget : ∀ state ∈ stageStates, gotoState exprTables state 5 = 63 := by decide +kernel
  have shifts : ∀ state ∈ stageStates,
      decision exprTables state Terminal.pipeMatch.internalNumber = .shift 64 ∧
      decision exprTables state Terminal.pipeExact.internalNumber = .shift 65 ∧
      decision exprTables state Terminal.pipeMatchPattern.internalNumber = .shift 66 ∧
      decision exprTables state Terminal.pipeNotMatchPattern.internalNumber = .shift 67 ∧
      decision exprTables state Terminal.nre.internalNumber = .shift 68 ∧
      decision exprTables state Terminal.neq.internalNumber = .shift 69 := by decide +kernel
  obtain ⟨first, second, third, fourth, fifth, sixth⟩ := shifts state begins
  rw [← isTarget state begins]
  cases filter with
  | pipeMatch => exact reads_keyword 64 (numbered 22 0 rfl rfl rfl) ⟨first, by decide +kernel⟩ ahead
  | pipeExact =>
      exact reads_keyword 65 (numbered 22 1 rfl rfl rfl) ⟨second, by decide +kernel⟩ ahead
  | pipeMatchPattern =>
      exact reads_keyword 66 (numbered 22 2 rfl rfl rfl) ⟨third, by decide +kernel⟩ ahead
  | pipeNotMatchPattern =>
      exact reads_keyword 67 (numbered 22 3 rfl rfl rfl) ⟨fourth, by decide +kernel⟩ ahead
  | nre => exact reads_keyword 68 (numbered 22 4 rfl rfl rfl) ⟨fifth, by decide +kernel⟩ ahead
  | neq => exact reads_keyword 69 (numbered 22 5 rfl rfl rfl) ⟨sixth, by decide +kernel⟩ ahead

/-- A stage that is a line filter. -/
theorem reads_filterStage (begins : state ∈ stageStates) {tokens : List Token}
    {filter : LogFilterExpr}
    (reads : Reads engine library state .logFilterExpr tokens ahead filter
      (gotoState exprTables state Symbol.logFilterExpr.number)) :
    Reads engine library state .logStageExpr tokens ahead (.filter filter)
      (gotoState exprTables state Symbol.logStageExpr.number) := by
  have isTarget : ∀ state ∈ stageStates,
      gotoState exprTables state Symbol.logFilterExpr.number = 61 := by decide +kernel
  rw [isTarget state begins] at reads
  exact reads_of_tokens (List.append_nil tokens).symm
    (reads_rule (numbered 5 0 rfl rfl rfl) (readsAll_symbol reads (readsAll_nil 61 ahead))
      (reduce_simple (by decide +kernel) ahead))

variable (unicode : Unicode)

theorem reads_line (begins : state ∈ stageStates) (follows : ahead ∈ stageFollowers)
    (filter : LineFilter) (ip : Bool) (value : GoString) :
    Reads engine library state .logStageExpr
      (tokensOf ((StageForm.line filter ip value).lexemes unicode)) ahead
      (StageForm.line filter ip value).stage
      (gotoState exprTables state Symbol.logStageExpr.number) := by
  have reduces : ∀ ahead ∈ stageFollowers, decision exprTables 113 ahead = .reduce 31 := by
    decide +kernel
  refine reads_filterStage begins (reads_of_tokens (tokensOf_append [filter.lexeme] _) ?_)
  cases ip with
  | false =>
      exact reads_rule (numbered 6 0 rfl rfl rfl)
        (readsAll_symbol (reads_lineFilter engine library begins filter _)
          (readsAll_token (by decide +kernel) (readsAll_nil 113 ahead)))
        (reduces ahead follows)
  | true =>
      exact reads_rule (numbered 6 1 rfl rfl rfl)
        (readsAll_symbol (reads_lineFilter engine library begins filter _)
          (readsAll_tokens (tokensOf (ipLexemes true (Lexeme.quoted unicode value)))
            [.ip, .openParenthesis, .string, .closeParenthesis] 268 (by decide +kernel) rfl))
        (reduce_simple (by decide +kernel) ahead)

theorem reads_either (begins : state ∈ stageStates) (filter : LineFilter) (value : GoString)
    (ip : Bool) (other : GoString) :
    Reads engine library state .logStageExpr
      (tokensOf ((StageForm.either filter value ip other).lexemes unicode)) ahead
      (StageForm.either filter value ip other).stage
      (gotoState exprTables state Symbol.logStageExpr.number) := by
  refine reads_filterStage begins (reads_of_tokens (tokensOf_append [filter.lexeme] _) ?_)
  cases ip with
  | false =>
      exact reads_rule (numbered 6 2 rfl rfl rfl)
        (readsAll_symbol (reads_lineFilter engine library begins filter _)
          (readsAll_tokens
            (tokensOf (Lexeme.quoted unicode value ::
              (ChainOp.or.lexemes ++ ipLexemes false (Lexeme.quoted unicode other))))
            [.string, .or, .string] 229 (by decide +kernel) rfl))
        (reduce_simple (by decide +kernel) ahead)
  | true =>
      exact reads_rule (numbered 6 3 rfl rfl rfl)
        (readsAll_symbol (reads_lineFilter engine library begins filter _)
          (readsAll_tokens
            (tokensOf (Lexeme.quoted unicode value ::
              (ChainOp.or.lexemes ++ ipLexemes true (Lexeme.quoted unicode other))))
            [.string, .or, .ip, .openParenthesis, .string, .closeParenthesis] 315
            (by decide +kernel) rfl))
        (reduce_simple (by decide +kernel) ahead)

example : shiftPath exprTables 194 ([Terminal.pipe, .regexp, .string].map
    Terminal.internalNumber) = some 165 := by
  decide +kernel

/-! ### Label filters -/

variable (engine library) in
theorem reads_comparisonOp (op : ComparisonOp) (ahead : Int) :
    Reads engine library 112 .comparisonOp (tokensOf [op.lexeme]) ahead op
      (gotoState exprTables 112 Symbol.comparisonOp.number) := by
  cases op with
  | eq => exact reads_keyword 175 (numbered 23 0 rfl rfl rfl) (by decide +kernel) ahead
  | neq => exact reads_keyword 176 (numbered 23 1 rfl rfl rfl) (by decide +kernel) ahead
  | re => exact reads_keyword 177 (numbered 23 2 rfl rfl rfl) (by decide +kernel) ahead
  | nre => exact reads_keyword 178 (numbered 23 3 rfl rfl rfl) (by decide +kernel) ahead
  | gt => exact reads_keyword 179 (numbered 23 4 rfl rfl rfl) (by decide +kernel) ahead
  | gte => exact reads_keyword 180 (numbered 23 5 rfl rfl rfl) (by decide +kernel) ahead
  | lt => exact reads_keyword 181 (numbered 23 6 rfl rfl rfl) (by decide +kernel) ahead
  | lte => exact reads_keyword 182 (numbered 23 7 rfl rfl rfl) (by decide +kernel) ahead

/-- A comparison begins behind a pipe, an `and` or an `or`. -/
theorem reads_labelTest (begins : state ∈ [62, 151, 152]) (test : LabelTest) (ahead : Int) :
    Reads engine library state .logLabelFilterExpr (tokensOf test.lexemes) ahead test.filter
      (gotoState exprTables state Symbol.logLabelFilterExpr.number) := by
  have shifts : ∀ state ∈ [(62 : Int), 151, 152],
      decision exprTables state Terminal.identifier.internalNumber = .shift 112 := by
    decide +kernel
  obtain ⟨name, op, ip, text⟩ := test
  refine reads_of_tokens
    (congrArg (Token.mk .identifier ⟨name, 0⟩ :: ·) (tokensOf_append [op.lexeme] _)) ?_
  cases ip with
  | false =>
      exact reads_rule (numbered 7 0 rfl rfl rfl)
        (readsAll_token (shifts state begins)
          (readsAll_symbol (reads_comparisonOp engine library op _)
            (readsAll_token (by decide +kernel) (readsAll_nil 225 ahead))))
        (reduce_simple (by decide +kernel) ahead)
  | true =>
      exact reads_rule (numbered 7 3 rfl rfl rfl)
        (readsAll_token (shifts state begins)
          (readsAll_symbol (reads_comparisonOp engine library op _)
            (readsAll_tokens (tokensOf (ipLexemes true (Lexeme.verbatim text)))
              [.ip, .openParenthesis, .string, .closeParenthesis] 314 (by decide +kernel) rfl)))
        (reduce_simple (by decide +kernel) ahead)

/-- If the items of a chain are read before these tokens, then the chain is; it is reduced before
each operator. -/
theorem reads_chain {α : Type} {item : α → LogLabelFilterExpr} {lexemes : α → List Lexeme}
    {P : α → Prop} {followers : List Int} {op : ChainOp} {t : Terminal} {behind : Int}
    (isNumbered : Numbered engine library number
      (rule .logLabelFilterExpr [.logLabelFilterExpr, tok t, .logLabelFilterExpr] fun args =>
        args.1.chain op args.2.2.1))
    (isOp : tokensOf op.lexemes = [⟨t, ⟨[], 0⟩⟩])
    (items : ∀ before ∈ [state, behind], ∀ ahead ∈ followers, ∀ a, P a →
      Reads engine library before .logLabelFilterExpr (tokensOf (lexemes a)) ahead (item a)
        (gotoState exprTables before Symbol.logLabelFilterExpr.number))
    (shifts : decision exprTables (gotoState exprTables state Symbol.logLabelFilterExpr.number)
      t.internalNumber = .shift behind)
    (reduces : ∀ ahead ∈ followers,
      decision exprTables (gotoState exprTables behind Symbol.logLabelFilterExpr.number) ahead =
        .reduce number)
    (opFollows : t.internalNumber ∈ followers) (chain : Chain α) (all : chain.Forall P) :
    ∀ ahead ∈ followers,
      Reads engine library state .logLabelFilterExpr (tokensOf (chain.lexemes op lexemes)) ahead
        (chain.filter op item)
        (gotoState exprTables state Symbol.logLabelFilterExpr.number) := by
  induction chain with
  | one a => exact fun ahead follows => items state (by simp) ahead follows a all
  | more chain a ih =>
      intro ahead follows
      have own : tokensOf ((Chain.more chain a).lexemes op lexemes) =
          tokensOf (chain.lexemes op lexemes) ++
            (⟨t, ⟨[], 0⟩⟩ :: (tokensOf (lexemes a) ++ [])) := by
        rw [Chain.lexemes, tokensOf_append, tokensOf_append, isOp, List.append_nil,
          List.singleton_append]
      refine reads_of_tokens own
        (reads_rule isNumbered
          (readsAll_symbol ?_
            (readsAll_token shifts
              (readsAll_symbol (items behind (by simp) ahead follows a all.2)
                (readsAll_nil _ ahead))))
          (reduces ahead follows) (by simp))
      exact ih all.1 _ opFollows

theorem reads_conjunction (begins : state ∈ [62, 152]) (tests : Chain LabelTest)
    (all : tests.Forall (LabelTest.Writable library)) :
    ∀ ahead ∈ [Terminal.and, .or].map Terminal.internalNumber ++ stageFollowers,
      Reads engine library state .logLabelFilterExpr
        (tokensOf (tests.lexemes .and LabelTest.lexemes)) ahead
        (tests.filter .and LabelTest.filter)
        (gotoState exprTables state Symbol.logLabelFilterExpr.number) := by
  have shifts : ∀ state ∈ [(62 : Int), 152],
      decision exprTables (gotoState exprTables state Symbol.logLabelFilterExpr.number)
        Terminal.and.internalNumber = .shift 151 := by decide +kernel
  refine reads_chain (numbered 7 4 rfl rfl rfl) rfl (fun before isBefore ahead _ test _ => ?_)
    (shifts state begins) (by decide +kernel) (by decide) tests all
  refine reads_labelTest ?_ test ahead
  simp only [List.mem_cons, List.not_mem_nil, or_false] at begins isBefore ⊢
  omega

theorem reads_disjunction (tests : Chain (Chain LabelTest))
    (all : tests.Forall (Chain.Forall (LabelTest.Writable library))) :
    ∀ ahead ∈ Terminal.or.internalNumber :: stageFollowers,
      Reads engine library 62 .logLabelFilterExpr
        (tokensOf (tests.lexemes .or (Chain.lexemes .and LabelTest.lexemes))) ahead
        (tests.filter .or (Chain.filter .and LabelTest.filter))
        (gotoState exprTables 62 Symbol.logLabelFilterExpr.number) :=
  reads_chain (numbered 7 5 rfl rfl rfl) rfl
    (fun _ isBefore ahead follows test all =>
      reads_conjunction isBefore test all ahead (List.mem_cons_of_mem _ follows))
    (by decide +kernel) (by decide +kernel) (by decide) tests all

example : decision exprTables 100 Terminal.or.internalNumber = .shift 152 := by
  decide +kernel

/-! ### Pipelines -/

variable (engine library) in
theorem reads_convOp (op : ConvOp) (ahead : Int) :
    Reads engine library 104 .convOp (tokensOf [op.lexeme]) ahead op
      (gotoState exprTables 104 Symbol.convOp.number) := by
  cases op with
  | bytes => exact reads_keyword 162 (numbered 4 0 rfl rfl rfl) (by decide +kernel) ahead
  | duration => exact reads_keyword 163 (numbered 4 1 rfl rfl rfl) (by decide +kernel) ahead
  | durationSeconds =>
      exact reads_keyword 164 (numbered 4 2 rfl rfl rfl) (by decide +kernel) ahead

theorem token_operandLexeme (parser : ParserName) (text : GoString) :
    (operandLexeme unicode parser text).token = some ⟨.string, ⟨text, 0⟩⟩ := by
  unfold operandLexeme
  split <;> rfl

variable (engine) in
theorem reads_stage (begins : state ∈ stageStates) (follows : ahead ∈ stageFollowers)
    (form : StageForm) (writable : form.Writable library) :
    Reads engine library state .logStageExpr (tokensOf (form.lexemes unicode)) ahead form.stage
      (gotoState exprTables state Symbol.logStageExpr.number) := by
  have shifts : ∀ state ∈ stageStates,
      decision exprTables state Terminal.pipe.internalNumber = .shift 62 := by decide +kernel
  have piped := shifts state begins
  cases form with
  | line filter ip value => exact reads_line unicode begins follows filter ip value
  | either filter value ip other => exact reads_either unicode begins filter value ip other
  | labels tests =>
      have reduces : ∀ ahead ∈ stageFollowers, decision exprTables 100 ahead = .reduce 15 := by
        decide +kernel
      exact reads_of_tokens (congrArg (_ :: ·) (List.append_nil _).symm)
        (reads_rule (numbered 5 1 rfl rfl rfl)
          (readsAll_token piped
            (readsAll_symbol
              (reads_disjunction tests writable ahead (List.mem_cons_of_mem _ follows))
              (readsAll_nil 100 ahead)))
          (reduces ahead follows))
  | plain parser =>
      have reduces : ∀ ahead ∈ stageFollowers, decision exprTables 101 ahead = .reduce 16 ∧
          decision exprTables 102 ahead = .reduce 19 := by decide +kernel
      simp only [StageForm.Writable, List.mem_cons, List.not_mem_nil, or_false] at writable
      rcases writable with rfl | rfl | rfl
      · exact reads_rule (numbered 5 5 rfl rfl rfl)
          (readsAll_token piped (readsAll_token (by decide +kernel) (readsAll_nil 102 ahead)))
          (reduces ahead follows).2
      · exact reads_rule (numbered 5 2 rfl rfl rfl)
          (readsAll_token piped (readsAll_token (by decide +kernel) (readsAll_nil 101 ahead)))
          (reduces ahead follows).1
      · exact reads_rule (numbered 5 7 rfl rfl rfl)
          (readsAll_token piped (readsAll_token (by decide +kernel) (readsAll_nil 103 ahead)))
          (reduce_simple (by decide +kernel) ahead)
  | quoted parser text =>
      have own : tokensOf ((StageForm.quoted parser text).lexemes unicode) =
          tokensOf [Lexeme.pipe, parser.lexeme] ++ [⟨.string, ⟨text, 0⟩⟩] := by
        rw [← show tokensOf [operandLexeme unicode parser text] = [⟨.string, ⟨text, 0⟩⟩] from
          congrArg Option.toList (token_operandLexeme unicode parser text), ← tokensOf_append]
        rfl
      obtain ⟨isParser, -⟩ := writable
      simp only [List.mem_cons, List.not_mem_nil, or_false] at isParser
      rcases isParser with rfl | rfl | rfl
      · exact reads_of_tokens own (reads_rule (numbered 5 10 rfl rfl rfl)
          (readsAll_token piped
            (readsAll_tokens [⟨.regexp, ⟨[], 0⟩⟩, ⟨.string, ⟨text, 0⟩⟩] [.regexp, .string] 165
              (by decide +kernel) rfl))
          (reduce_simple (by decide +kernel) ahead))
      · exact reads_of_tokens own (reads_rule (numbered 5 12 rfl rfl rfl)
          (readsAll_token piped
            (readsAll_tokens [⟨.lineFmt, ⟨[], 0⟩⟩, ⟨.string, ⟨text, 0⟩⟩] [.lineFmt, .string] 167
              (by decide +kernel) rfl))
          (reduce_simple (by decide +kernel) ahead))
      · exact reads_of_tokens own (reads_rule (numbered 5 11 rfl rfl rfl)
          (readsAll_token piped
            (readsAll_tokens [⟨.pattern, ⟨[], 0⟩⟩, ⟨.string, ⟨text, 0⟩⟩] [.pattern, .string] 166
              (by decide +kernel) rfl))
          (reduce_simple (by decide +kernel) ahead))
  | unwrap name operation =>
      cases operation with
      | none =>
          exact reads_rule (numbered 5 8 rfl rfl rfl)
            (readsAll_token piped
              (readsAll_tokens (tokensOf [ParserName.unwrap.lexeme, .name name])
                [.unwrap, .identifier] 160 (by decide +kernel) rfl))
            (reduce_simple (by decide +kernel) ahead)
      | some op =>
          exact reads_of_tokens
            (congrArg (_ :: _ :: ·) (tokensOf_append [op.lexeme] _))
            (reads_rule (numbered 5 9 rfl rfl rfl)
              (readsAll_token piped
                (readsAll_token (by decide +kernel)
                  (readsAll_symbol (reads_convOp engine library op _)
                    (readsAll_tokens (tokensOf [Lexeme.lparen, .name name, Lexeme.rparen])
                      [.openParenthesis, .identifier, .closeParenthesis] 290 (by decide +kernel)
                      rfl))))
              (reduce_simple (by decide +kernel) ahead))
  | decolorize =>
      exact reads_rule (numbered 5 13 rfl rfl rfl)
        (readsAll_token piped (readsAll_token (by decide +kernel) (readsAll_nil 108 ahead)))
        (reduce_simple (by decide +kernel) ahead)

theorem stage_first (form : StageForm) (ahead : Int) :
    firstNumber (G := grammar engine library) (tokensOf (form.lexemes unicode)) ahead ∈
      stageFollowers := by
  refine List.mem_cons_of_mem _ (List.mem_map.mpr ?_)
  cases form with
  | line filter ip value => cases filter <;> exact ⟨_, by decide, rfl⟩
  | either filter value ip other => cases filter <;> exact ⟨_, by decide, rfl⟩
  | unwrap name operation => cases operation <;> exact ⟨.pipe, by decide, rfl⟩
  | _ => exact ⟨.pipe, by decide, rfl⟩

/-- A pipeline is read one stage after another. -/
theorem reads_pipeline (begins : state ∈ [8, 194, 243]) (forms : List StageForm)
    (present : forms ≠ []) (writable : ∀ form ∈ forms, form.Writable library) :
    ∀ ahead ∈ stageFollowers,
      Reads engine library state .logPipelineExpr (tokensOf (pipelineLexemes unicode forms)) ahead
        (forms.map StageForm.stage)
        (gotoState exprTables state Symbol.logPipelineExpr.number) := by
  have table : ∀ state ∈ [(8 : Int), 194, 243],
      gotoState exprTables state Symbol.logStageExpr.number = 60 ∧
      state ∈ stageStates ∧
      gotoState exprTables state Symbol.logPipelineExpr.number ∈ stageStates ∧
      gotoState exprTables (gotoState exprTables state Symbol.logPipelineExpr.number)
        Symbol.logStageExpr.number = 99 := by decide +kernel
  obtain ⟨first, here, behind, next⟩ := table state begins
  induction forms using List.reverseRecOn with
  | nil => exact absurd rfl present
  | append_singleton forms form ih =>
      intro ahead follows
      have canWrite := writable form (List.mem_append_right _ (List.mem_singleton_self form))
      have own : tokensOf (pipelineLexemes unicode (forms ++ [form])) =
          tokensOf (pipelineLexemes unicode forms) ++ (tokensOf (form.lexemes unicode) ++ []) := by
        rw [pipelineLexemes, List.flatMap_append, tokensOf_append, List.append_nil,
          List.flatMap_singleton]
        rfl
      rw [own, List.map_append]
      rcases List.eq_nil_or_concat forms with rfl | ⟨_, _, rfl⟩
      · have reads := reads_stage engine unicode here follows form canWrite
        rw [first] at reads
        exact reads_rule (numbered 3 0 rfl rfl rfl) (readsAll_symbol reads (readsAll_nil 60 ahead))
          (reduce_simple (by decide +kernel) ahead)
      · have reads := reads_stage engine unicode behind follows form canWrite
        rw [next] at reads
        refine reads_rule (numbered 3 1 rfl rfl rfl)
          (readsAll_symbol (ih (by simp) (fun form found => writable form
            (List.mem_append_left _ found)) _ ?_) (readsAll_symbol reads (readsAll_nil 99 ahead)))
          (reduce_simple (by decide +kernel) ahead)
        rw [List.append_nil]
        exact stage_first unicode form ahead

example : gotoState exprTables 194 Symbol.logPipelineExpr.number = 241 := by
  decide +kernel

end McoaGateway.Logql
