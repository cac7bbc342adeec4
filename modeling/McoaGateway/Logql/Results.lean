/-
What `ParseExpr` gives.

An expression comes with a derivation from the tokens of the input, and it is well
formed.  Otherwise there is an error, or the parser panics: it does if and only if
it comes to a matcher whose regular expression does not compile.  To which matchers
it comes is seen from the run with an engine that compiles everything.
-/

import McoaGateway.Goyacc.Guarded
import McoaGateway.Logql.Actions
import McoaGateway.Logql.Returns

namespace McoaGateway.Logql

open GoString
open Scanner

variable (engine : RegexpEngine) (library : Library)

/-! ### Errors -/

theorem errors_lex (state next : LexState) (token : Option Token)
    (lexed : lex library state = some (token, next)) (failed : state.scanner.errors ≠ []) :
    next.scanner.errors ≠ [] := by
  intro noErrors
  have grown := (lex_advances state next token lexed).errors
  rw [noErrors] at grown
  exact failed (List.prefix_nil.mp grown)

theorem errors_report (state : LexState) :
    (state.error (ascii "syntax error")).scanner.errors ≠ [] :=
  List.append_ne_nil_of_right_ne_nil _ (List.cons_ne_nil _ _)

theorem errors_of_rejected (memory : Goyacc.Memory LogNumberExpr) (start : LexState)
    (rounds : Nat)
    (final : Goyacc.Config (grammar engine library) (exprLexer engine library).State)
    (ran : Goyacc.run exprTables (exprLexer engine library) rounds
      (Goyacc.Config.start memory start) = some (.rejected final)) :
    final.lexer.scanner.errors ≠ [] :=
  Goyacc.rejected_reported exprTables (exprLexer engine library)
    (fun state : LexState => state.scanner.errors ≠ [])
    (fun state token next lexed => errors_lex library state next token lexed)
    errors_report memory start rounds final ran

/-! ### Expressions -/

theorem accepted_clean (memory : Goyacc.Memory LogNumberExpr) (start : LexState) (rounds : Nat)
    (final : Goyacc.Config (grammar engine library) (exprLexer engine library).State)
    (ran : Goyacc.run exprTables (exprLexer engine library) rounds
      (Goyacc.Config.start memory start) = some (.accepted final))
    (noErrors : final.lexer.scanner.errors = []) : final.nerrs = 0 := by
  by_contra erroneous
  exact Goyacc.accepted_reported exprTables (exprLexer engine library)
    (fun state : LexState => state.scanner.errors ≠ [])
    (fun state token next lexed => errors_lex library state next token lexed)
    errors_report memory start rounds final ran erroneous noErrors

theorem accepts_at_end (state : Int) (token : Option Token)
    (negative : Goyacc.exception (Goyacc.exceptionRows exprTables.exca state)
      (Goyacc.tokenNumber (G := grammar engine library) token) < 0) : token = none := by
  have isEnd := (accept_state _ _ negative).2
  cases token with
  | none => rfl
  | some token =>
      have isNumber : token.kind.internalNumber = 1 := isEnd
      rw [Terminal.internalNumber] at isNumber
      omega

/-- The tokens of an accepted input, up to its end, are a derivation of the
expression. -/
theorem accepted_expr (memory : Goyacc.Memory LogNumberExpr) (start : LexState) (rounds : Nat)
    (final : Goyacc.Config (grammar engine library) (exprLexer engine library).State) (e : Expr)
    (ran : Goyacc.run exprTables (exprLexer engine library) rounds
      (Goyacc.Config.start memory start) = some (.accepted final))
    (noErrors : final.lexer.scanner.errors = [])
    (isRoot : rootValue engine library final.stack = some e) :
    ∃ tokens before, Goyacc.Lexed (exprLexer engine library) start tokens before ∧
      lex library before = some (none, final.lexer) ∧
      Goyacc.Derives (grammar engine library) .root tokens e := by
  have clean := accepted_clean engine library memory start rounds final ran noErrors
  obtain ⟨tokens, before, derived, lexed, ended⟩ := Goyacc.accepted_derives exprTables
    (exprLexer engine library) (accepts_at_end engine library) memory start rounds final ran clean
  obtain ⟨value, isStack, isValue⟩ :=
    accepted_rootValue engine library memory start rounds final ran
  rw [isRoot] at isValue
  cases isValue
  refine ⟨tokens, before, lexed, ended, ?_⟩
  rw [isStack, List.reverse_singleton] at derived
  cases derived with
  | cons _ _ own others first rest =>
      cases rest
      rw [List.append_nil]
      exact first

theorem parsed_accepted (capacity rounds : Nat) (parser : Parser) (input : GoString) (e : Expr)
    (numbers : Numbers)
    (parsed : parseExprWith engine library capacity rounds parser input =
      some (.expr e numbers)) :
    ∃ config, Goyacc.run exprTables (exprLexer engine library) rounds
        (Goyacc.Config.start parser.stack (parser.start capacity input)) =
          some (.accepted config) ∧
      config.lexer.scanner.errors = [] ∧ rootValue engine library config.stack = some e := by
  unfold parseExprWith at parsed
  split at parsed
  · cases parsed
  · cases parsed
  · cases parsed
  · cases parsed
  · rename_i config ran
    split at parsed
    · rename_i noErrors
      obtain ⟨value, isRoot, isParsed⟩ := Option.map_eq_some_iff.mp parsed
      cases isParsed
      exact ⟨config, ran, noErrors, isRoot⟩
    · cases parsed

theorem parsed_expr (capacity rounds : Nat) (parser : Parser) (input : GoString) (e : Expr)
    (numbers : Numbers)
    (parsed : parseExprWith engine library capacity rounds parser input =
      some (.expr e numbers)) :
    ∃ tokens before final,
      Goyacc.Lexed (exprLexer engine library) (parser.start capacity input) tokens before ∧
      lex library before = some (none, final) ∧ final.scanner.errors = [] ∧
      Goyacc.Derives (grammar engine library) .root tokens e := by
  obtain ⟨config, ran, noErrors, isRoot⟩ :=
    parsed_accepted engine library capacity rounds parser input e numbers parsed
  obtain ⟨tokens, before, lexed, ended, derived⟩ :=
    accepted_expr engine library parser.stack _ rounds config e ran noErrors isRoot
  exact ⟨tokens, before, config.lexer, lexed, ended, noErrors, derived⟩

theorem derives_wellFormed {tokens : List Token} {e : Expr}
    (derived : Goyacc.Derives (grammar engine library) .root tokens e) : e.WellFormed := by
  have ofToken : ∀ token : Token, True → ValueFormed (.terminal token.kind) token.lval :=
    fun _ _ => trivial
  have formed : ValueFormed .root e :=
    derived.holds ofToken (keeps_valueFormed engine library) (fun _ _ => trivial)
  exact formed

theorem parsed_wellFormed (capacity rounds : Nat) (parser : Parser) (input : GoString) (e : Expr)
    (numbers : Numbers)
    (parsed : parseExprWith engine library capacity rounds parser input =
      some (.expr e numbers)) : e.WellFormed := by
  obtain ⟨tokens, before, final, -, -, -, derived⟩ :=
    parsed_expr engine library capacity rounds parser input e numbers parsed
  exact derives_wellFormed engine library derived

/-! ### Panics -/

/-- An engine for which every pattern is a regular expression. -/
def lenientEngine : RegexpEngine where
  compile pattern := some ((RegexpEngine.literals.compile pattern).getD fun _ => false)
  compile_literals literals present isAscii := by
    obtain ⟨accepts, compiled, accepted⟩ :=
      RegexpEngine.literals.compile_literals literals present isAscii
    exact ⟨accepts, by rw [compiled]; rfl, accepted⟩

/-- The regular expressions that the parser compiles, in order, when none of them
makes it panic. -/
def compiledPatterns (capacity rounds : Nat) (parser : Parser) (input : GoString) :
    List GoString :=
  (Goyacc.reductions exprTables (exprLexer lenientEngine library) rounds
    (Goyacc.Config.start parser.stack (parser.start capacity input))).filterMap
      fun reduction => compiledPattern reduction.production reduction.args

/-- A reduction that has to compile what is no regular expression. -/
def Refused (reduction : Goyacc.Reduction (grammar lenientEngine library)) : Prop :=
  ∃ pattern, compiledPattern reduction.production reduction.args = some pattern ∧
    engine.compile pattern = none

theorem newLabelMatcher_of_compile (type : MatchType) (name value : GoString)
    (compiles : type = .regexp ∨ type = .notRegexp → engine.compile value ≠ none) :
    newLabelMatcher engine type name value = newLabelMatcher lenientEngine type name value := by
  unfold newLabelMatcher newMatcher
  cases type with
  | equal => rfl
  | notEqual => rfl
  | regexp =>
      obtain ⟨accepts, compiled⟩ := Option.ne_none_iff_exists'.mp (compiles (Or.inl rfl))
      rw [compiled]
      rfl
  | notRegexp =>
      obtain ⟨accepts, compiled⟩ := Option.ne_none_iff_exists'.mp (compiles (Or.inr rfl))
      rw [compiled]
      rfl

theorem productions_guarded :
    List.Forall₂ (Goyacc.Guarded (Refused engine library)) (productions lenientEngine library)
      (productions engine library) := by
  have same (rules : List Rule) (elsewhere : ∀ production ∈ rules, production.lhs ≠ .matcher) :
      List.Forall₂ (Goyacc.Guarded (Refused engine library)) rules rules := by
    apply List.forall₂_same.mpr
    intro production member
    apply Goyacc.Guarded.mk
    · rintro slots args ⟨pattern, isPattern, -⟩
      rw [compiledPattern_of_lhs _ args (elsewhere production member)] at isPattern
      cases isPattern
    · exact fun _ _ _ => rfl
  have matchers : List.Forall₂ (Goyacc.Guarded (Refused engine library))
      (matcherRules lenientEngine) (matcherRules engine) := by
    apply List.forall₂_map_left_iff.mpr
    apply List.forall₂_map_right_iff.mpr
    apply List.forall₂_same.mpr
    rintro ⟨operator, type⟩ isOperator
    have member : matcherRule engine operator type ∈ productions engine library := by
      have isRule : matcherRule engine operator type ∈ matcherRules engine :=
        List.mem_map_of_mem isOperator
      iterate 5 apply List.mem_append_left
      exact List.mem_append_right _ isRule
    have panics := action_error_iff engine library (matcherRule engine operator type) member
    apply Goyacc.Guarded.mk
    · exact fun slots args refused => (panics slots args).mpr refused
    · rintro slots ⟨name, sign, text, nothing⟩ accepted
      apply newLabelMatcher_of_compile
      intro isRegexp notCompiled
      apply accepted
      apply (panics slots (name, sign, text, nothing)).mp
      exact (newLabelMatcher_error_iff engine type name.str text.str).mpr ⟨isRegexp, notCompiled⟩
  unfold productions
  refine List.rel_append (List.rel_append (List.rel_append (List.rel_append (List.rel_append
    (List.rel_append (same _ ?_) matchers) (same _ ?_)) (same _ ?_)) (same _ ?_)) (same _ ?_))
    (same _ ?_)
  · repeat rw [List.forall_mem_append]
    repeat' apply And.intro
    all_goals
      repeat refine List.forall_mem_cons.mpr ⟨nofun, ?_⟩
      exact List.forall_mem_nil _
  all_goals
    repeat refine List.forall_mem_cons.mpr ⟨nofun, ?_⟩
    exact List.forall_mem_nil _

/-- The run of a parser is that of one which never panics, unless a regular
expression on the way does not compile. -/
theorem run_engine (capacity rounds : Nat) (parser : Parser) (input : GoString) :
    (∀ pattern ∈ compiledPatterns library capacity rounds parser input,
        engine.compile pattern ≠ none) ∧
      Goyacc.run exprTables (exprLexer engine library) rounds
          (Goyacc.Config.start parser.stack (parser.start capacity input)) =
        (Goyacc.run exprTables (exprLexer lenientEngine library) rounds
          (Goyacc.Config.start parser.stack (parser.start capacity input))).map
            (Goyacc.Outcome.recast (productions engine library)) ∨
    (∃ pattern ∈ compiledPatterns library capacity rounds parser input,
        engine.compile pattern = none) ∧
      ∃ failure final, Goyacc.run exprTables (exprLexer engine library) rounds
        (Goyacc.Config.start parser.stack (parser.start capacity input)) =
          some (.panicked failure final) := by
  rcases Goyacc.run_guarded exprTables (exprLexer lenientEngine library)
      (productions_guarded engine library) rounds
      (Goyacc.Config.start parser.stack (parser.start capacity input)) with
    ⟨accepted, same⟩ | ⟨⟨reduction, member, pattern, isPattern, notCompiled⟩, panicked⟩
  · refine Or.inl ⟨?_, same⟩
    intro pattern isCompiled notCompiled
    obtain ⟨reduction, member, isPattern⟩ := List.mem_filterMap.mp isCompiled
    exact accepted reduction member ⟨pattern, isPattern, notCompiled⟩
  · exact Or.inr ⟨⟨pattern, List.mem_filterMap.mpr ⟨reduction, member, isPattern⟩, notCompiled⟩,
      panicked⟩

theorem lenient_ne_panicked (rounds : Nat)
    (config : Goyacc.Config (grammar lenientEngine library) (exprLexer lenientEngine library).State)
    (failure : Panic)
    (final :
      Goyacc.Config (grammar lenientEngine library) (exprLexer lenientEngine library).State) :
    Goyacc.run exprTables (exprLexer lenientEngine library) rounds config ≠
      some (.panicked failure final) := by
  intro ran
  obtain ⟨production, member, slots, args, acted⟩ := Goyacc.panicked_action ran
  obtain ⟨pattern, -, notCompiled⟩ :=
    (action_error_iff lenientEngine library production member slots args).mp ⟨failure, acted⟩
  cases notCompiled

/-- An expression that is not nil, or at least one error. -/
def Parsed.IsResult : Parsed → Prop
  | .expr e _ => e.isNil = false
  | .errors errs => errs ≠ []
  | .panicked _ => False

/-- An action panics exactly over a regular expression that does not compile.  A
parser that returns gives an expression that is not nil, or an error, if and only if
the regular expressions on its way compile. -/
theorem parsing_results (capacity rounds : Nat) (parser : Parser) (input : GoString) :
    (∀ production ∈ productions engine library, ∀ slots args,
      (∃ failure, production.action slots args = .error failure) ↔
        ∃ pattern, compiledPattern production args = some pattern ∧
          engine.compile pattern = none) ∧
    ∀ parsed, parseExprWith engine library capacity rounds parser input = some parsed →
      (parsed.IsResult ↔ ∀ pattern ∈ compiledPatterns library capacity rounds parser input,
        engine.compile pattern ≠ none) := by
  refine ⟨action_error_iff engine library, fun parsed returned => ?_⟩
  rcases run_engine engine library capacity rounds parser input with
    ⟨compiles, same⟩ | ⟨⟨pattern, member, notCompiled⟩, failure, final, panicked⟩
  · refine iff_of_true ?_ compiles
    cases parsed with
    | expr e numbers =>
        exact (parsed_wellFormed engine library capacity rounds parser input e numbers
          returned).isNil
    | errors errs =>
        unfold parseExprWith at returned
        split at returned
        · cases returned
        · cases returned
        · cases returned
        · rename_i config ran
          cases returned
          exact errors_of_rejected engine library parser.stack _ rounds config ran
        · split at returned
          · obtain ⟨_, -, impossible⟩ := Option.map_eq_some_iff.mp returned
            cases impossible
          · rename_i failed
            cases returned
            exact failed
    | panicked failure =>
        unfold parseExprWith at returned
        split at returned
        · cases returned
        · cases returned
        · rename_i own config ran
          rw [same] at ran
          obtain ⟨outcome, isOutcome, recast⟩ := Option.map_eq_some_iff.mp ran
          cases outcome with
          | panicked own final =>
              exact lenient_ne_panicked library rounds _ own final isOutcome
          | _ => cases recast
        · cases returned
        · split at returned
          · obtain ⟨_, -, impossible⟩ := Option.map_eq_some_iff.mp returned
            cases impossible
          · cases returned
  · unfold parseExprWith at returned
    rw [panicked] at returned
    cases returned
    exact iff_of_false id fun compiles => compiles pattern member notCompiled

/-- Strings behind `=~` or `!~` that are not compiled: in a label filter, in a line
filter, and behind a syntax error. -/
def uncompiledQueries : List GoString :=
  [ascii "\x7ba=\"b\"\x7d | c=~\"(\"", ascii "\x7ba=\"b\"\x7d !~ \"(\"", ascii ") =~ \"(\""]

theorem parsing_results_uncompiled :
    (∀ input ∈ uncompiledQueries,
      compiledPatterns .asciiOnly 1024 40 .new input = [] ∧
        (parseExprWith .literals .asciiOnly 1024 40 .new input).isSome = true) ∧
    ∀ input ∈ uncompiledQueries, ∀ parsed,
      parseExprWith .literals .asciiOnly 1024 40 .new input = some parsed → parsed.IsResult := by
  have uncompiled : ∀ input ∈ uncompiledQueries,
      compiledPatterns .asciiOnly 1024 40 .new input = [] ∧
        (parseExprWith .literals .asciiOnly 1024 40 .new input).isSome = true := by
    decide +kernel
  refine ⟨uncompiled, fun input member parsed returned => ?_⟩
  apply ((parsing_results .literals .asciiOnly 1024 40 .new input).2 parsed returned).mpr
  rw [(uncompiled input member).1]
  exact List.forall_mem_nil _

def Parsed.failure : Parsed → Option Panic
  | .panicked failure => some failure
  | _ => none

/-- An open parenthesis as a regular expression, in a selector and in a stage. -/
theorem pattern_panics :
    ((parseExprWith .literals .asciiOnly 1024 20 .new (ascii "\x7ba=~\"(\"\x7d")).bind
        Parsed.failure) = some ⟨ascii "("⟩ ∧
    ((parseExprWith .literals .asciiOnly 1024 40 .new
        (ascii "\x7ba=\"b\"\x7d | drop c!~\"(\"")).bind Parsed.failure) = some ⟨ascii "("⟩ :=
  ⟨by decide +kernel, by decide +kernel⟩

end McoaGateway.Logql
