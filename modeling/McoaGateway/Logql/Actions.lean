/-
What the actions of the grammar do.

An action panics for one reason only, a regular expression that does not compile
(`action_error_iff`).  The expressions that the actions build are well formed, and
none of them is nil (`keeps_valueFormed`).
-/

import McoaGateway.Goyacc.Derivation
import McoaGateway.Logql.Grammar
import McoaGateway.Logql.Walk

namespace McoaGateway.Logql

open GoString

variable (engine : RegexpEngine) (library : Library)

/-! ### The productions -/

/-- A production for the symbol whose action gives a value. -/
inductive Plain (lhs : Symbol) : Rule → Prop where
  | rule (rhs : List Symbol) (action : Goyacc.Args Sem rhs → Sem lhs) :
      Plain lhs (rule lhs rhs action)

def AllPlain (lhs : Symbol) (rules : List Rule) : Prop :=
  ∀ production ∈ rules, Plain lhs production

theorem allPlain_nil (lhs : Symbol) : AllPlain lhs [] :=
  List.forall_mem_nil _

theorem allPlain_cons (lhs : Symbol) (rhs : List Symbol)
    (action : Goyacc.Args Sem rhs → Sem lhs) (rules : List Rule) (rest : AllPlain lhs rules) :
    AllPlain lhs (rule lhs rhs action :: rules) :=
  List.forall_mem_cons.mpr ⟨.rule rhs action, rest⟩

theorem allPlain_map {α : Type} (lhs : Symbol) (keywords : List α) (rhs : α → List Symbol)
    (action : (keyword : α) → Goyacc.Args Sem (rhs keyword) → Sem lhs) :
    AllPlain lhs (keywords.map fun keyword => rule lhs (rhs keyword) (action keyword)) :=
  List.forall_mem_map.mpr fun keyword _ => .rule (rhs keyword) (action keyword)

theorem plain_rules :
    AllPlain .root rootRules ∧ AllPlain .expr exprRules ∧
    AllPlain .logQueryExpr logQueryExprRules ∧ AllPlain .logPipelineExpr logPipelineExprRules ∧
    AllPlain .logStageExpr logStageExprRules ∧ AllPlain .logFilterExpr logFilterExprRules ∧
    AllPlain .logFormatExpr logFormatExprRules ∧ AllPlain .logOffsetExpr logOffsetExprRules ∧
    AllPlain .logRangeQueryExpr logRangeQueryExprRules ∧
    AllPlain .logMetricExpr logMetricExprRules ∧
    AllPlain .logNumberExpr (logNumberExprRules library) ∧
    AllPlain .logStageLabels logStageLabelsRules ∧ AllPlain .logFMTFlags logFMTFlagsRules ∧
    AllPlain .selector selectorRules ∧ AllPlain .matchers matchersRules ∧
    AllPlain .labels labelsRules ∧ AllPlain .grouping groupingRules ∧
    AllPlain .binaryOpOptions binaryOpOptionsRules := by
  refine ⟨?_, ?_, ?_, ?_, ?_, ?_, ?_, ?_, ?_, ?_, ?_, ?_, ?_, ?_, ?_, ?_, ?_, ?_⟩
  all_goals
    repeat apply allPlain_cons
    exact allPlain_nil _

theorem keyword_rules :
    AllPlain .convOp convOpRules ∧ AllPlain .logBinaryOpExpr logBinaryOpExprRules ∧
    AllPlain .metricOp metricOpRules ∧ AllPlain .filter filterRules ∧
    AllPlain .comparisonOp comparisonOpRules :=
  ⟨allPlain_map _ _ _ _, allPlain_map _ _ _ _, allPlain_map _ _ _ _, allPlain_map _ _ _ _,
    allPlain_map _ _ _ _⟩

theorem other_rules :
    (∀ production ∈ logLabelFilterExprRules, production.lhs = .logLabelFilterExpr) ∧
    (∀ production ∈ logParserLabelsRules engine, production.lhs = .logParserLabels) ∧
    ∀ production ∈ matcherRules engine, production.lhs = .matcher := by
  refine ⟨?_, ?_, ?_⟩
  all_goals
    repeat refine List.forall_mem_cons.mpr ⟨rfl, ?_⟩
    exact List.forall_mem_nil _

/-! ### Values of the grammar -/

/-- Expressions are well formed, so none of them is nil. -/
def ValueFormed : (symbol : Symbol) → Sem symbol → Prop
  | .root, e => Expr.WellFormed e
  | .expr, e => Expr.WellFormed e
  | .logBinaryOpExpr, e => Expr.WellFormed e
  | .logMetricExpr, e => Expr.WellFormed e
  | .logQueryExpr, e => LogSelectorExpr.WellFormed e
  | .logRangeQueryExpr, e => LogSelectorExpr.WellFormed e
  | _, _ => True

/-- The actions of the rules keep a property of values. -/
def Preserve (Inv : (symbol : Symbol) → Sem symbol → Prop) (rules : List Rule) : Prop :=
  ∀ production ∈ rules, production.Keeps Inv

section

variable {Inv : (symbol : Symbol) → Sem symbol → Prop} {lhs : Symbol} {rules : List Rule}

theorem preserve_nil : Preserve Inv [] :=
  List.forall_mem_nil _

theorem preserve_cons {rhs : List Symbol} {action : Goyacc.Args Sem rhs → Sem lhs}
    (first : ∀ args, Goyacc.ArgsHold Inv rhs args → Inv lhs (action args))
    (rest : Preserve Inv rules) : Preserve Inv (rule lhs rhs action :: rules) := by
  refine List.forall_mem_cons.mpr ⟨?_, rest⟩
  intro slots args value held acted
  cases acted
  exact first args held

theorem preserve_of_lhs (sameLhs : ∀ production ∈ rules, production.lhs = lhs)
    (trivially : ∀ value, Inv lhs value) : Preserve Inv rules := by
  intro production member _ _ value _ _
  have same := sameLhs production member
  subst same
  exact trivially value

theorem AllPlain.preserve (plain : AllPlain lhs rules) (trivially : ∀ value, Inv lhs value) :
    Preserve Inv rules := by
  refine preserve_of_lhs (fun production member => ?_) trivially
  cases plain production member
  rfl

end

theorem keep_exprRules : Preserve ValueFormed exprRules := by
  refine preserve_cons (fun (_, ()) held => held.1) ?_
  refine preserve_cons (fun (_, ()) held => held.1) ?_
  refine preserve_cons (fun (_, ()) held => held.1) ?_
  refine preserve_cons (fun (_, ()) _ => trivial) ?_
  refine preserve_cons (fun (_, _, _, ()) held => held.2.1) ?_
  exact preserve_nil

theorem keep_logQueryExprRules : Preserve ValueFormed logQueryExprRules := by
  refine preserve_cons (fun (_, ()) _ => trivial) ?_
  refine preserve_cons (fun (_, _, ()) _ => trivial) ?_
  exact preserve_nil

theorem keep_logRangeQueryExprRules : Preserve ValueFormed logRangeQueryExprRules := by
  refine preserve_cons (fun (_, _, ()) _ => trivial) ?_
  refine preserve_cons (fun (_, _, _, ()) _ => trivial) ?_
  refine preserve_cons (fun (_, _, _, ()) _ => trivial) ?_
  refine preserve_cons (fun (_, _, _, _, ()) _ => trivial) ?_
  refine preserve_cons (fun (_, _, _, _, _, ()) _ => trivial) ?_
  refine preserve_cons (fun (_, _, _, _, _, ()) _ => trivial) ?_
  refine preserve_cons (fun (_, _, _, _, _, _, ()) _ => trivial) ?_
  refine preserve_cons (fun (_, _, ()) held => held.1) ?_
  refine preserve_cons (fun (_, _, _, ()) held => held.2.1) ?_
  exact preserve_nil

/-- A metric expression has a range query or an expression in the place where the
production has it. -/
theorem keep_logMetricExprRules : Preserve ValueFormed logMetricExprRules := by
  refine preserve_cons (fun (_, _, _, _, ()) held => Or.inr ⟨rfl, held.2.2.1⟩) ?_
  refine preserve_cons (fun (_, _, _, _, _, ()) held => Or.inr ⟨rfl, held.2.2.1⟩) ?_
  refine preserve_cons (fun (_, _, _, _, _, _, ()) held => Or.inr ⟨rfl, held.2.2.2.2.1⟩) ?_
  refine preserve_cons (fun (_, _, _, _, _, _, _, ()) held => Or.inr ⟨rfl, held.2.2.2.2.1⟩) ?_
  refine preserve_cons (fun (_, _, _, _, _, _, _, ()) held => Or.inr ⟨rfl, held.2.2.2.2.1⟩) ?_
  refine preserve_cons (fun (_, _, _, _, _, _, _, _, ()) held => Or.inr ⟨rfl, held.2.2.2.2.1⟩) ?_
  refine preserve_cons (fun (_, _, _, _, _, ()) held => Or.inr ⟨rfl, held.2.2.1⟩) ?_
  refine preserve_cons (fun (_, _, _, _, _, _, ()) held => Or.inr ⟨rfl, held.2.2.1⟩) ?_
  refine preserve_cons (fun (_, _, _, _, _, ()) held => Or.inl ⟨held.2.2.1, rfl⟩) ?_
  refine preserve_cons (fun (_, _, _, _, ()) held => Or.inl ⟨held.2.2.1, rfl⟩) ?_
  refine preserve_cons (fun (_, _, _, _, _, _, ()) held => Or.inl ⟨held.2.2.2.2.1, rfl⟩) ?_
  refine preserve_cons (fun (_, _, _, _, _, _, _, ()) held => Or.inl ⟨held.2.2.2.2.1, rfl⟩) ?_
  refine preserve_cons (fun (_, _, _, _, _, _, _, _, ()) held => Or.inl ⟨held.2.2.2.2.1, rfl⟩) ?_
  refine preserve_cons (fun (_, _, _, _, _, _, _, ()) held => Or.inl ⟨held.2.2.2.2.2.1, rfl⟩) ?_
  refine preserve_cons (fun (_, _, _, _, _, ()) held => Or.inl ⟨held.2.2.2.1, rfl⟩) ?_
  refine preserve_cons (fun (_, _, _, _, _, _, ()) held => Or.inl ⟨held.2.2.2.1, rfl⟩) ?_
  refine preserve_cons (fun (_, _, _, _, _, _, _, _, _, _, _, _, ()) held =>
    Or.inl ⟨held.2.2.1, rfl⟩) ?_
  refine preserve_cons (fun (_, _, _, _, _, ()) held => Or.inl ⟨held.2.2.1, rfl⟩) ?_
  refine preserve_cons (fun (_, _, _, _, ()) held => Or.inl ⟨held.2.2.1, rfl⟩) ?_
  refine preserve_cons (fun (_, _, _, _, _, _, ()) held => Or.inl ⟨held.2.2.2.2.1, rfl⟩) ?_
  refine preserve_cons (fun (_, _, _, _, _, _, _, ()) held => Or.inl ⟨held.2.2.2.2.1, rfl⟩) ?_
  refine preserve_cons (fun (_, _, _, _, _, _, _, ()) held => Or.inl ⟨held.2.2.2.2.2.1, rfl⟩) ?_
  refine preserve_cons (fun (_, _, _, _, _, ()) held => Or.inl ⟨held.2.2.2.1, rfl⟩) ?_
  refine preserve_cons (fun (_, _, _, _, _, _, _, _, _, _, _, _, ()) held =>
    Or.inl ⟨held.2.2.1, rfl⟩) ?_
  refine preserve_cons (fun (_, _, _, _, ()) _ => Or.inl ⟨trivial, rfl⟩) ?_
  refine preserve_cons (fun (_, _, _, ()) held => held.2.1) ?_
  exact preserve_nil

theorem keep_logBinaryOpExprRules : Preserve ValueFormed logBinaryOpExprRules := by
  refine List.forall_mem_map.mpr ?_
  rintro ⟨operator, op⟩ - slots ⟨left, _, _, right, _⟩ value held acted
  cases acted
  exact ⟨held.1, held.2.2.2.1⟩

theorem keeps_valueFormed :
    ∀ production ∈ productions engine library, production.Keeps ValueFormed := by
  obtain ⟨-, -, -, pipeline, stage, filter, format, offset, -, -, number, stageLabels, flags,
    selector, matchers, labels, grouping, options⟩ := plain_rules library
  obtain ⟨convOp, -, metricOp, lineFilter, comparison⟩ := keyword_rules
  obtain ⟨labelFilter, parserLabels, matcher⟩ := other_rules engine
  have root : Preserve ValueFormed rootRules :=
    preserve_cons (fun (_, ()) held => held.1) preserve_nil
  unfold productions
  repeat rw [List.forall_mem_append]
  repeat rw [and_assoc]
  refine ⟨root, keep_exprRules, keep_logQueryExprRules, pipeline.preserve ?_, convOp.preserve ?_,
    stage.preserve ?_, filter.preserve ?_, preserve_of_lhs labelFilter ?_, format.preserve ?_,
    offset.preserve ?_,
    keep_logRangeQueryExprRules, keep_logMetricExprRules, keep_logBinaryOpExprRules,
    number.preserve ?_, stageLabels.preserve ?_, preserve_of_lhs parserLabels ?_, flags.preserve ?_,
    options.preserve ?_, selector.preserve ?_, matchers.preserve ?_, preserve_of_lhs matcher ?_,
    metricOp.preserve ?_, lineFilter.preserve ?_, comparison.preserve ?_, labels.preserve ?_,
    grouping.preserve ?_⟩
  all_goals exact fun _ => trivial

/-! ### Actions that panic -/

abbrev matcherRhs (operator : Terminal) : List Symbol :=
  [tok .identifier, tok operator, tok .string]

/-- The regular expression that the action of a production compiles: the string of a
matcher with `=~` or `!~`. -/
def compiledPattern (production : Rule) (args : Goyacc.Args Sem production.rhs) :
    Option GoString :=
  if production.lhs = .matcher then
    if isRe : production.rhs = matcherRhs .re then
      some (isRe ▸ args : Goyacc.Args Sem (matcherRhs .re)).2.2.1.str
    else if isNre : production.rhs = matcherRhs .nre then
      some (isNre ▸ args : Goyacc.Args Sem (matcherRhs .nre)).2.2.1.str
    else none
  else none

theorem compiledPattern_of_lhs (production : Rule) (args : Goyacc.Args Sem production.rhs)
    (notMatcher : production.lhs ≠ .matcher) : compiledPattern production args = none :=
  if_neg notMatcher

/-- The action is not that of a matcher, and always gives a value. -/
def Harmless (production : Rule) : Prop :=
  production.lhs ≠ .matcher ∧ ∀ slots args, ∃ value, production.action slots args = .ok value

theorem AllPlain.harmless {lhs : Symbol} {rules : List Rule} (plain : AllPlain lhs rules)
    (notMatcher : lhs ≠ .matcher) : ∀ production ∈ rules, Harmless production := by
  intro production member
  cases plain production member
  exact ⟨notMatcher, fun _ _ => ⟨_, rfl⟩⟩

/-- The number of a label filter is not read, and an equality is not compiled. -/
theorem harmless_otherRules :
    (∀ production ∈ logLabelFilterExprRules, Harmless production) ∧
      ∀ production ∈ logParserLabelsRules engine, Harmless production := by
  constructor
  all_goals
    repeat refine List.forall_mem_cons.mpr ⟨⟨nofun, fun _ _ => ⟨_, rfl⟩⟩, ?_⟩
    exact List.forall_mem_nil _

theorem harmless_or_matcher (production : Rule)
    (member : production ∈ productions engine library) :
    Harmless production ∨ production ∈ matcherRules engine := by
  revert production
  obtain ⟨root, expr, query, pipeline, stage, filter, format, offset, range, metric, number,
    stageLabels, flags, selector, matchers, labels, grouping, options⟩ := plain_rules library
  obtain ⟨convOp, binaryOp, metricOp, lineFilter, comparison⟩ := keyword_rules
  obtain ⟨labelFilter, parserLabels⟩ := harmless_otherRules engine
  have other : ∀ {rules : List Rule}, (∀ production ∈ rules, Harmless production) →
      ∀ production ∈ rules, Harmless production ∨ production ∈ matcherRules engine :=
    fun all production member => Or.inl (all production member)
  have plain : ∀ {lhs : Symbol} {rules : List Rule}, AllPlain lhs rules → lhs ≠ .matcher →
      ∀ production ∈ rules, Harmless production ∨ production ∈ matcherRules engine :=
    fun all notMatcher => other (all.harmless notMatcher)
  unfold productions
  repeat rw [List.forall_mem_append]
  repeat rw [and_assoc]
  exact ⟨plain root nofun, plain expr nofun, plain query nofun, plain pipeline nofun,
    plain convOp nofun, plain stage nofun, plain filter nofun, other labelFilter,
    plain format nofun, plain offset nofun, plain range nofun, plain metric nofun,
    plain binaryOp nofun, plain number nofun, plain stageLabels nofun, other parserLabels,
    plain flags nofun, plain options nofun, plain selector nofun, plain matchers nofun,
    fun _ member => Or.inr member, plain metricOp nofun, plain lineFilter nofun,
    plain comparison nofun, plain labels nofun, plain grouping nofun⟩

theorem newLabelMatcher_error_iff (type : MatchType) (name value : GoString) :
    (∃ failure, newLabelMatcher engine type name value = .error failure) ↔
      (type = .regexp ∨ type = .notRegexp) ∧ engine.compile value = none := by
  unfold newLabelMatcher newMatcher
  cases type with
  | equal => simp
  | notEqual => simp
  | regexp => cases engine.compile value <;> simp
  | notRegexp => cases engine.compile value <;> simp

def matcherRule (operator : Terminal) (type : MatchType) : Rule :=
  ⟨.matcher, matcherRhs operator,
    fun _ (i, _, s, ()) => newLabelMatcher engine type i.str s.str⟩

/-- An action panics exactly for a regular expression that does not compile. -/
theorem action_error_iff (production : Rule) (member : production ∈ productions engine library)
    (slots : Nat → Goyacc.Slot) (args : Goyacc.Args Sem production.rhs) :
    (∃ failure, production.action slots args = .error failure) ↔
      ∃ pattern, compiledPattern production args = some pattern ∧
        engine.compile pattern = none := by
  rcases harmless_or_matcher engine library production member with
    ⟨notMatcher, total⟩ | isMatcher
  · obtain ⟨value, isValue⟩ := total slots args
    rw [isValue, compiledPattern_of_lhs production args notMatcher]
    simp
  · obtain ⟨⟨operator, type⟩, isOperator, rfl⟩ := List.mem_map.mp isMatcher
    obtain ⟨name, sign, text, nothing⟩ := args
    refine (newLabelMatcher_error_iff engine type name.str text.str).trans ?_
    simp only [List.mem_cons, Prod.mk.injEq, List.not_mem_nil, or_false] at isOperator
    rcases isOperator with ⟨rfl, rfl⟩ | ⟨rfl, rfl⟩ | ⟨rfl, rfl⟩ | ⟨rfl, rfl⟩
    · simp [compiledPattern]
    · simp [compiledPattern]
    · simp [compiledPattern]
    · simp [compiledPattern]

end McoaGateway.Logql
