/-
What the parser reads: queries.

A selector and a pipeline are read as a log query with these matchers and these stages.  A
selector, a range and a pipeline in the operand of a metric operator are read as a range query.
-/

import McoaGateway.Logql.Reads

namespace McoaGateway.Logql

open GoString
open Goyacc (decision gotoState)

variable {engine : RegexpEngine} {library : Library} (unicode : Unicode)

/-! ### Selectors -/

/-- A matcher whose regular expression, if it has one, is valid. -/
def Compiles (engine : RegexpEngine) (m : Matcher) : Prop :=
  newLabelMatcher engine m.type m.name m.value = .ok m

theorem reads_matcherRule {state number ahead : Int} {operator : Terminal} {m : Matcher}
    (behind last : Int)
    (isNumbered : Numbered engine library number (matcherRule engine operator m.type))
    (isToken : (MatchType.lexeme m.type).token = some ⟨operator, ⟨[], 0⟩⟩)
    (begins : state ∈ [14, 129])
    (table : decision exprTables 80 operator.internalNumber = .shift behind ∧
      decision exprTables behind Terminal.string.internalNumber = .shift last ∧
      (0 < number ∧ Goyacc.tableEntry exprTables.defaults last = number) ∧
        Goyacc.tableEntry exprTables.pact last ≤ exprTables.flag)
    (compiles : Compiles engine m) :
    Reads engine library state .matcher (tokensOf (Matcher.lexemes unicode m)) ahead m
      (gotoState exprTables state Symbol.matcher.number) := by
  have named : ∀ state ∈ [(14 : Int), 129],
      decision exprTables state Terminal.identifier.internalNumber = .shift 80 := by
    decide +kernel
  have own : tokensOf (Matcher.lexemes unicode m) =
      [⟨.identifier, ⟨m.name, 0⟩⟩, ⟨operator, ⟨[], 0⟩⟩, ⟨.string, ⟨m.value, 0⟩⟩] := by
    change _ :: List.filterMap Lexeme.token (MatchType.lexeme m.type :: _) = _
    rw [List.filterMap_cons_some isToken]
    rfl
  exact reads_of_tokens own (reads_production isNumbered rfl
    (readsAll_token (named state begins) (readsAll_token table.1
      (readsAll_token table.2.1 (readsAll_nil last ahead))))
    (reduce_simple table.2.2 ahead) (fun _ => ⟨0, 0⟩) compiles)

variable (library) in
theorem reads_matcher {state : Int} (begins : state ∈ [14, 129]) {m : Matcher}
    (compiles : Compiles engine m) (ahead : Int) :
    Reads engine library state .matcher (tokensOf (Matcher.lexemes unicode m)) ahead m
      (gotoState exprTables state Symbol.matcher.number) := by
  obtain ⟨type, name, value⟩ := m
  cases type with
  | equal =>
      exact reads_matcherRule unicode 130 208 (numbered 20 0 rfl rfl rfl) rfl begins
        (by decide +kernel) compiles
  | notEqual =>
      exact reads_matcherRule unicode 131 209 (numbered 20 1 rfl rfl rfl) rfl begins
        (by decide +kernel) compiles
  | regexp =>
      exact reads_matcherRule unicode 132 210 (numbered 20 2 rfl rfl rfl) rfl begins
        (by decide +kernel) compiles
  | notRegexp =>
      exact reads_matcherRule unicode 133 211 (numbered 20 3 rfl rfl rfl) rfl begins
        (by decide +kernel) compiles

theorem intercalate_concat {α : Type} (separator : List α) {parts : List (List α)}
    (present : parts ≠ []) (last : List α) :
    separator.intercalate (parts ++ [last]) =
      separator.intercalate parts ++ (separator ++ last) := by
  induction parts with
  | nil => exact absurd rfl present
  | cons part parts ih =>
      cases parts with
      | nil =>
          rw [List.singleton_append, List.intercalate_cons_cons, List.intercalate_singleton,
            List.intercalate_singleton, List.append_assoc]
      | cons next parts =>
          rw [List.cons_append, List.cons_append, List.intercalate_cons_cons, ← List.cons_append,
            ih (List.cons_ne_nil _ _), List.intercalate_cons_cons, List.append_assoc,
            List.append_assoc, List.append_assoc]

variable (library) in
theorem reads_matchers {ms : List Matcher} (present : ms ≠ [])
    (compiles : ∀ m ∈ ms, Compiles engine m) (ahead : Int) :
    Reads engine library 14 .matchers (tokensOf ([Lexeme.comma, .blank].intercalate
      (ms.map (Matcher.lexemes unicode)))) ahead ms 77 := by
  obtain ⟨isTarget, isFirst, isOther, isComma⟩ :
      gotoState exprTables 14 Symbol.matchers.number = 77 ∧
      gotoState exprTables 14 Symbol.matcher.number = 79 ∧
      gotoState exprTables 129 Symbol.matcher.number = 207 ∧
      decision exprTables 77 Terminal.comma.internalNumber = .shift 129 := by decide +kernel
  induction ms using List.reverseRecOn generalizing ahead with
  | nil => exact absurd rfl present
  | append_singleton ms m ih =>
      rw [List.forall_mem_append, List.forall_mem_singleton] at compiles
      rw [← isTarget]
      by_cases isNil : ms = []
      · subst isNil
        have first := reads_matcher library unicode (by decide : (14 : Int) ∈ _) compiles.2 ahead
        rw [isFirst] at first
        exact reads_of_tokens (List.append_nil _).symm (reads_rule (numbered 19 0 rfl rfl rfl)
          (readsAll_symbol first (readsAll_nil 79 ahead)) (reduce_simple (by decide +kernel) ahead))
      · have last := reads_matcher library unicode (by decide : (129 : Int) ∈ _) compiles.2 ahead
        rw [isOther] at last
        have own : tokensOf ([Lexeme.comma, .blank].intercalate
            ((ms ++ [m]).map (Matcher.lexemes unicode))) =
            tokensOf ([Lexeme.comma, .blank].intercalate (ms.map (Matcher.lexemes unicode))) ++
              (⟨.comma, ⟨[], 0⟩⟩ :: (tokensOf (Matcher.lexemes unicode m) ++ [])) := by
          rw [List.map_append, List.map_singleton, intercalate_concat _
            (List.map_eq_nil_iff.not.mpr isNil), tokensOf_append, List.append_nil]
          rfl
        exact reads_of_tokens own (reads_rule (numbered 19 1 rfl rfl rfl)
          (readsAll_symbol (ih isNil compiles.1 _) (readsAll_token isComma
            (readsAll_symbol last (readsAll_nil 207 ahead))))
          (reduce_simple (by decide +kernel) ahead))

variable (library) in
theorem reads_selector {state : Int}
    (begins : decision exprTables state Terminal.openBrace.internalNumber = .shift 14)
    {ms : List Matcher} (compiles : ∀ m ∈ ms, Compiles engine m) (ahead : Int) :
    Reads engine library state .selector (tokensOf (selectorLexemes unicode ms)) ahead ms
      (gotoState exprTables state Symbol.selector.number) := by
  by_cases isNil : ms = []
  · subst isNil
    exact reads_rule (numbered 18 2 rfl rfl rfl) (readsAll_token begins
      (readsAll_token (by decide +kernel) (readsAll_nil 78 ahead)))
      (reduce_simple (by decide +kernel) ahead)
  · exact reads_of_tokens (congrArg (_ :: ·) (tokensOf_append _ [Lexeme.closeBrace]))
      (reads_rule (numbered 18 0 rfl rfl rfl)
        (readsAll_token begins (readsAll_symbol (reads_matchers library unicode isNil compiles _)
          (readsAll_token (by decide +kernel) (readsAll_nil 127 ahead))))
        (reduce_simple (by decide +kernel) ahead))

example : decision exprTables 77 Terminal.closeBrace.internalNumber = .shift 127 := by
  decide +kernel

/-! ### Groupings -/

variable (engine library) in
theorem reads_labels {state : Int} (begins : state ∈ [123, 124]) {names : List GoString}
    (present : names ≠ []) (ahead : Int) :
    Reads engine library state .labels (tokensOf (namesLexemes names)) ahead names
      (gotoState exprTables state Symbol.labels.number) := by
  have table : ∀ state ∈ [(123 : Int), 124],
      decision exprTables state Terminal.identifier.internalNumber = .shift 202 ∧
      decision exprTables (gotoState exprTables state Symbol.labels.number)
        Terminal.comma.internalNumber = .shift 249 := by decide +kernel
  obtain ⟨isName, isComma⟩ := table state begins
  induction names using List.reverseRecOn generalizing ahead with
  | nil => exact absurd rfl present
  | append_singleton names name ih =>
      by_cases isNil : names = []
      · subst isNil
        exact reads_rule (numbered 24 0 rfl rfl rfl)
          (readsAll_token isName (readsAll_nil 202 ahead))
          (reduce_simple (by decide +kernel) ahead)
      · have own : tokensOf (namesLexemes (names ++ [name])) =
            tokensOf (namesLexemes names) ++ [⟨.comma, ⟨[], 0⟩⟩, ⟨.identifier, ⟨name, 0⟩⟩] := by
          rw [namesLexemes, List.map_append, List.map_singleton, intercalate_concat _
            (List.map_eq_nil_iff.not.mpr isNil), tokensOf_append]
          rfl
        exact reads_of_tokens own (reads_rule (numbered 24 1 rfl rfl rfl)
          (readsAll_symbol (ih isNil _) (readsAll_token isComma
            (readsAll_token (by decide +kernel) (readsAll_nil 281 ahead))))
          (reduce_simple (by decide +kernel) ahead))

variable (engine library) in
/-- A grouping behind a range query in parentheses. -/
theorem reads_grouping {g : Grouping} (present : g.groups ≠ []) (ahead : Int) :
    Reads engine library 300 .grouping (tokensOf g.lexemes) ahead g
      (gotoState exprTables 300 Symbol.grouping.number) := by
  obtain ⟨without, groups⟩ := g
  refine reads_of_tokens (tokensOf_append _ [Lexeme.rparen]) ?_
  cases without with
  | false =>
      have opens : decision exprTables 300 Terminal.byToken.internalNumber = .shift 72 := by
        decide +kernel
      exact reads_rule (numbered 25 0 rfl rfl rfl)
        (readsAll_token opens (readsAll_token (by decide +kernel)
          (readsAll_symbol (reads_labels engine library (by decide : (123 : Int) ∈ _) present _)
            (readsAll_token (by decide +kernel) (readsAll_nil 250 ahead)))))
        (reduce_simple (by decide +kernel) ahead)
  | true =>
      have opens : decision exprTables 300 Terminal.without.internalNumber = .shift 73 := by
        decide +kernel
      exact reads_rule (numbered 25 1 rfl rfl rfl)
        (readsAll_token opens (readsAll_token (by decide +kernel)
          (readsAll_symbol (reads_labels engine library (by decide : (124 : Int) ∈ _) present _)
            (readsAll_token (by decide +kernel) (readsAll_nil 251 ahead)))))
        (reduce_simple (by decide +kernel) ahead)

/-! ### Range queries -/

def rangeLexemes (ms : List Matcher) (rng : GoString) (forms : List StageForm) : List Lexeme :=
  selectorLexemes unicode ms ++ (.range rng :: pipelineLexemes unicode forms)

/-- A range query; with a grouping, it stands in parentheses. -/
def rangeQueryLexemes (ms : List Matcher) (rng : GoString) (forms : List StageForm) :
    Option Grouping → List Lexeme
  | none => rangeLexemes unicode ms rng forms
  | some g =>
      Lexeme.lparen :: (rangeLexemes unicode ms rng forms ++
        (Lexeme.rparen :: .blank :: g.lexemes))

theorem close_follows : Terminal.closeParenthesis.internalNumber ∈ stageFollowers := by
  decide

section

variable {ms : List Matcher} (compiles : ∀ m ∈ ms, Compiles engine m) {forms : List StageForm}
  (writable : ∀ form ∈ forms, form.Writable library) (rng : GoString)

include compiles writable

theorem reads_plainRange :
    Reads engine library 70 .logRangeQueryExpr (tokensOf (rangeLexemes unicode ms rng forms))
      Terminal.closeParenthesis.internalNumber
      (.rangeQuery (.query ⟨⟨ms⟩, forms.map StageForm.stage⟩) rng none false)
      (gotoState exprTables 70 Symbol.logRangeQueryExpr.number) := by
  have opens : decision exprTables 70 Terminal.openBrace.internalNumber = .shift 14 := by
    decide +kernel
  have selector := reads_selector library unicode opens compiles Terminal.range.internalNumber
  have isRange : decision exprTables (gotoState exprTables 70 Symbol.selector.number)
      Terminal.range.internalNumber = .shift 194 := by decide +kernel
  by_cases isNil : forms = []
  · subst isNil
    exact reads_of_tokens (tokensOf_append _ _) (reads_rule (numbered 10 0 rfl rfl rfl)
      (readsAll_symbol selector (readsAll_token isRange (readsAll_nil 194 _)))
      (by decide +kernel))
  · have own : tokensOf (rangeLexemes unicode ms rng forms) =
        tokensOf (selectorLexemes unicode ms) ++ (⟨.range, ⟨rng, 0⟩⟩ ::
          (tokensOf (pipelineLexemes unicode forms) ++ [])) := by
      rw [rangeLexemes, tokensOf_append, List.append_nil]
      rfl
    exact reads_of_tokens own (reads_rule (numbered 10 1 rfl rfl rfl)
      (readsAll_symbol selector (readsAll_token isRange
        (readsAll_symbol (reads_pipeline unicode (by decide) forms isNil writable _
          (by exact close_follows)) (readsAll_nil _ _))))
      (by decide +kernel))

/-- A grouping stands behind a pipeline. -/
theorem reads_groupedRange (present : forms ≠ []) {g : Grouping} (named : g.groups ≠ []) :
    Reads engine library 70 .logRangeQueryExpr
      (tokensOf (rangeQueryLexemes unicode ms rng forms (some g)))
      Terminal.closeParenthesis.internalNumber
      (.rangeQuery (.query ⟨⟨ms⟩, forms.map StageForm.stage⟩) rng (some g) false)
      (gotoState exprTables 70 Symbol.logRangeQueryExpr.number) := by
  have opens : decision exprTables 70 Terminal.openParenthesis.internalNumber = .shift 120 := by
    decide +kernel
  have isRange : decision exprTables (gotoState exprTables 120 Symbol.selector.number)
      Terminal.range.internalNumber = .shift 243 := by decide +kernel
  have closes : decision exprTables (gotoState exprTables 243 Symbol.logPipelineExpr.number)
      Terminal.closeParenthesis.internalNumber = .shift 300 := by decide +kernel
  have own : tokensOf (rangeQueryLexemes unicode ms rng forms (some g)) =
      ⟨.openParenthesis, ⟨[], 0⟩⟩ :: (tokensOf (selectorLexemes unicode ms) ++
        (⟨.range, ⟨rng, 0⟩⟩ :: (tokensOf (pipelineLexemes unicode forms) ++
          (⟨.closeParenthesis, ⟨[], 0⟩⟩ :: (tokensOf g.lexemes ++ []))))) := by
    change _ :: tokensOf ((_ ++ (_ :: _)) ++ _) = _
    rw [List.append_assoc, tokensOf_append, List.cons_append, List.append_nil]
    change _ :: (_ ++ (_ :: tokensOf (_ ++ _))) = _
    rw [tokensOf_append]
    rfl
  exact reads_of_tokens own (reads_rule (numbered 10 6 rfl rfl rfl)
    (readsAll_token opens
      (readsAll_symbol (reads_selector library unicode (by decide +kernel) compiles _)
        (readsAll_token isRange
          (readsAll_symbol
            (reads_pipeline unicode (by decide) forms present writable _ (by exact close_follows))
            (readsAll_token closes
              (readsAll_symbol (reads_grouping engine library named _) (readsAll_nil _ _)))))))
    (by decide +kernel))

end

example : decision exprTables 194 Terminal.closeParenthesis.internalNumber = .reduce 47 := by
  decide +kernel

/-! ### Log queries -/

/-- A log query, up to the end of the input. -/
theorem reads_query {ms : List Matcher} (compiles : ∀ m ∈ ms, Compiles engine m)
    {forms : List StageForm} (writable : ∀ form ∈ forms, form.Writable library) :
    Reads engine library 0 .root
      (tokensOf (selectorLexemes unicode ms ++ pipelineLexemes unicode forms)) 1
      (.selector (.query ⟨⟨ms⟩, forms.map StageForm.stage⟩))
      (gotoState exprTables 0 Symbol.root.number) := by
  have opens : decision exprTables 0 Terminal.openBrace.internalNumber = .shift 14 := by
    decide +kernel
  have isSelector : gotoState exprTables 0 Symbol.selector.number = 8 := by decide +kernel
  have selector := fun ahead => reads_selector library unicode opens compiles ahead
  rw [isSelector] at selector
  have query : Reads engine library 0 .logQueryExpr
      (tokensOf (selectorLexemes unicode ms ++ pipelineLexemes unicode forms)) 1
      (.query ⟨⟨ms⟩, forms.map StageForm.stage⟩)
      (gotoState exprTables 0 Symbol.logQueryExpr.number) := by
    rw [tokensOf_append]
    by_cases isNil : forms = []
    · subst isNil
      exact reads_rule (numbered 2 0 rfl rfl rfl)
        (readsAll_symbol (selector _) (readsAll_nil 8 1)) (by decide +kernel)
    · exact reads_of_tokens (congrArg (_ ++ ·) (List.append_nil _).symm)
        (reads_rule (numbered 2 1 rfl rfl rfl)
          (readsAll_symbol (selector _) (readsAll_symbol
            (reads_pipeline unicode (by decide) forms isNil writable _
              (by exact List.mem_cons_self)) (readsAll_nil _ 1))) (by decide +kernel))
  have expr := reads_rule (numbered 1 0 rfl rfl rfl)
    (readsAll_symbol query (readsAll_nil _ 1)) (by decide +kernel)
  have root := reads_rule (numbered 0 0 rfl rfl rfl)
    (readsAll_symbol expr (readsAll_nil _ 1)) (by decide +kernel)
  exact reads_of_tokens ((List.append_nil _).trans (List.append_nil _)).symm root

/-! ### Metric operators -/

def MetricOp.kind : MetricOp → Terminal
  | .countOverTime => .countOverTime
  | .rate => .rate
  | .rateCounter => .rateCounter
  | .bytesOverTime => .bytesOverTime
  | .bytesRate => .bytesRate
  | .avgOverTime => .avgOverTime
  | .sumOverTime => .sumOverTime
  | .minOverTime => .minOverTime
  | .maxOverTime => .maxOverTime
  | .stdvarOverTime => .stdvarOverTime
  | .stddevOverTime => .stddevOverTime
  | .quantileOverTime => .quantileOverTime
  | .firstOverTime => .firstOverTime
  | .lastOverTime => .lastOverTime
  | .absentOverTime => .absentOverTime
  | .sum => .sum
  | .avg => .avg
  | .count => .count
  | .max => .max
  | .min => .min
  | .stddev => .stddev
  | .stdvar => .stdvar
  | .bottomK => .bottomK
  | .topK => .topK
  | .sort => .sort
  | .sortDesc => .sortDesc
  | .vector => .vector
  | .labelReplace => .labelReplace

variable (engine library) in
/-- The rules of `metricOp` have the order of the operators. -/
theorem reads_metricOp {op : MetricOp} (notReplace : op ≠ .labelReplace) (ahead : Int) :
    Reads engine library 0 .metricOp [⟨op.kind, ⟨[], 0⟩⟩] ahead op
      (gotoState exprTables 0 Symbol.metricOp.number) := by
  have isRule : metricOpRules[op.ctorIdx]? = some (rule .metricOp [tok op.kind] fun _ => op) := by
    cases op <;> first
      | rfl
      | exact absurd rfl notReplace
  refine reads_keyword (15 + op.ctorIdx) (numbered 21 op.ctorIdx rfl rfl isRule) ?_ ahead
  cases op <;> first
    | decide +kernel
    | exact absurd rfl notReplace

/-- An operator and its operand, up to the end of the input. -/
theorem reads_metric {op : MetricOp} (notReplace : op ≠ .labelReplace) {lexemes : List Lexeme}
    {e : LogSelectorExpr}
    (operand : Reads engine library 70 .logRangeQueryExpr (tokensOf lexemes)
      Terminal.closeParenthesis.internalNumber e
      (gotoState exprTables 70 Symbol.logRangeQueryExpr.number)) :
    Reads engine library 0 .root
      (tokensOf (.function op.text op.kind :: Lexeme.lparen :: (lexemes ++ [Lexeme.rparen]))) 1
      (.metric .nil e ⟨op, [], none, false, [], 0⟩)
      (gotoState exprTables 0 Symbol.root.number) := by
  have opens : decision exprTables (gotoState exprTables 0 Symbol.metricOp.number)
      Terminal.openParenthesis.internalNumber = .shift 70 := by decide +kernel
  have own : tokensOf (.function op.text op.kind :: Lexeme.lparen :: (lexemes ++ [Lexeme.rparen])) =
      [⟨op.kind, ⟨[], 0⟩⟩] ++ (⟨.openParenthesis, ⟨[], 0⟩⟩ ::
        (tokensOf lexemes ++ [⟨.closeParenthesis, ⟨[], 0⟩⟩])) :=
    congrArg (_ :: _ :: ·) (tokensOf_append _ _)
  have metric : Reads engine library 0 .logMetricExpr _ 1
      (.metric .nil e ⟨op, [], none, false, [], 0⟩) _ :=
    reads_of_tokens own (reads_rule (numbered 11 0 rfl rfl rfl)
      (readsAll_symbol (reads_metricOp engine library notReplace _) (readsAll_token opens
        (readsAll_symbol operand (readsAll_token (by decide +kernel) (readsAll_nil 186 1)))))
      (by decide +kernel))
  have expr := reads_rule (numbered 1 1 rfl rfl rfl)
    (readsAll_symbol metric (readsAll_nil _ 1)) (by decide +kernel)
  have root := reads_rule (numbered 0 0 rfl rfl rfl)
    (readsAll_symbol expr (readsAll_nil _ 1)) (by decide +kernel)
  exact reads_of_tokens ((List.append_nil _).trans (List.append_nil _)).symm root

example : decision exprTables (gotoState exprTables 0 Symbol.root.number) 1 = .accept := by
  decide +kernel

end McoaGateway.Logql
