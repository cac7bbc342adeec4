/-
The traversal of a LogQL expression (the `Walk` methods of `logql/v2/ast.go`).

A callback may change the node that it is given.  The callbacks of the gateway
change log queries or stream selectors, and do nothing for the other nodes, so a
`Visitor` has a part for each of the two, and passes on a state of its own.

In an expression that the parser can build, the selectors that `Walk` visits are
the ones that `String` writes, each of them once and in the same order
(`Expr.walk_rendered`).
-/

import McoaGateway.Logql.Print

namespace McoaGateway.Logql

open GoString

structure Visitor (State : Type) where
  query : LogQueryExpr → State → LogQueryExpr × State
  selector : StreamMatcherExpr → State → StreamMatcherExpr × State

def Visitor.onSelectors {State : Type}
    (change : StreamMatcherExpr → State → StreamMatcherExpr × State) : Visitor State :=
  ⟨fun q state => (q, state), change⟩

section

variable {State : Type} (visitor : Visitor State)

def LogQueryExpr.walk (q : LogQueryExpr) (state : State) : LogQueryExpr × State :=
  let (q, state) := visitor.query q state
  let (left, state) := visitor.selector q.left state
  ({ q with left := left }, state)

def LogSelectorExpr.walk : LogSelectorExpr → State → LogSelectorExpr × State
  | .nil, state => (.nil, state)
  | .query q, state =>
      let (q, state) := q.walk visitor state
      (.query q, state)
  | .rangeQuery left rng grouping rngLast, state =>
      let (left, state) := left.walk state
      (.rangeQuery left rng grouping rngLast, state)
  | .parenthesis inner, state =>
      let (inner, state) := inner.walk state
      (.parenthesis inner, state)

/-- Both operands of a metric expression are visited, if they are there. -/
def Expr.walk : Expr → State → Expr × State
  | .nil, state => (.nil, state)
  | .selector e, state =>
      let (e, state) := e.walk visitor state
      (.selector e, state)
  | .metric inner left fields, state =>
      let (inner, state) := inner.walk state
      let (left, state) := left.walk visitor state
      (.metric inner left fields, state)
  | .metricParenthesis inner, state =>
      let (inner, state) := inner.walk state
      (.metricParenthesis inner, state)
  | .binaryOp op modifier left right, state =>
      let (left, state) := left.walk state
      let (right, state) := right.walk state
      (.binaryOp op modifier left right, state)
  | .number n, state => (.number n, state)
  | .vector value, state => (.vector value, state)
  | .parenthesis inner, state =>
      let (inner, state) := inner.walk state
      (.parenthesis inner, state)

end

/-- The selectors that a callback is given, in order. -/
def Expr.visited (e : Expr) : List StreamMatcherExpr :=
  (e.walk (Visitor.onSelectors fun s seen => (s, seen ++ [s])) []).2

/-- `AppendPipelineMatchers` -/
def LogQueryExpr.appendPipelineMatchers (chainOp : ChainOp) (matchers : List Matcher)
    (q : LogQueryExpr) : LogQueryExpr :=
  let comparison : MatchType → ComparisonOp
    | .equal => .eq
    | .notEqual => .neq
    | .regexp => .re
    | .notRegexp => .nre
  match matchers with
  | [] => q
  | first :: rest =>
      let right := rest.map fun m =>
        LogLabelFilterExpr.mk m.name (comparison m.type) false (.text m.value) true
          (some chainOp) []
      { q with
        filter :=
          .labelFilter (.mk first.name (comparison first.type) false (.text first.value)
            false none right) :: q.filter }

/-! ### Expressions of the grammar -/

def LogSelectorExpr.WellFormed : LogSelectorExpr → Prop
  | .nil => False
  | .query _ => True
  | .rangeQuery left _ _ _ => left.WellFormed
  | .parenthesis inner => inner.WellFormed

def Expr.WellFormed : Expr → Prop
  | .nil => False
  | .selector e => e.WellFormed
  | .metric inner left _ =>
      inner.WellFormed ∧ left = .nil ∨ inner = .nil ∧ left.WellFormed
  | .metricParenthesis inner => inner.WellFormed
  | .binaryOp _ _ left right => left.WellFormed ∧ right.WellFormed
  | .number _ => True
  | .vector _ => True
  | .parenthesis inner => inner.WellFormed

theorem Expr.WellFormed.isNil {e : Expr} (wellFormed : e.WellFormed) : e.isNil = false := by
  cases e with
  | nil => exact wellFormed.elim
  | _ => rfl

/-! ### What a traversal changes -/

/-- The expression with all selectors emptied: everything else that it has. -/
def LogSelectorExpr.erase : LogSelectorExpr → LogSelectorExpr
  | .nil => .nil
  | .query q => .query { q with left := ⟨[]⟩ }
  | .rangeQuery left rng grouping rngLast => .rangeQuery left.erase rng grouping rngLast
  | .parenthesis inner => .parenthesis inner.erase

def Expr.erase : Expr → Expr
  | .nil => .nil
  | .selector e => .selector e.erase
  | .metric inner left fields => .metric inner.erase left.erase fields
  | .metricParenthesis inner => .metricParenthesis inner.erase
  | .binaryOp op modifier left right => .binaryOp op modifier left.erase right.erase
  | .number n => .number n
  | .vector value => .vector value
  | .parenthesis inner => .parenthesis inner.erase

/-- Apply a callback to one selector after the other. -/
def visitAll {State : Type}
    (change : StreamMatcherExpr → State → StreamMatcherExpr × State) :
    List StreamMatcherExpr → State → List StreamMatcherExpr × State
  | [], state => ([], state)
  | s :: rest, state =>
      let (s, state) := change s state
      let (rest, state) := visitAll change rest state
      (s :: rest, state)

section

variable {State : Type} (change : StreamMatcherExpr → State → StreamMatcherExpr × State)

theorem visitAll_append (first second : List StreamMatcherExpr) (state : State) :
    visitAll change (first ++ second) state =
      ((visitAll change first state).1 ++
        (visitAll change second (visitAll change first state).2).1,
      (visitAll change second (visitAll change first state).2).2) := by
  induction first generalizing state with
  | nil => rfl
  | cons s rest ih =>
      have tail := ih (change s state).2
      simp only [List.cons_append, visitAll, tail]

theorem LogSelectorExpr.erase_walk (e : LogSelectorExpr) (state : State) :
    (e.walk (.onSelectors change) state).1.erase = e.erase := by
  induction e generalizing state with
  | nil => rfl
  | query q => rfl
  | rangeQuery left rng grouping rngLast ih =>
      rw [walk, erase, erase, ih]
  | parenthesis inner ih =>
      rw [walk, erase, erase, ih]

theorem Expr.erase_walk (e : Expr) (state : State) :
    (e.walk (.onSelectors change) state).1.erase = e.erase := by
  induction e generalizing state with
  | nil => rfl
  | selector e => rw [walk, erase, erase, LogSelectorExpr.erase_walk]
  | metric inner left fields ih => rw [walk, erase, erase, ih, LogSelectorExpr.erase_walk]
  | metricParenthesis inner ih => rw [walk, erase, erase, ih]
  | binaryOp op modifier left right ihLeft ihRight =>
      rw [walk, erase, erase, ihLeft, ihRight]
  | number n => rfl
  | vector value => rfl
  | parenthesis inner ih => rw [walk, erase, erase, ih]

theorem LogSelectorExpr.walk_rendered (e : LogSelectorExpr) (state : State) :
    (e.walk (.onSelectors change) state).1.rendered =
        (visitAll change e.rendered state).1 ∧
      (e.walk (.onSelectors change) state).2 = (visitAll change e.rendered state).2 := by
  induction e generalizing state with
  | nil => exact ⟨rfl, rfl⟩
  | query q => exact ⟨rfl, rfl⟩
  | rangeQuery left rng grouping rngLast ih =>
      rw [walk, rendered, rendered]
      exact ih state
  | parenthesis inner ih =>
      rw [walk, rendered, rendered]
      exact ih state

theorem Expr.isNil_walk (e : Expr) (state : State) :
    (e.walk (.onSelectors change) state).1.isNil = e.isNil := by
  cases e <;> rfl

/-- The callback is applied to the selectors of the text, to each of them once and
in order. -/
theorem Expr.walk_rendered (e : Expr) (wellFormed : e.WellFormed) (state : State) :
    (e.walk (.onSelectors change) state).1.rendered =
        (visitAll change e.rendered state).1 ∧
      (e.walk (.onSelectors change) state).2 = (visitAll change e.rendered state).2 := by
  induction e generalizing state with
  | nil => exact wellFormed.elim
  | selector e => exact e.walk_rendered change state
  | metric inner left fields ih =>
      rw [walk, rendered, rendered, isNil_walk]
      rcases wellFormed with ⟨innerFormed, rfl⟩ | ⟨rfl, leftFormed⟩
      · rw [innerFormed.isNil]
        exact ih innerFormed state
      · exact left.walk_rendered change state
  | metricParenthesis inner ih => exact ih wellFormed state
  | binaryOp op modifier left right ihLeft ihRight =>
      obtain ⟨leftFormed, rightFormed⟩ := wellFormed
      obtain ⟨leftRendered, leftState⟩ := ihLeft leftFormed state
      obtain ⟨rightRendered, rightState⟩ :=
        ihRight rightFormed (visitAll change left.rendered state).2
      rw [walk, rendered, rendered, visitAll_append]
      simp only [leftState, leftRendered, rightState, rightRendered]
      exact ⟨trivial, trivial⟩
  | number n => exact ⟨rfl, rfl⟩
  | vector value => exact ⟨rfl, rfl⟩
  | parenthesis inner ih => exact ih wellFormed state

end

theorem visitAll_record (selectors seen : List StreamMatcherExpr) :
    (visitAll (fun s seen => (s, seen ++ [s])) selectors seen).2 = seen ++ selectors := by
  induction selectors generalizing seen with
  | nil => exact (List.append_nil seen).symm
  | cons s rest ih =>
      rw [visitAll]
      dsimp only
      rw [ih, List.append_assoc, List.singleton_append]

theorem Expr.visited_eq_rendered (e : Expr) (wellFormed : e.WellFormed) :
    e.visited = e.rendered := by
  have walked := e.walk_rendered (fun s seen => (s, seen ++ [s])) wellFormed []
  rw [visited, walked.2, visitAll_record, List.nil_append]

end McoaGateway.Logql
