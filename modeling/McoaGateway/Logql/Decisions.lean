/-
What the LogQL parser does with given tokens.

The numbers of the productions and the lengths of their right-hand sides in the tables are
those of the grammar.  Of a token, the actions read nothing but the text, and that for four
kinds only.  All actions but the one for numeric label filters give the same value wherever
the stack is kept.
-/

import McoaGateway.Goyacc.Reaches
import McoaGateway.Logql.Pooled
import McoaGateway.Logql.Returns

namespace McoaGateway.Logql

open Goyacc (decision defaultDecision shiftTarget shiftPath tableEntry gotoState Decision)

/-! ### Productions -/

/-- The number of a nonterminal in the tables. -/
def Symbol.number : Symbol → Int
  | .terminal _ => 0
  | .error => 0
  | .root => 1
  | .binaryOpOptions => 2
  | .comparisonOp => 3
  | .expr => 4
  | .filter => 5
  | .labels => 6
  | .logBinaryOpExpr => 7
  | .logFilterExpr => 8
  | .logLabelFilterExpr => 9
  | .logFormatExpr => 10
  | .logQueryExpr => 11
  | .logMetricExpr => 12
  | .logNumberExpr => 13
  | .logPipelineExpr => 14
  | .logStageExpr => 15
  | .logRangeQueryExpr => 16
  | .logOffsetExpr => 17
  | .logStageLabels => 18
  | .logParserLabels => 19
  | .logFMTFlags => 20
  | .matcher => 21
  | .matchers => 22
  | .metricOp => 23
  | .selector => 24
  | .grouping => 25
  | .convOp => 26

/-- What the tables know of a production. -/
def tableRow (production : Rule) : Int × Int :=
  (production.lhs.number, production.rhs.length)

section

variable (engine : RegexpEngine) (library : Library)

theorem tableRows :
    (productions engine library).map tableRow = (exprR1.zip exprR2).drop 1 := by
  have number : ∀ own, (logNumberExprRules own).map tableRow = [(13, 1), (13, 2), (13, 2)] :=
    fun _ => rfl
  have labels : ∀ own, (logParserLabelsRules own).map tableRow = [(19, 1), (19, 3), (19, 3)] :=
    fun _ => rfl
  have matcher : ∀ own, (matcherRules own).map tableRow = [(21, 3), (21, 3), (21, 3), (21, 3)] :=
    fun _ => rfl
  have same : (productions engine library).map tableRow =
      (productions .literals .asciiOnly).map tableRow := by
    unfold productions
    repeat rw [List.map_append]
    rw [number library, number .asciiOnly, labels engine, labels .literals, matcher engine,
      matcher .literals]
  rw [same]
  decide +kernel

theorem tableRow_found {number : Int} {production : Rule} (positive : 0 < number)
    (found : (productions engine library)[number.toNat - 1]? = some production) :
    tableEntry exprTables.r1 number = production.lhs.number ∧
      tableEntry exprTables.r2 number = production.rhs.length := by
  have isRow : ((productions engine library).map tableRow)[number.toNat - 1]? =
      some (tableRow production) := by
    rw [List.getElem?_map, found]
    rfl
  rw [tableRows, List.getElem?_drop, Nat.add_sub_cancel' (by omega),
    List.getElem?_zip_eq_some] at isRow
  unfold tableEntry
  rw [List.getD_eq_getElem?_getD, List.getD_eq_getElem?_getD]
  change exprR1[number.toNat]?.getD 0 = _ ∧ exprR2[number.toNat]?.getD 0 = _
  rw [isRow.1, isRow.2]
  exact ⟨rfl, rfl⟩

/-- The rules by their left-hand side. -/
def productionFamilies : List (List Rule) :=
  [rootRules, exprRules, logQueryExprRules, logPipelineExprRules, convOpRules, logStageExprRules,
    logFilterExprRules, logLabelFilterExprRules, logFormatExprRules, logOffsetExprRules,
    logRangeQueryExprRules, logMetricExprRules, logBinaryOpExprRules, logNumberExprRules library,
    logStageLabelsRules, logParserLabelsRules engine, logFMTFlagsRules, binaryOpOptionsRules,
    selectorRules, matchersRules, matcherRules engine, metricOpRules, filterRules,
    comparisonOpRules, labelsRules, groupingRules]

theorem productions_flatten :
    productions engine library = (productionFamilies engine library).flatten := by
  unfold productions productionFamilies
  repeat rw [List.flatten_cons]
  rw [List.flatten_nil, List.append_nil]
  repeat rw [List.append_assoc]

def familyLengths : List Nat :=
  [1, 5, 2, 2, 3, 17, 4, 7, 4, 1, 9, 26, 15, 3, 3, 3, 3, 22, 3, 2, 4, 27, 6, 8, 2, 4]

theorem length_families :
    (productionFamilies engine library).map List.length = familyLengths :=
  rfl

theorem getElem?_flatten {α : Type} {families : List (List α)} {place index : Nat}
    {family : List α} (isFamily : families[place]? = some family) (inside : index < family.length) :
    families.flatten[((families.map List.length).take place).sum + index]? = family[index]? := by
  induction families generalizing place with
  | nil => cases isFamily
  | cons first families ih =>
      cases place with
      | zero =>
          cases isFamily
          rw [List.flatten_cons, List.take_zero, List.sum_nil, Nat.zero_add,
            List.getElem?_append_left inside]
      | succ place =>
          rw [List.flatten_cons, List.map_cons, List.take_succ_cons, List.sum_cons, Nat.add_assoc,
            List.getElem?_append_right (Nat.le_add_right _ _), Nat.add_sub_cancel_left]
          exact ih isFamily

/-- The production has the number in the tables. -/
structure Numbered (number : Int) (production : Rule) : Prop where
  positive : 0 < number
  found : (productions engine library)[number.toNat - 1]? = some production

variable {engine library}

theorem numbered {number : Int} (place index : Nat) {family : List Rule} {production : Rule}
    (isFamily : (productionFamilies engine library)[place]? = some family)
    (isNumber : number = (familyLengths.take place).sum + index + 1)
    (isRule : family[index]? = some production) : Numbered engine library number production := by
  obtain ⟨inside, -⟩ := List.getElem?_eq_some_iff.mp isRule
  refine ⟨by omega, ?_⟩
  have isPlace : number.toNat - 1 = (familyLengths.take place).sum + index := by omega
  rw [isPlace, productions_flatten, ← length_families engine library,
    getElem?_flatten isFamily inside, isRule]

end

/-! ### Reductions -/

theorem reduce_of_default {state token number : Int}
    (byDefault : 0 < number ∧ tableEntry exprTables.defaults state = number)
    (noShift : shiftTarget exprTables state token = none) :
    decision exprTables state token = .reduce number := by
  obtain ⟨positive, isNumber⟩ := byDefault
  unfold decision defaultDecision
  rw [noShift]
  dsimp only
  rw [isNumber, if_neg (by omega), if_neg (by omega)]

/-- A state that only reduces. -/
theorem reduce_simple {state number : Int}
    (simple : (0 < number ∧ tableEntry exprTables.defaults state = number) ∧
      tableEntry exprTables.pact state ≤ exprTables.flag) (token : Int) :
    decision exprTables state token = .reduce number :=
  reduce_of_default simple.1 (if_neg fun holds => absurd holds.1 (Int.not_lt.mpr simple.2))

/-! ### What the actions read -/

def AlikeSem (symbol : Symbol) (value value' : Sem symbol) : Prop :=
  coreSem symbol value = coreSem symbol value'

/-- The filter with a number takes an address. -/
def Rule.takesAddress (production : Rule) : Bool :=
  production.rhs = [tok .identifier, .comparisonOp, .logNumberExpr]

/-- The action gives the same wherever the values are kept. -/
def Steady (rules : List Rule) : Prop :=
  ∀ production ∈ rules, production.takesAddress = false → ∀ slots slots' args,
    production.action slots args = production.action slots' args

section

variable (engine : RegexpEngine) (library : Library)

theorem steady_labelFilters : Steady logLabelFilterExprRules := by
  repeat refine List.forall_mem_cons.mpr ⟨fun _ _ _ _ => rfl, ?_⟩
  refine List.forall_mem_cons.mpr ⟨fun noAddress => absurd noAddress (by decide), ?_⟩
  repeat refine List.forall_mem_cons.mpr ⟨fun _ _ _ _ => rfl, ?_⟩
  exact List.forall_mem_nil _

theorem steady_productions : Steady (productions engine library) := by
  unfold productions Steady
  repeat rw [List.forall_mem_append]
  repeat rw [and_assoc]
  refine ⟨?_, ?_, ?_, ?_, ?_, ?_, ?_, steady_labelFilters, ?_, ?_, ?_, ?_, ?_, ?_, ?_, ?_, ?_, ?_,
    ?_, ?_, ?_, ?_, ?_, ?_, ?_, ?_⟩
  all_goals
    repeat refine List.forall_mem_cons.mpr ⟨fun _ _ _ _ => rfl, ?_⟩
    exact List.forall_mem_nil _

theorem coreArgs_alike {symbols : List Symbol} {args args' : Goyacc.Args Sem symbols}
    (alike : Goyacc.ArgsAlike (G := grammar engine library) AlikeSem symbols args args') :
    Goyacc.coreArgs (G := grammar engine library) coreSem symbols args =
      Goyacc.coreArgs (G := grammar engine library) coreSem symbols args' := by
  induction symbols with
  | nil => rfl
  | cons symbol symbols ih => exact congrArg₂ Prod.mk alike.1 (ih alike.2)

/-- The action gives the same for values that are alike. -/
theorem action_alike {production : Rule} (member : production ∈ productions engine library)
    (noAddress : production.takesAddress = false) (slots slots' : Nat → Goyacc.Slot)
    {args args' : Goyacc.Args Sem production.rhs}
    (alike : Goyacc.ArgsAlike (G := grammar engine library) AlikeSem production.rhs args args') :
    production.action slots args = production.action slots' args' := by
  have cored := (cored_productions engine library production member).2
  rw [steady_productions engine library production member noAddress slots slots' args,
    cored slots' args, cored slots' args', coreArgs_alike engine library alike]

end

end McoaGateway.Logql
