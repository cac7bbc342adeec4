/-
The text of a log query.

The text of a selector and a pipeline is parsed as this selector and this pipeline, if they
can be written.  The text of a label filter is put between quotes as it is: if it needs an
escape there, then what is printed is something else.
-/

import McoaGateway.Logql.RangeText

namespace McoaGateway.Logql

open GoString

variable {engine : RegexpEngine} {library : Library} {unicode : Unicode} {numbers : Numbers}

theorem query_reparsed {q : LogQueryExpr}
    (matcher : ∀ m ∈ q.left.matchers, WritableMatcher m ∧ Compiles engine m)
    (written : ∀ stage ∈ q.filter, ∃ form : StageForm, form.stage = stage ∧ form.Writable library)
    {capacity : Nat} (room : 4 ≤ capacity) (parser : Parser)
    (within : ∀ state, Called library (parser.start capacity (q.string unicode numbers)) state →
      LooksWithin library state.scanner) :
    ∃ rounds numbers', parseExprWith engine library capacity rounds parser
        (q.string unicode numbers) = some (.expr (.selector (.query q)) numbers') := by
  obtain ⟨⟨matchers⟩, filter⟩ := q
  obtain ⟨forms, rfl, canWrite⟩ := exists_forms written
  have isText : lexemesText (selectorLexemes unicode matchers ++ pipelineLexemes unicode forms) =
      LogQueryExpr.string unicode numbers ⟨⟨matchers⟩, forms.map StageForm.stage⟩ := by
    rw [lexemesText_append, text_selector unicode fun m member => (matcher m member).1,
      text_pipeline unicode numbers canWrite, ← pipelineText_eq ⟨matchers⟩]
    rfl
  have fits : Lexable library (selectorLexemes unicode matchers ++
      pipelineLexemes unicode forms) [] :=
    (lexable_append _ _ _).mpr ⟨lexable_selector unicode fun m member => (matcher m member).1,
      lexable_pipeline unicode canWrite ⟨rfl, rfl⟩⟩
  rw [← isText] at within ⊢
  exact parse_lexemes fits (b := byte '{') rfl (by decide) (by decide)
    (reads_query unicode (fun m member => (matcher m member).2) canWrite) room parser within

/-- The stages `|= "a\"b" | json | c = "d" and e != ip("f") or g = "h" | decolorize`. -/
def sampleForms : List StageForm :=
  [.line .pipeExact false (ascii "a\"b"), .plain .json,
    .labels (.more (.one (.more (.one ⟨ascii "c", .eq, false, ascii "d"⟩)
      ⟨ascii "e", .neq, true, ascii "f"⟩)) (.one ⟨ascii "g", .eq, false, ascii "h"⟩)), .decolorize]

theorem sampleForms_writable : ∀ form ∈ sampleForms, form.Writable library := by
  refine List.forall_mem_cons.mpr ⟨trivial, List.forall_mem_cons.mpr ⟨List.mem_cons_self,
    List.forall_mem_cons.mpr ⟨⟨⟨?_, ?_⟩, ?_⟩, List.forall_mem_singleton.mpr trivial⟩⟩⟩
  all_goals exact ⟨⟨word_of_plain library.unicode (by decide), by decide⟩,
    .cons (by decide) (by decide) (by decide) .nil⟩

/-- Log queries, and range queries in the operand of a metric operator, that can be written. -/
inductive Written (engine : RegexpEngine) (library : Library) : Expr → Prop where
  | query {q : LogQueryExpr}
      (matcher : ∀ m ∈ q.left.matchers, WritableMatcher m ∧ Compiles engine m)
      (stage : ∀ stage ∈ q.filter, ∃ form : StageForm, form.stage = stage ∧
        form.Writable library) :
      Written engine library (.selector (.query q))
  | range {q : LogQueryExpr} {rng : GoString} {grouping : Option Grouping} {op : MetricOp}
      (writable : WritableQuery engine library q rng grouping) (isRange : IsRange rng)
      (noBrace : NoBrace q.left.matchers) (grouped : grouping = none ∨ q.filter ≠ [])
      (notReplace : op ≠ .labelReplace) :
      Written engine library (.metric .nil (.rangeQuery (.query q) rng grouping false)
        ⟨op, [], none, false, [], 0⟩)

theorem Written.reparsed {e : Expr} (written : Written engine library e) {capacity : Nat}
    (room : 4 ≤ capacity) (parser : Parser)
    (within : ∀ state, Called library (parser.start capacity (e.string unicode numbers)) state →
      LooksWithin library state.scanner) :
    ∃ rounds numbers', parseExprWith engine library capacity rounds parser
        (e.string unicode numbers) = some (.expr e numbers') := by
  cases written with
  | query matcher stage => exact query_reparsed matcher stage room parser within
  | @range q rng grouping op writable isRange noBrace grouped notReplace =>
      have isText : (Expr.metric .nil (.rangeQuery (.query q) rng grouping false)
          ⟨op, [], none, false, [], 0⟩).string unicode numbers =
          metricText op (rangeText unicode numbers q rng grouping) := by
        rw [← (string_rangeQuery_iff unicode numbers q isRange grouping).mpr noBrace]
        simp [Expr.string, Expr.isNil, LogMetricExpr.opening, LogMetricExpr.closing, notReplace,
          metricText]
      rw [isText] at within ⊢
      exact rangeText_reparsed grouped writable notReplace room parser within

end McoaGateway.Logql
