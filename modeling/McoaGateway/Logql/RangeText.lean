/-
The text of a range query.

`String` prints the query and then puts the range behind the first closing brace
of that text.  This is the end of the selector exactly if no matcher has a closing
brace in its name or in its value, as quoting leaves a brace as it is.  The text is then
parsed as the same range query, if its matchers, its stages and its grouping can be written.
-/

import McoaGateway.Logql.Lookahead
import McoaGateway.Logql.Reparse
import McoaGateway.Logql.TokenForms
import McoaGateway.Logql.Writable

namespace McoaGateway.Logql

open GoString

/-! ### The first closing brace -/

theorem replaceFirst_append (code : UInt8) (replacement before after : GoString)
    (absent : code ∉ before) :
    replaceFirst code replacement (before ++ code :: after) = before ++ replacement ++ after := by
  induction before with
  | nil => exact if_pos rfl
  | cons b before ih =>
      rw [List.mem_cons, not_or] at absent
      rw [List.cons_append, replaceFirst, if_neg (Ne.symm absent.1), ih absent.2]
      rfl

theorem mem_intercalate {separator : GoString} {parts : List GoString} {b : UInt8}
    (notSeparator : b ∉ separator) :
    b ∈ separator.intercalate parts ↔ ∃ part ∈ parts, b ∈ part := by
  induction parts with
  | nil => simp
  | cons first rest ih =>
      cases rest with
      | nil => simp
      | cons second rest =>
          rw [List.intercalate_cons_cons, List.mem_append, List.mem_append, ih]
          simp [notSeparator]

theorem closeBrace_mem_string (unicode : Unicode) (m : Matcher) :
    byte '}' ∈ m.string unicode ↔ byte '}' ∈ m.name ∨ byte '}' ∈ m.value := by
  have value := mem_quote_iff unicode m.value (b := byte '}') rfl
  have name : byte '}' ∈ (if isPlainName m.name then m.name else quote unicode m.name) ↔
      byte '}' ∈ m.name := by
    split
    · exact Iff.rfl
    · exact mem_quote_iff unicode m.name rfl
  have notType : byte '}' ∉ m.type.text := by
    cases m.type <;> decide
  rw [Matcher.string, List.mem_append, List.mem_append, name, value]
  simp only [notType, false_or]

def NoBrace (matchers : List Matcher) : Prop :=
  ∀ m ∈ matchers, byte '}' ∉ m.name ∧ byte '}' ∉ m.value

theorem noBrace_iff (unicode : Unicode) (matchers : List Matcher) :
    NoBrace matchers ↔
      byte '}' ∉ (ascii ", ").intercalate (matchers.map (Matcher.string unicode)) := by
  rw [mem_intercalate (by decide)]
  simp only [List.mem_map, exists_exists_and_eq_and, closeBrace_mem_string, not_exists, not_and,
    not_or, NoBrace]

/-! ### The text -/

section

variable (unicode : Unicode) (numbers : Numbers)

def LogQueryExpr.pipelineText (q : LogQueryExpr) : GoString :=
  if q.filter.isEmpty then [] else ascii " " ++ LogPipelineExpr.string unicode numbers q.filter

/-- The selector, the range and the pipeline, in parentheses if there is a grouping. -/
def rangeText (q : LogQueryExpr) (rng : GoString) (grouping : Option Grouping) : GoString :=
  let body := q.left.string unicode ++ rng ++ q.pipelineText unicode numbers
  match grouping with
  | none => body
  | some g => ascii "(" ++ body ++ ascii ") " ++ g.string

/-- The range stands behind the selector exactly if no matcher has a brace. -/
theorem replaceFirst_query_iff (q : LogQueryExpr) {rng : GoString} (isRange : IsRange rng) :
    replaceFirst (byte '}') (ascii "\x7d" ++ rng) (q.string unicode numbers) =
        q.left.string unicode ++ rng ++ q.pipelineText unicode numbers ↔
      NoBrace q.left.matchers := by
  rw [noBrace_iff unicode]
  have isQuery : q.string unicode numbers =
      ascii "\x7b" ++ (ascii ", ").intercalate (q.left.matchers.map (Matcher.string unicode)) ++
        ascii "\x7d" ++ q.pipelineText unicode numbers := rfl
  have isSelector : q.left.string unicode =
      ascii "\x7b" ++ (ascii ", ").intercalate (q.left.matchers.map (Matcher.string unicode)) ++
        ascii "\x7d" := rfl
  rw [isQuery, isSelector]
  generalize (ascii ", ").intercalate (q.left.matchers.map (Matcher.string unicode)) = matchers
  generalize q.pipelineText unicode numbers = pipeline
  constructor
  · intro same present
    -- The range then stands inside the selector, and the texts end differently there.
    obtain ⟨before, after, rfl, absent⟩ := List.eq_append_cons_of_mem present
    have front : byte '}' ∉ ascii "\x7b" ++ before := by
      rw [List.mem_append, not_or]
      exact ⟨by decide, absent⟩
    have inserted : replaceFirst (byte '}') (ascii "\x7d" ++ rng)
        (ascii "\x7b" ++ (before ++ byte '}' :: after) ++ ascii "\x7d" ++ pipeline) =
        ascii "\x7b" ++ before ++ (ascii "\x7d" ++ rng) ++ (after ++ ascii "\x7d" ++ pipeline) := by
      rw [← replaceFirst_append _ _ _ _ front]
      simp
    have expected : ascii "\x7b" ++ (before ++ byte '}' :: after) ++ ascii "\x7d" ++ rng ++
        pipeline = ascii "\x7b" ++ before ++ (ascii "\x7d" ++ (after ++ ascii "\x7d" ++ rng)) ++
        pipeline := by
      simp [ascii, byte]
    obtain ⟨body, rfl, -⟩ := isRange
    rw [inserted, expected] at same
    simp only [← List.append_assoc] at same
    obtain ⟨-, ends⟩ := List.append_inj' (List.append_cancel_right same) rfl
    exact absurd ends (by decide)
  · intro absent
    have front : byte '}' ∉ ascii "\x7b" ++ matchers := by
      rw [List.mem_append, not_or]
      exact ⟨by decide, absent⟩
    have inserted := replaceFirst_append (byte '}') (ascii "\x7d" ++ rng) _ pipeline front
    simp only [ascii, byte, List.append_assoc] at inserted ⊢
    exact inserted

theorem string_rangeQuery_iff (q : LogQueryExpr) {rng : GoString} (isRange : IsRange rng)
    (grouping : Option Grouping) :
    (LogSelectorExpr.rangeQuery (.query q) rng grouping false).string unicode numbers =
        rangeText unicode numbers q rng grouping ↔
      NoBrace q.left.matchers := by
  rw [← replaceFirst_query_iff unicode numbers q isRange]
  cases grouping with
  | none => exact Iff.rfl
  | some g =>
      constructor
      · intro same
        exact List.append_cancel_left
          (List.append_cancel_right (List.append_cancel_right same))
      · intro same
        exact congrArg (fun body => ascii "(" ++ body ++ ascii ") " ++ g.string) same

end

/-! ### Range queries of an expression -/

def LogSelectorExpr.ranges : LogSelectorExpr → List LogSelectorExpr
  | .nil => []
  | .query _ => []
  | .rangeQuery left rng grouping rngLast => [.rangeQuery left rng grouping rngLast]
  | .parenthesis inner => inner.ranges

def Expr.ranges : Expr → List LogSelectorExpr
  | .nil => []
  | .selector e => e.ranges
  | .metric inner left _ => inner.ranges ++ left.ranges
  | .metricParenthesis inner => inner.ranges
  | .binaryOp _ _ left right => left.ranges ++ right.ranges
  | .number _ => []
  | .vector _ => []
  | .parenthesis inner => inner.ranges

def IsRangeQuery (e : LogSelectorExpr) : Prop :=
  ∃ q rng grouping rngLast, e = .rangeQuery (.query q) rng grouping rngLast ∧ IsRange rng ∧
    (grouping = none ∨ q.filter ≠ [])

/-- Ranges have brackets, a range query has a query as its operand, and a grouping stands
behind a pipeline. -/
def RangesFormed : (symbol : Symbol) → Sem symbol → Prop
  | .terminal .range, lval => IsRange lval.str
  | .root, e => ∀ node ∈ Expr.ranges e, IsRangeQuery node
  | .expr, e => ∀ node ∈ Expr.ranges e, IsRangeQuery node
  | .logBinaryOpExpr, e => ∀ node ∈ Expr.ranges e, IsRangeQuery node
  | .logMetricExpr, e => ∀ node ∈ Expr.ranges e, IsRangeQuery node
  | .logQueryExpr, e => ∀ node ∈ LogSelectorExpr.ranges e, IsRangeQuery node
  | .logRangeQueryExpr, e => ∀ node ∈ LogSelectorExpr.ranges e, IsRangeQuery node
  | .logPipelineExpr, pipeline => pipeline ≠ []
  | _, _ => True

theorem rangesFormed_exprRules : Preserve RangesFormed exprRules := by
  refine preserve_cons (fun (_, ()) held => held.1) ?_
  refine preserve_cons (fun (_, ()) held => held.1) ?_
  refine preserve_cons (fun (_, ()) held => held.1) ?_
  refine preserve_cons (fun (_, ()) _ => List.forall_mem_nil _) ?_
  refine preserve_cons (fun (_, _, _, ()) held => held.2.1) ?_
  exact preserve_nil

theorem isRangeQuery_single {q : LogQueryExpr} {rng : GoString} (isRange : IsRange rng)
    {grouping : Option Grouping} (grouped : grouping = none ∨ q.filter ≠ []) (rngLast : Bool) :
    ∀ node ∈ (LogSelectorExpr.rangeQuery (.query q) rng grouping rngLast).ranges,
      IsRangeQuery node :=
  List.forall_mem_singleton.mpr ⟨q, rng, grouping, rngLast, rfl, isRange, grouped⟩

theorem rangesFormed_logRangeQueryExprRules :
    Preserve RangesFormed logRangeQueryExprRules := by
  have alone := fun (q : LogQueryExpr) {rng : GoString} (isRange : IsRange rng) =>
    isRangeQuery_single (q := q) isRange (.inl rfl)
  refine preserve_cons (fun (_, _, ()) held => alone _ held.2.1 _) ?_
  refine preserve_cons (fun (_, _, _, ()) held => alone _ held.2.1 _) ?_
  refine preserve_cons (fun (_, _, _, ()) held => alone _ held.2.2.1 _) ?_
  refine preserve_cons (fun (_, _, _, _, ()) held => alone _ held.2.2.1 _) ?_
  refine preserve_cons (fun (_, _, _, _, _, ()) held => alone _ held.2.2.1 _) ?_
  refine preserve_cons (fun (_, _, _, _, _, ()) held => alone _ held.2.2.2.2.1 _) ?_
  refine preserve_cons (fun (_, _, _, _, _, _, ()) held =>
    isRangeQuery_single (q := ⟨⟨_⟩, _⟩) held.2.2.1 (.inr held.2.2.2.1) _) ?_
  refine preserve_cons (fun (_, _, ()) held => held.1) ?_
  refine preserve_cons (fun (_, _, _, ()) held => held.2.1) ?_
  exact preserve_nil

theorem ranges_metric_range {left : LogSelectorExpr} (fields : MetricFields)
    (formed : ∀ node ∈ left.ranges, IsRangeQuery node) :
    ∀ node ∈ (Expr.metric .nil left fields).ranges, IsRangeQuery node := by
  rw [Expr.ranges, Expr.ranges, List.nil_append]
  exact formed

theorem ranges_metric_inner {inner : Expr} (fields : MetricFields)
    (formed : ∀ node ∈ inner.ranges, IsRangeQuery node) :
    ∀ node ∈ (Expr.metric inner .nil fields).ranges, IsRangeQuery node := by
  rw [Expr.ranges, LogSelectorExpr.ranges, List.append_nil]
  exact formed

theorem rangesFormed_logMetricExprRules : Preserve RangesFormed logMetricExprRules := by
  have range := @ranges_metric_range
  have inner := @ranges_metric_inner
  refine preserve_cons (fun (_, _, _, _, ()) held => range _ held.2.2.1) ?_
  refine preserve_cons (fun (_, _, _, _, _, ()) held => range _ held.2.2.1) ?_
  refine preserve_cons (fun (_, _, _, _, _, _, ()) held => range _ held.2.2.2.2.1) ?_
  refine preserve_cons (fun (_, _, _, _, _, _, _, ()) held => range _ held.2.2.2.2.1) ?_
  refine preserve_cons (fun (_, _, _, _, _, _, _, ()) held => range _ held.2.2.2.2.1) ?_
  refine preserve_cons (fun (_, _, _, _, _, _, _, _, ()) held => range _ held.2.2.2.2.1) ?_
  refine preserve_cons (fun (_, _, _, _, _, ()) held => range _ held.2.2.1) ?_
  refine preserve_cons (fun (_, _, _, _, _, _, ()) held => range _ held.2.2.1) ?_
  refine preserve_cons (fun (_, _, _, _, _, ()) held => inner _ held.2.2.1) ?_
  refine preserve_cons (fun (_, _, _, _, ()) held => inner _ held.2.2.1) ?_
  refine preserve_cons (fun (_, _, _, _, _, _, ()) held => inner _ held.2.2.2.2.1) ?_
  refine preserve_cons (fun (_, _, _, _, _, _, _, ()) held => inner _ held.2.2.2.2.1) ?_
  refine preserve_cons (fun (_, _, _, _, _, _, _, _, ()) held => inner _ held.2.2.2.2.1) ?_
  refine preserve_cons (fun (_, _, _, _, _, _, _, ()) held => inner _ held.2.2.2.2.2.1) ?_
  refine preserve_cons (fun (_, _, _, _, _, ()) held => inner _ held.2.2.2.1) ?_
  refine preserve_cons (fun (_, _, _, _, _, _, ()) held => inner _ held.2.2.2.1) ?_
  refine preserve_cons (fun (_, _, _, _, _, _, _, _, _, _, _, _, ()) held =>
    inner _ held.2.2.1) ?_
  refine preserve_cons (fun (_, _, _, _, _, ()) held => inner _ held.2.2.1) ?_
  refine preserve_cons (fun (_, _, _, _, ()) held => inner _ held.2.2.1) ?_
  refine preserve_cons (fun (_, _, _, _, _, _, ()) held => inner _ held.2.2.2.2.1) ?_
  refine preserve_cons (fun (_, _, _, _, _, _, _, ()) held => inner _ held.2.2.2.2.1) ?_
  refine preserve_cons (fun (_, _, _, _, _, _, _, ()) held => inner _ held.2.2.2.2.2.1) ?_
  refine preserve_cons (fun (_, _, _, _, _, ()) held => inner _ held.2.2.2.1) ?_
  refine preserve_cons (fun (_, _, _, _, _, _, _, _, _, _, _, _, ()) held =>
    inner _ held.2.2.1) ?_
  refine preserve_cons (fun (_, _, _, _, ()) _ => inner _ (List.forall_mem_nil _)) ?_
  refine preserve_cons (fun (_, _, _, ()) held => held.2.1) ?_
  exact preserve_nil

theorem rangesFormed_logBinaryOpExprRules : Preserve RangesFormed logBinaryOpExprRules := by
  refine List.forall_mem_map.mpr ?_
  rintro ⟨operator, op⟩ - slots ⟨left, _, _, right, _⟩ value held acted
  cases acted
  exact List.forall_mem_append.mpr ⟨held.1, held.2.2.2.1⟩

variable (engine : RegexpEngine) (library : Library)

theorem keeps_rangesFormed :
    ∀ production ∈ productions engine library, production.Keeps RangesFormed := by
  obtain ⟨-, -, -, -, stage, filter, format, offset, -, -, number, stageLabels, flags,
    selector, matchers, labels, grouping, options⟩ := plain_rules library
  obtain ⟨convOp, -, metricOp, lineFilter, comparison⟩ := keyword_rules
  obtain ⟨labelFilter, parserLabels, matcher⟩ := other_rules engine
  have root : Preserve RangesFormed rootRules :=
    preserve_cons (fun (_, ()) held => held.1) preserve_nil
  have query : Preserve RangesFormed logQueryExprRules :=
    preserve_cons (fun (_, ()) _ => List.forall_mem_nil _)
      (preserve_cons (fun (_, _, ()) _ => List.forall_mem_nil _) preserve_nil)
  have pipeline : Preserve RangesFormed logPipelineExprRules :=
    preserve_cons (fun (_, ()) _ => List.cons_ne_nil _ _)
      (preserve_cons (fun (_, _, ()) _ => List.append_ne_nil_of_right_ne_nil _
        (List.cons_ne_nil _ _)) preserve_nil)
  unfold productions
  repeat rw [List.forall_mem_append]
  repeat rw [and_assoc]
  refine ⟨root, rangesFormed_exprRules, query, pipeline, convOp.preserve ?_,
    stage.preserve ?_, filter.preserve ?_, preserve_of_lhs labelFilter ?_, format.preserve ?_,
    offset.preserve ?_, rangesFormed_logRangeQueryExprRules, rangesFormed_logMetricExprRules,
    rangesFormed_logBinaryOpExprRules, number.preserve ?_, stageLabels.preserve ?_,
    preserve_of_lhs parserLabels ?_, flags.preserve ?_, options.preserve ?_,
    selector.preserve ?_, matchers.preserve ?_, preserve_of_lhs matcher ?_,
    metricOp.preserve ?_, lineFilter.preserve ?_, comparison.preserve ?_, labels.preserve ?_,
    grouping.preserve ?_⟩
  all_goals exact fun _ => trivial

theorem parsed_ranges (capacity rounds : Nat) (parser : Parser) (input : GoString) (e : Expr)
    (numbers : Numbers)
    (parsed : parseExprWith engine library capacity rounds parser input =
      some (.expr e numbers)) :
    ∀ node ∈ e.ranges, IsRangeQuery node := by
  obtain ⟨tokens, before, final, lexed, -, -, derived⟩ :=
    parsed_expr engine library capacity rounds parser input e numbers parsed
  have ofToken : ∀ token : Token, TokenForm library token →
      RangesFormed (.terminal token.kind) token.lval := by
    rintro ⟨kind, lval⟩ formed
    cases kind <;> first
      | exact trivial
      | exact formed
  have formed : RangesFormed .root e :=
    derived.holds ofToken (keeps_rangesFormed engine library) (lexed_formed engine lexed)
  exact formed

/-! ### Parsing the text again -/

/-- A range that is read as it is written. -/
def WritableRange (rng : GoString) : Prop :=
  ∃ body, rng = byte '[' :: (body ++ [byte ']']) ∧ Made (fun r => r ≠ 0x5D) body

/-- The text of the query is read as its lexemes, and its regular expressions are valid. -/
structure WritableQuery (engine : RegexpEngine) (library : Library) (q : LogQueryExpr)
    (rng : GoString) (grouping : Option Grouping) : Prop where
  matcher : ∀ m ∈ q.left.matchers, WritableMatcher m ∧ Compiles engine m
  range : WritableRange rng
  stage : ∀ stage ∈ q.filter, ∃ form : StageForm, form.stage = stage ∧ form.Writable library
  grouping : ∀ g, grouping = some g → g.Writable library

variable {engine library} {unicode : Unicode} {numbers : Numbers}

theorem append_intercalate (separator : GoString) (parts : List GoString) (present : parts ≠ []) :
    separator ++ separator.intercalate parts = parts.flatMap (separator ++ ·) := by
  induction parts with
  | nil => exact absurd rfl present
  | cons part parts ih =>
      cases parts with
      | nil => rw [List.intercalate_singleton, List.flatMap_singleton]
      | cons next parts =>
          rw [List.intercalate_cons_cons, List.flatMap_cons, ← ih (List.cons_ne_nil _ _),
            List.append_assoc, List.append_assoc]

theorem pipelineText_eq (s : StreamMatcherExpr) (pipeline : LogPipelineExpr) :
    LogQueryExpr.pipelineText unicode numbers ⟨s, pipeline⟩ =
      pipeline.flatMap fun stage => ascii " " ++ stage.string unicode numbers := by
  rw [LogQueryExpr.pipelineText]
  cases pipeline with
  | nil => rfl
  | cons stage pipeline =>
      rw [if_neg (by simp), LogPipelineExpr.string, append_intercalate _ _ (by simp),
        List.flatMap_map]

theorem exists_forms {pipeline : LogPipelineExpr}
    (written : ∀ stage ∈ pipeline, ∃ form : StageForm, form.stage = stage ∧
      form.Writable library) :
    ∃ forms : List StageForm, pipeline = forms.map StageForm.stage ∧
      ∀ form ∈ forms, form.Writable library := by
  induction pipeline with
  | nil => exact ⟨[], rfl, List.forall_mem_nil _⟩
  | cons stage pipeline ih =>
      rw [List.forall_mem_cons] at written
      obtain ⟨⟨form, rfl, canWrite⟩, others⟩ := written
      obtain ⟨forms, rfl, areWritable⟩ := ih others
      exact ⟨form :: forms, rfl, List.forall_mem_cons.mpr ⟨canWrite, areWritable⟩⟩

section

variable {matchers : List Matcher} {forms : List StageForm} {rng : GoString}
  {grouping : Option Grouping}

theorem text_rangeLexemes (matcher : ∀ m ∈ matchers, WritableMatcher m)
    (writable : ∀ form ∈ forms, form.Writable library)
    (grouped : ∀ g, grouping = some g → g.groups ≠ []) :
    lexemesText (rangeQueryLexemes unicode matchers rng forms grouping) =
      rangeText unicode numbers ⟨⟨matchers⟩, forms.map StageForm.stage⟩ rng grouping := by
  have body : lexemesText (rangeLexemes unicode matchers rng forms) =
      StreamMatcherExpr.string unicode ⟨matchers⟩ ++ rng ++
        LogQueryExpr.pipelineText unicode numbers ⟨⟨matchers⟩, forms.map StageForm.stage⟩ := by
    rw [rangeLexemes, lexemesText_append, lexemesText_cons, text_selector unicode matcher,
      text_pipeline unicode numbers writable, pipelineText_eq, List.append_assoc]
    rfl
  cases grouping with
  | none => exact body
  | some g =>
      rw [rangeQueryLexemes, lexemesText_cons, lexemesText_append, body, lexemesText_cons,
        lexemesText_cons, text_grouping (grouped g rfl), rangeText]
      simp [Lexeme.lparen, Lexeme.rparen, Lexeme.text, ascii, byte]

theorem lexable_range (matcher : ∀ m ∈ matchers, WritableMatcher m) (isRange : WritableRange rng)
    (writable : ∀ form ∈ forms, form.Writable library)
    (grouped : ∀ g, grouping = some g → g.Writable library) (rest : GoString) :
    Lexable library (rangeQueryLexemes unicode matchers rng forms grouping)
      (byte ')' :: rest) := by
  have body : ∀ rest, Lexable library (rangeLexemes unicode matchers rng forms)
      (byte ')' :: rest) := fun rest =>
    (lexable_append _ _ _).mpr ⟨lexable_selector unicode matcher, isRange,
      lexable_pipeline unicode writable (closed_cons (by decide) _)⟩
  cases grouping with
  | none => exact body rest
  | some g =>
      exact ⟨fits_lparen, (lexable_append _ _ _).mpr ⟨body _, fits_rparen, trivial,
        lexable_grouping (grouped g rfl)⟩⟩

end

/-- A query in the operand of a metric operator. -/
def metricText (op : MetricOp) (operand : GoString) : GoString :=
  op.text ++ ascii "(" ++ operand ++ ascii ")"

theorem metricOp_begins (op : MetricOp) :
    ∃ b, op.text.head? = some b ∧ b.toNat < 0x80 ∧ b ≠ 0 := by
  cases op <;> exact ⟨_, rfl, by decide, by decide⟩

theorem fits_metricOp (op : MetricOp) (rest : GoString) :
    (Lexeme.function op.text op.kind).Fits library (byte '(' :: rest) := by
  have known : ∀ entry ∈ funcTokens, isPlainName entry.1 = true ∧
      funcTokens.lookup entry.1 = some entry.2 := by decide +kernel
  have member : (op.text, op.kind) ∈ funcTokens := by
    cases op <;> simp [MetricOp.text, MetricOp.kind, funcTokens]
  exact ⟨(known _ member).1, (known _ member).2, rfl, isFunc_paren rest⟩

theorem rangeText_reparsed {q : LogQueryExpr} {rng : GoString} {grouping : Option Grouping}
    (grouped : grouping = none ∨ q.filter ≠ [])
    (writable : WritableQuery engine library q rng grouping) {op : MetricOp}
    (notReplace : op ≠ .labelReplace) {capacity : Nat} (room : 4 ≤ capacity) (parser : Parser)
    (within : ∀ state, Called library (parser.start capacity
      (metricText op (rangeText unicode numbers q rng grouping))) state →
        LooksWithin library state.scanner) :
    ∃ rounds numbers', parseExprWith engine library capacity rounds parser
        (metricText op (rangeText unicode numbers q rng grouping)) =
      some (.expr (.metric .nil (.rangeQuery (.query q) rng grouping false)
        ⟨op, [], none, false, [], 0⟩) numbers') := by
  obtain ⟨⟨matchers⟩, filter⟩ := q
  obtain ⟨forms, rfl, canWrite⟩ := exists_forms writable.stage
  have matcher := fun m member => (writable.matcher m member).1
  have compiles := fun m member => (writable.matcher m member).2
  have isText : lexemesText (.function op.text op.kind :: Lexeme.lparen ::
      (rangeQueryLexemes unicode matchers rng forms grouping ++ [Lexeme.rparen])) =
      metricText op (rangeText unicode numbers ⟨⟨matchers⟩, forms.map StageForm.stage⟩ rng
        grouping) := by
    rw [metricText, ← text_rangeLexemes matcher canWrite fun g isSome =>
      (writable.grouping g isSome).present, lexemesText_cons, lexemesText_cons,
      lexemesText_append]
    simp [Lexeme.lparen, Lexeme.rparen, Lexeme.text, ascii, byte]
  have fits : Lexable library (.function op.text op.kind :: Lexeme.lparen ::
      (rangeQueryLexemes unicode matchers rng forms grouping ++ [Lexeme.rparen])) [] :=
    ⟨fits_metricOp op _, fits_lparen, (lexable_append _ _ _).mpr
      ⟨lexable_range matcher writable.range canWrite writable.grouping [], fits_rparen, trivial⟩⟩
  have operand : Reads engine library 70 .logRangeQueryExpr
      (tokensOf (rangeQueryLexemes unicode matchers rng forms grouping))
      Terminal.closeParenthesis.internalNumber
      (.rangeQuery (.query ⟨⟨matchers⟩, forms.map StageForm.stage⟩) rng grouping false)
      (Goyacc.gotoState exprTables 70 Symbol.logRangeQueryExpr.number) := by
    cases grouping with
    | none => exact reads_plainRange unicode compiles canWrite rng
    | some g =>
        have present : forms ≠ [] := fun isNil =>
          grouped.resolve_left (Option.some_ne_none g) (congrArg (List.map _) isNil)
        exact reads_groupedRange unicode compiles canWrite rng present
          (writable.grouping g rfl).present
  obtain ⟨b, isHead, isAscii, nonzero⟩ := metricOp_begins op
  have begins : (metricText op (rangeText unicode numbers ⟨⟨matchers⟩, forms.map StageForm.stage⟩
      rng grouping)).head? = some b := by
    rw [metricText, List.append_assoc, List.append_assoc, List.head?_append, isHead]
    rfl
  rw [← isText] at within begins ⊢
  exact parse_lexemes fits begins isAscii nonzero (reads_metric notReplace operand) room parser
    within

theorem writableRange_minutes : WritableRange (ascii "[5m]") :=
  ⟨ascii "5m", rfl, .cons (by decide) (by decide) (by decide)
    (.cons (by decide) (by decide) (by decide) .nil)⟩

/-- The query `rate({d="e"}[5m] |= "c")`. -/
def sampleRange : LogQueryExpr :=
  ⟨⟨[⟨.equal, ascii "d", ascii "e"⟩]⟩, [StageForm.stage (.line .pipeExact false (ascii "c"))]⟩

theorem sampleRange_writable :
    WritableQuery .literals .asciiOnly sampleRange (ascii "[5m]") none :=
  ⟨List.forall_mem_singleton.mpr ⟨⟨by decide, by decide⟩, rfl⟩, writableRange_minutes,
    List.forall_mem_singleton.mpr ⟨_, rfl, trivial⟩, nofun⟩

def Parsed.complaints : Parsed → Option (List ScanError)
  | .errors errs => some errs
  | _ => none

example : rangeText .asciiOnly (fun _ => .zero) ⟨⟨[]⟩, []⟩ (ascii "[5m]") none =
    ascii "\x7b\x7d[5m]" := by
  decide +kernel

end McoaGateway.Logql
