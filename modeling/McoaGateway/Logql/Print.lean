/-
The text of a LogQL expression (the `String` methods of `logql/v2/ast.go`).

`rendered` lists the stream selectors that the text is made of, in the order in
which `String` writes them.  A method call on a nil interface panics; the text
of such an expression is left empty here, and no expression that the parser
returns has one where it would be called (`Logql.Expr.WellFormed`).
-/

import McoaGateway.Logql.Ast
import Mathlib.Data.List.Sort

namespace McoaGateway.Logql

open GoString

section

variable (unicode : Unicode) (numbers : Numbers)

/-! ### Stages -/

mutual

def LogFilterExpr.string : LogFilterExpr → GoString
  | .mk filter ip value isNested _ right =>
      (if isNested then [] else filter.text ++ ascii " ") ++
        (if ip then ascii "ip(" ++ quote unicode value ++ ascii ")"
          else quote unicode value) ++
        LogFilterExpr.stringRight right

/-- Only filters chained by `or` are written. -/
def LogFilterExpr.stringRight : List LogFilterExpr → GoString
  | [] => []
  | .mk filter ip value isNested chainOp right :: rest =>
      (if chainOp = some .or then
          ascii " or " ++ LogFilterExpr.string (.mk filter ip value isNested chainOp right)
        else []) ++
        LogFilterExpr.stringRight rest

end

def LogLabelFilterValue.string : LogLabelFilterValue → GoString
  | .number address => (numbers address).string
  | .duration d => durationString d
  | .text s => ascii "\"" ++ s ++ ascii "\""

mutual

def LogLabelFilterExpr.string : LogLabelFilterExpr → GoString
  | .mk labelName comparisonOp ip labelValue isNested _ right =>
      (if isNested then [] else ascii "| ") ++
        (labelName ++ (ascii " " ++ (comparisonOp.text ++ ascii " "))) ++
        (if ip then ascii "ip(" ++ labelValue.string numbers ++ ascii ")"
          else labelValue.string numbers) ++
        LogLabelFilterExpr.stringRight right

def LogLabelFilterExpr.stringRight : List LogLabelFilterExpr → GoString
  | [] => []
  | .mk labelName comparisonOp ip labelValue isNested chainOp right :: rest =>
      (match chainOp with
        | none => []
        | some op =>
            op.text ++ LogLabelFilterExpr.string
              (.mk labelName comparisonOp ip labelValue isNested chainOp right)) ++
        LogLabelFilterExpr.stringRight rest

end

def LogFormatExpr.entry (operation : Option ConvOp) (entry : GoString × LogFormatValue) :
    GoString :=
  let val := if entry.2.isIdentifier then entry.2.value else quote unicode entry.2.value
  (if entry.1 = [] then [] else entry.1 ++ ascii "=") ++
    match operation with
    | none => val
    | some op => op.text ++ ascii "(" ++ val ++ ascii ")"

/-- The entries in the order of their keys, with the separator between them. -/
def LogFormatExpr.string (e : LogFormatExpr) : GoString :=
  ascii "| label_format " ++
    e.sep.intercalate ((e.kv.insertionSort fun a b => stringLe a.1 b.1 = true).map
      (LogFormatExpr.entry unicode e.operation))

def LogParserExpr.string (e : LogParserExpr) : GoString :=
  let operand :=
    match e.parser with
    | .regExp | .lineFormat => ascii " " ++ quote unicode e.identifier
    | .pattern =>
        ascii " " ++
          (if e.identifier.contains (byte '"') then
            ascii "\x60" ++ e.identifier ++ ascii "\x60"
          else quote unicode e.identifier)
    | .unwrap => (if e.operation = none then ascii " " else []) ++ e.identifier
    | _ => e.identifier
  ascii "| " ++ e.parser.text ++
    match e.operation with
    | none => operand
    | some op => ascii " " ++ op.text ++ ascii "(" ++ operand ++ ascii ")"

def LogLabel.string (label : LogLabel) : GoString :=
  (if label.identifier = [] then [] else ascii " " ++ label.identifier) ++
    match label.matcher with
    | none => []
    | some m => ascii " " ++ m.string unicode

def LogLabelExpr.string (e : LogLabelExpr) : GoString :=
  ascii "| " ++ e.parser.text ++
    (e.flags.flatMap fun flag => ascii " " ++ flag.text) ++
    (ascii ",").intercalate (e.labels.map (LogLabel.string unicode))

def LogStageExpr.string : LogStageExpr → GoString
  | .filter e => e.string unicode
  | .labelFilter e => e.string numbers
  | .format e => e.string unicode
  | .parser e => e.string unicode
  | .decolorize => ascii "| decolorize"
  | .labels e => e.string unicode

def LogPipelineExpr.string (pipeline : LogPipelineExpr) : GoString :=
  (ascii " ").intercalate (pipeline.map (LogStageExpr.string unicode numbers))

/-! ### Queries -/

def StreamMatcherExpr.string (s : StreamMatcherExpr) : GoString :=
  ascii "\x7b" ++ (ascii ", ").intercalate (s.matchers.map (Matcher.string unicode)) ++
    ascii "\x7d"

def LogQueryExpr.string (q : LogQueryExpr) : GoString :=
  q.left.string unicode ++
    (if q.filter.isEmpty then [] else ascii " " ++ LogPipelineExpr.string unicode numbers q.filter)

def Grouping.string (g : Grouping) : GoString :=
  (if g.without then ascii " without"
    else if g.groups.isEmpty then [] else ascii " by") ++
    (if g.groups.isEmpty then [] else ascii "(" ++ join (byte ',') g.groups ++ ascii ")")

/-- `strings.Replace` of the first occurrence of one byte. -/
def replaceFirst (code : UInt8) (replacement : GoString) : GoString → GoString
  | [] => []
  | b :: rest => if b = code then replacement ++ rest else b :: replaceFirst code replacement rest

/-- The range stands behind the first closing brace, wherever that is, unless it
was written behind the pipeline. -/
def LogSelectorExpr.string : LogSelectorExpr → GoString
  | .nil => []
  | .query q => q.string unicode numbers
  | .rangeQuery left rng grouping rngLast =>
      let body :=
        if rngLast then ascii "(" ++ left.string ++ ascii ") " ++ rng
        else replaceFirst (byte '}') (ascii "\x7d" ++ rng) left.string
      match grouping with
      | none => body
      | some g => ascii "(" ++ body ++ ascii ") " ++ g.string
  | .parenthesis inner => ascii "(" ++ inner.string ++ ascii ")"

/-! ### Metric and binary expressions -/

def offsetString (offset : Int) : GoString :=
  ascii " offset " ++ durationString offset

def LogMetricExpr.params (params : List GoString) : GoString :=
  ascii "," ++ join (byte ',') (params.map fun p => ascii "\"" ++ p ++ ascii "\"")

def LogMetricExpr.opening (fields : MetricFields) : GoString :=
  fields.metricOp.text ++
    (match fields.grouping with
      | none => []
      | some g => if fields.groupingAfterOp then g.string ++ ascii " " else []) ++
    ascii "(" ++
    (if fields.preamble = [] then [] else fields.preamble ++ ascii ",")

def LogMetricExpr.closing (fields : MetricFields) : GoString :=
  (if fields.metricOp = .labelReplace then LogMetricExpr.params fields.params else []) ++
    (if fields.offset = 0 then [] else offsetString fields.offset) ++
    ascii ")" ++
    match fields.grouping with
    | none => []
    | some g => if fields.groupingAfterOp then [] else g.string

def MatchingOption.string (keyword : GoString) (option : MatchingOption) : GoString :=
  if option.enabled then
    keyword ++ ascii "(" ++ join (byte ',') option.labels ++ ascii ")" ++
      (match option.groupingType with
        | none => []
        | some side =>
            ascii " " ++ side.text ++ ascii "(" ++ join (byte ',') option.includeLabels ++
              ascii ")") ++
      ascii " "
  else []

def BinaryOpOptions.string (options : BinaryOpOptions) : GoString :=
  (if options.returnBool then ascii "bool " else []) ++
    options.ignoringOption.string (ascii "ignoring") ++
    options.onOption.string (ascii "on")

def Expr.isNil : Expr → Bool
  | .nil => true
  | _ => false

def Expr.string : Expr → GoString
  | .nil => []
  | .selector e => e.string unicode numbers
  | .metric inner left fields =>
      LogMetricExpr.opening fields ++
        (if inner.isNil then left.string unicode numbers else inner.string) ++
        LogMetricExpr.closing fields
  | .metricParenthesis inner => ascii "(" ++ inner.string ++ ascii ")"
  | .binaryOp op modifier left right =>
      left.string ++ (ascii " " ++ op.text ++ ascii " ") ++ modifier.string ++ right.string
  | .number n => n.string
  | .vector value => value
  | .parenthesis inner => ascii "(" ++ inner.string ++ ascii ")"

end

/-! ### The selectors of the text -/

def LogSelectorExpr.rendered : LogSelectorExpr → List StreamMatcherExpr
  | .nil => []
  | .query q => [q.left]
  | .rangeQuery left _ _ _ => left.rendered
  | .parenthesis inner => inner.rendered

def Expr.rendered : Expr → List StreamMatcherExpr
  | .nil => []
  | .selector e => e.rendered
  | .metric inner left _ => if inner.isNil then left.rendered else inner.rendered
  | .metricParenthesis inner => inner.rendered
  | .binaryOp _ _ left right => left.rendered ++ right.rendered
  | .number _ => []
  | .vector _ => []
  | .parenthesis inner => inner.rendered

end McoaGateway.Logql
