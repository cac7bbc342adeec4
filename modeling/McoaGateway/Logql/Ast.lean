/-
The syntax tree of LogQL, its text and its traversal (`logql/v2/ast.go`).

The names that the grammar gives to the string fields for operators and parsers
are enumerated; their texts are those of the source.  A numeric label filter
holds the address of its number, which is a slot of the parser stack, so the
text of a pipeline depends on the memory behind these addresses.  A `float64` is
given by its rendering with `%f`, the only thing that is done with it.
-/

import McoaGateway.Quote
import McoaGateway.Goyacc.Engine

namespace McoaGateway.Logql

open GoString

/-! ### `time.Duration.String` -/

def decimal (n : Nat) : GoString :=
  (Nat.toDigits 10 n).map byte

/-- The last `places` decimal places with the point before them, without the
zeros at the end. -/
def fraction (places n : Nat) : GoString :=
  let digits := decimal (n % 10 ^ places)
  let padded := List.replicate (places - digits.length) (byte '0') ++ digits
  let shown := (padded.reverse.dropWhile (· == byte '0')).reverse
  if n % 10 ^ places = 0 then [] else byte '.' :: shown

/-- A number of nanoseconds below one second has one unit, others have seconds,
minutes and hours as far as they are needed. -/
def nanoseconds (u : Nat) : GoString :=
  if u = 0 then ascii "0s"
  else if u < 10 ^ 3 then decimal u ++ ascii "ns"
  else if u < 10 ^ 6 then decimal (u / 10 ^ 3) ++ fraction 3 u ++ [0xC2, 0xB5, byte 's']
  else if u < 10 ^ 9 then decimal (u / 10 ^ 6) ++ fraction 6 u ++ ascii "ms"
  else
    let seconds := u / 10 ^ 9
    let minutes := seconds / 60
    let hours := minutes / 60
    (if 0 < hours then decimal hours ++ ascii "h" else []) ++
      (if 0 < minutes then decimal (minutes % 60) ++ ascii "m" else []) ++
      decimal (seconds % 60) ++ fraction 9 u ++ ascii "s"

def durationString (d : Int) : GoString :=
  if d < 0 then byte '-' :: nanoseconds d.natAbs else nanoseconds d.natAbs

/-! ### Operators and parsers -/

inductive MetricOp where
  | countOverTime | rate | rateCounter | bytesOverTime | bytesRate | avgOverTime
  | sumOverTime | minOverTime | maxOverTime | stdvarOverTime | stddevOverTime
  | quantileOverTime | firstOverTime | lastOverTime | absentOverTime
  | sum | avg | count | max | min | stddev | stdvar | bottomK | topK | sort | sortDesc
  | vector | labelReplace
deriving DecidableEq, Repr

def MetricOp.text : MetricOp → GoString
  | .countOverTime => ascii "count_over_time"
  | .rate => ascii "rate"
  | .rateCounter => ascii "rate_counter"
  | .bytesOverTime => ascii "bytes_over_time"
  | .bytesRate => ascii "bytes_rate"
  | .avgOverTime => ascii "avg_over_time"
  | .sumOverTime => ascii "sum_over_time"
  | .minOverTime => ascii "min_over_time"
  | .maxOverTime => ascii "max_over_time"
  | .stdvarOverTime => ascii "stdvar_over_time"
  | .stddevOverTime => ascii "stddev_over_time"
  | .quantileOverTime => ascii "quantile_over_time"
  | .firstOverTime => ascii "first_over_time"
  | .lastOverTime => ascii "last_over_time"
  | .absentOverTime => ascii "absent_over_time"
  | .sum => ascii "sum"
  | .avg => ascii "avg"
  | .count => ascii "count"
  | .max => ascii "max"
  | .min => ascii "min"
  | .stddev => ascii "stddev"
  | .stdvar => ascii "stdvar"
  | .bottomK => ascii "bottomk"
  | .topK => ascii "topk"
  | .sort => ascii "sort"
  | .sortDesc => ascii "sort_desc"
  | .vector => ascii "vector"
  | .labelReplace => ascii "label_replace"

inductive BinaryOp where
  | or | and | unless | add | sub | mul | div | mod | pow
  | cmpEq | neq | gt | gte | lt | lte
deriving DecidableEq, Repr

def BinaryOp.text : BinaryOp → GoString
  | .or => ascii "or"
  | .and => ascii "and"
  | .unless => ascii "unless"
  | .add => ascii "+"
  | .sub => ascii "-"
  | .mul => ascii "*"
  | .div => ascii "/"
  | .mod => ascii "%"
  | .pow => ascii "^"
  | .cmpEq => ascii "=="
  | .neq => ascii "!="
  | .gt => ascii ">"
  | .gte => ascii ">="
  | .lt => ascii "<"
  | .lte => ascii "<="

inductive ComparisonOp where
  | eq | neq | re | nre | gt | gte | lt | lte
deriving DecidableEq, Repr

def ComparisonOp.text : ComparisonOp → GoString
  | .eq => ascii "="
  | .neq => ascii "!="
  | .re => ascii "=~"
  | .nre => ascii "!~"
  | .gt => ascii ">"
  | .gte => ascii ">="
  | .lt => ascii "<"
  | .lte => ascii "<="

inductive LineFilter where
  | pipeMatch | pipeExact | pipeMatchPattern | pipeNotMatchPattern | nre | neq
deriving DecidableEq, Repr

def LineFilter.text : LineFilter → GoString
  | .pipeMatch => ascii "|~"
  | .pipeExact => ascii "|="
  | .pipeMatchPattern => ascii "|>"
  | .pipeNotMatchPattern => ascii "!>"
  | .nre => ascii "!~"
  | .neq => ascii "!="

inductive ChainOp where
  | and | or | comma
deriving DecidableEq, Repr

/-- The operator in a chain of label filters, with the blanks around it. -/
def ChainOp.text : ChainOp → GoString
  | .and => ascii " and "
  | .or => ascii " or "
  | .comma => ascii ", "

inductive ConvOp where
  | bytes | duration | durationSeconds
deriving DecidableEq, Repr

def ConvOp.text : ConvOp → GoString
  | .bytes => ascii "bytes"
  | .duration => ascii "duration"
  | .durationSeconds => ascii "duration_seconds"

inductive ParserName where
  | logFMT | json | unpack | unwrap | regExp | pattern | lineFormat | drop | keep
deriving DecidableEq, Repr

def ParserName.text : ParserName → GoString
  | .logFMT => ascii "logfmt"
  | .json => ascii "json"
  | .unpack => ascii "unpack"
  | .unwrap => ascii "unwrap"
  | .regExp => ascii "regexp"
  | .pattern => ascii "pattern"
  | .lineFormat => ascii "line_format"
  | .drop => ascii "drop"
  | .keep => ascii "keep"

inductive LogFMTFlag where
  | strict | keepEmpty
deriving DecidableEq, Repr

def LogFMTFlag.text : LogFMTFlag → GoString
  | .strict => ascii "--strict"
  | .keepEmpty => ascii "--keep-empty"

inductive GroupingOptionType where
  | groupLeft | groupRight
deriving DecidableEq, Repr

def GroupingOptionType.text : GroupingOptionType → GoString
  | .groupLeft => ascii "group_left"
  | .groupRight => ascii "group_right"

/-! ### Numbers -/

structure LogNumberExpr where
  value : GoString
  isNeg : Bool
deriving DecidableEq, Repr

def LogNumberExpr.zero : LogNumberExpr :=
  ⟨ascii "0.000000", false⟩

def trimRight (code : UInt8) (text : GoString) : GoString :=
  (text.reverse.dropWhile (· == code)).reverse

def LogNumberExpr.string (n : LogNumberExpr) : GoString :=
  trimRight (byte '.') (trimRight (byte '0') ((if n.isNeg then ascii "-" else []) ++ n.value))

abbrev Numbers := Goyacc.Slot → LogNumberExpr

/-! ### Stages of a pipeline -/

/-- The operator `ip` is the only value of `filterOp` besides the empty one. -/
inductive LogFilterExpr where
  | mk (filter : LineFilter) (ip : Bool) (value : GoString) (isNested : Bool)
      (chainOp : Option ChainOp) (right : List LogFilterExpr)
deriving Repr

inductive LogLabelFilterValue where
  | number (address : Goyacc.Slot)
  | duration (d : Int)
  | text (s : GoString)
deriving DecidableEq, Repr

inductive LogLabelFilterExpr where
  | mk (labelName : GoString) (comparisonOp : ComparisonOp) (ip : Bool)
      (labelValue : LogLabelFilterValue) (isNested : Bool) (chainOp : Option ChainOp)
      (right : List LogLabelFilterExpr)
deriving Repr

structure LogFormatValue where
  value : GoString
  isIdentifier : Bool
deriving DecidableEq, Repr

abbrev LogFormatValues := List (GoString × LogFormatValue)

structure LogFormatExpr where
  kv : LogFormatValues
  sep : GoString
  operation : Option ConvOp
deriving DecidableEq, Repr

structure LogParserExpr where
  parser : ParserName
  identifier : GoString
  operation : Option ConvOp
deriving DecidableEq, Repr

structure LogLabel where
  identifier : GoString
  matcher : Option Matcher
deriving DecidableEq, Repr

abbrev LogLabelList := List LogLabel

structure LogLabelExpr where
  parser : ParserName
  flags : List LogFMTFlag
  labels : LogLabelList
deriving DecidableEq, Repr

inductive LogStageExpr where
  | filter (e : LogFilterExpr)
  | labelFilter (e : LogLabelFilterExpr)
  | format (e : LogFormatExpr)
  | parser (e : LogParserExpr)
  | decolorize
  | labels (e : LogLabelExpr)
deriving Repr

abbrev LogPipelineExpr := List LogStageExpr

/-! ### Expressions -/

structure StreamMatcherExpr where
  matchers : List Matcher
deriving DecidableEq, Repr

/-- The empty pipeline is the nil one; no other empty pipeline is ever built. -/
structure LogQueryExpr where
  left : StreamMatcherExpr
  filter : LogPipelineExpr
deriving Repr

structure Grouping where
  without : Bool
  groups : List GoString
deriving DecidableEq, Repr

inductive LogSelectorExpr where
  | nil
  | query (q : LogQueryExpr)
  | rangeQuery (left : LogSelectorExpr) (rng : GoString) (grouping : Option Grouping)
      (rngLast : Bool)
  | parenthesis (inner : LogSelectorExpr)
deriving Repr

/-- `OnOption` and `IgnoringOption`. -/
structure MatchingOption where
  enabled : Bool
  labels : List GoString
  groupingType : Option GroupingOptionType
  includeLabels : List GoString
deriving DecidableEq, Repr

def MatchingOption.absent : MatchingOption :=
  ⟨false, [], Option.none, []⟩

structure BinaryOpOptions where
  returnBool : Bool
  ignoringOption : MatchingOption
  onOption : MatchingOption
deriving DecidableEq, Repr

/-- The fields of `LogMetricExpr` besides its two operands. -/
structure MetricFields where
  metricOp : MetricOp
  preamble : GoString
  grouping : Option Grouping
  groupingAfterOp : Bool
  params : List GoString
  offset : Int
deriving DecidableEq, Repr

/-- The interface `Expr`; `nil` is its nil value, and a metric expression has two
operands of which one may be nil. -/
inductive Expr where
  | nil
  | selector (e : LogSelectorExpr)
  | metric (inner : Expr) (left : LogSelectorExpr) (fields : MetricFields)
  | metricParenthesis (inner : Expr)
  | binaryOp (op : BinaryOp) (modifier : BinaryOpOptions) (left right : Expr)
  | number (n : LogNumberExpr)
  | vector (value : GoString)
  | parenthesis (inner : Expr)
deriving Repr

end McoaGateway.Logql
