/-
The grammar of LogQL with its actions (`logql/v2/expr.y`).

The productions stand in the order of the source, which is the order of their
numbers.  Where a family of alternatives differs in a keyword only, it is written
once with the list of keywords.
-/

import McoaGateway.Logql.Lexer
import McoaGateway.Labels

namespace McoaGateway.Logql

open GoString

inductive Symbol where
  | terminal (t : Terminal)
  | error
  | root | binaryOpOptions | comparisonOp | expr | filter | labels | logBinaryOpExpr
  | logFilterExpr | logLabelFilterExpr | logFormatExpr | logQueryExpr | logMetricExpr
  | logNumberExpr | logPipelineExpr | logStageExpr | logRangeQueryExpr | logOffsetExpr
  | logStageLabels | logParserLabels | logFMTFlags | matcher | matchers | metricOp
  | selector | grouping | convOp
deriving DecidableEq, Repr

/-- The types of the values, as the grammar declares them. -/
@[reducible] def Sem : Symbol → Type
  | .terminal _ => LexValue
  | .error => Unit
  | .root => Expr
  | .binaryOpOptions => BinaryOpOptions
  | .comparisonOp => ComparisonOp
  | .expr => Expr
  | .filter => LineFilter
  | .labels => List GoString
  | .logBinaryOpExpr => Expr
  | .logFilterExpr => LogFilterExpr
  | .logLabelFilterExpr => LogLabelFilterExpr
  | .logFormatExpr => LogFormatExpr
  | .logQueryExpr => LogSelectorExpr
  | .logMetricExpr => Expr
  | .logNumberExpr => LogNumberExpr
  | .logPipelineExpr => LogPipelineExpr
  | .logStageExpr => LogStageExpr
  | .logRangeQueryExpr => LogSelectorExpr
  | .logOffsetExpr => Int
  | .logStageLabels => LogLabelList
  | .logParserLabels => LogLabelList
  | .logFMTFlags => List LogFMTFlag
  | .matcher => Matcher
  | .matchers => List Matcher
  | .metricOp => MetricOp
  | .selector => List Matcher
  | .grouping => Grouping
  | .convOp => ConvOp

/-- `newLabelMatcher` panics when the regular expression does not compile. -/
structure Panic where
  pattern : GoString
deriving DecidableEq, Repr

abbrev Rule := Goyacc.Production Sem Panic

def rule (lhs : Symbol) (rhs : List Symbol) (action : Goyacc.Args Sem rhs → Sem lhs) : Rule :=
  ⟨lhs, rhs, fun _ args => .ok (action args)⟩

/-! ### Constructors of nodes -/

def newLabelMatcher (engine : RegexpEngine) (type : MatchType) (name value : GoString) :
    Except Panic Matcher :=
  match newMatcher engine type name value with
  | some m => .ok m
  | none => .error ⟨value⟩

def newLogFilterExpr (filter : LineFilter) (ip : Bool) (value : GoString) : LogFilterExpr :=
  .mk filter ip value false none []

def LogFilterExpr.chain (op : ChainOp) : LogFilterExpr → LogFilterExpr → LogFilterExpr
  | .mk filter ip value isNested chainOp right, .mk filter' ip' value' _ _ right' =>
      .mk filter ip value isNested chainOp
        (right ++ [.mk filter' ip' value' true (some op) right'])

def newLogLabelFilter (identifier : GoString) (comparisonOp : ComparisonOp) (ip : Bool)
    (value : LogLabelFilterValue) : LogLabelFilterExpr :=
  .mk identifier comparisonOp ip value false none []

def LogLabelFilterExpr.chain (op : ChainOp) :
    LogLabelFilterExpr → LogLabelFilterExpr → LogLabelFilterExpr
  | .mk name comparison ip value isNested chainOp right,
    .mk name' comparison' ip' value' _ _ right' =>
      .mk name comparison ip value isNested chainOp
        (right ++ [.mk name' comparison' ip' value' true (some op) right'])

/-- `mergeLogFormatValues`: the entries of the right-hand side win. -/
def mergeLogFormatValues (lhs rhs : LogFormatValues) : LogFormatValues :=
  rhs.foldl (fun kv entry => kv.filter (fun own => own.1 ≠ entry.1) ++ [entry]) lhs

def newLogQueryExpr (matchers : List Matcher) (filter : LogPipelineExpr) : LogSelectorExpr :=
  .query ⟨⟨matchers⟩, filter⟩

def newLogRangeQueryExpr (m : LogSelectorExpr) (rng : GoString) (grouping : Option Grouping)
    (rngLast : Bool) : LogSelectorExpr :=
  .rangeQuery m rng grouping rngLast

def newLogMetricExpr (e : Expr) (m : LogSelectorExpr) (op : MetricOp) (preamble : GoString)
    (grouping : Option Grouping) (groupingAfterOp : Bool) (params : List GoString)
    (offset : Option Int) : Expr :=
  .metric e m ⟨op, preamble, grouping, groupingAfterOp, params, offset.getD 0⟩

def newVectorExpr (val : GoString) : Expr :=
  .vector val

/-! ### Productions -/

section

variable (engine : RegexpEngine) (library : Library)

abbrev tok (t : Terminal) : Symbol :=
  .terminal t

abbrev lparen : Symbol := tok .openParenthesis

abbrev rparen : Symbol := tok .closeParenthesis

def rootRules : List Rule :=
  [rule .root [.expr] fun (e, ()) => e]

def exprRules : List Rule :=
  [rule .expr [.logQueryExpr] fun (e, ()) => .selector e,
    rule .expr [.logMetricExpr] fun (e, ()) => e,
    rule .expr [.logBinaryOpExpr] fun (e, ()) => e,
    rule .expr [.logNumberExpr] fun (n, ()) => .number n,
    rule .expr [lparen, .expr, rparen] fun (_, e, _, ()) => .parenthesis e]

def logQueryExprRules : List Rule :=
  [rule .logQueryExpr [.selector] fun (s, ()) => newLogQueryExpr s [],
    rule .logQueryExpr [.selector, .logPipelineExpr] fun (s, p, ()) => newLogQueryExpr s p]

def logPipelineExprRules : List Rule :=
  [rule .logPipelineExpr [.logStageExpr] fun (s, ()) => [s],
    rule .logPipelineExpr [.logPipelineExpr, .logStageExpr] fun (p, s, ()) => p ++ [s]]

def convOpRules : List Rule :=
  [(Terminal.bytesConv, ConvOp.bytes), (.durationConv, .duration),
    (.durationSecondsConv, .durationSeconds)].map
    fun (t, op) => rule .convOp [tok t] fun _ => op

def logStageExprRules : List Rule :=
  [rule .logStageExpr [.logFilterExpr] fun (f, ()) => .filter f,
    rule .logStageExpr [tok .pipe, .logLabelFilterExpr] fun (_, f, ()) => .labelFilter f,
    rule .logStageExpr [tok .pipe, tok .logFMT] fun _ => .parser ⟨.logFMT, [], none⟩,
    rule .logStageExpr [tok .pipe, tok .logFMT, .logParserLabels]
      fun (_, _, l, ()) => .labels ⟨.logFMT, [], l⟩,
    rule .logStageExpr [tok .pipe, tok .logFMT, .logFMTFlags, .logParserLabels]
      fun (_, _, flags, l, ()) => .labels ⟨.logFMT, flags, l⟩,
    rule .logStageExpr [tok .pipe, tok .json] fun _ => .parser ⟨.json, [], none⟩,
    rule .logStageExpr [tok .pipe, tok .json, .logParserLabels]
      fun (_, _, l, ()) => .labels ⟨.json, [], l⟩,
    rule .logStageExpr [tok .pipe, tok .unpack] fun _ => .parser ⟨.unpack, [], none⟩,
    rule .logStageExpr [tok .pipe, tok .unwrap, tok .identifier]
      fun (_, _, i, ()) => .parser ⟨.unwrap, i.str, none⟩,
    rule .logStageExpr [tok .pipe, tok .unwrap, .convOp, lparen, tok .identifier, rparen]
      fun (_, _, op, _, i, _, ()) => .parser ⟨.unwrap, i.str, some op⟩,
    rule .logStageExpr [tok .pipe, tok .regexp, tok .string]
      fun (_, _, s, ()) => .parser ⟨.regExp, s.str, none⟩,
    rule .logStageExpr [tok .pipe, tok .pattern, tok .string]
      fun (_, _, s, ()) => .parser ⟨.pattern, s.str, none⟩,
    rule .logStageExpr [tok .pipe, tok .lineFmt, tok .string]
      fun (_, _, s, ()) => .parser ⟨.lineFormat, s.str, none⟩,
    rule .logStageExpr [tok .pipe, tok .decolorize] fun _ => .decolorize,
    rule .logStageExpr [tok .pipe, tok .labelFmt, .logFormatExpr] fun (_, _, f, ()) => .format f,
    rule .logStageExpr [tok .pipe, tok .drop, .logStageLabels]
      fun (_, _, l, ()) => .labels ⟨.drop, [], l⟩,
    rule .logStageExpr [tok .pipe, tok .keep, .logStageLabels]
      fun (_, _, l, ()) => .labels ⟨.keep, [], l⟩]

def logFilterExprRules : List Rule :=
  [rule .logFilterExpr [.filter, tok .string]
      fun (f, s, ()) => newLogFilterExpr f false s.str,
    rule .logFilterExpr [.filter, tok .ip, lparen, tok .string, rparen]
      fun (f, _, _, s, _, ()) => newLogFilterExpr f true s.str,
    rule .logFilterExpr [.filter, tok .string, tok .or, tok .string]
      fun (f, s, _, t, ()) =>
        (newLogFilterExpr f false s.str).chain .or (newLogFilterExpr f false t.str),
    rule .logFilterExpr
      [.filter, tok .string, tok .or, tok .ip, lparen, tok .string, rparen]
      fun (f, s, _, _, _, t, _, ()) =>
        (newLogFilterExpr f false s.str).chain .or (newLogFilterExpr f true t.str)]

/-- The filter with a number takes the address of its third value. -/
def logLabelFilterExprRules : List Rule :=
  [rule .logLabelFilterExpr [tok .identifier, .comparisonOp, tok .string]
      fun (i, op, s, ()) => newLogLabelFilter i.str op false (.text s.str),
    rule .logLabelFilterExpr [tok .identifier, .comparisonOp, tok .duration]
      fun (i, op, d, ()) => newLogLabelFilter i.str op false (.duration d.duration),
    ⟨.logLabelFilterExpr, [tok .identifier, .comparisonOp, .logNumberExpr],
      fun address (i, op, _, ()) =>
        .ok (newLogLabelFilter i.str op false (.number (address 3)))⟩,
    rule .logLabelFilterExpr
      [tok .identifier, .comparisonOp, tok .ip, lparen, tok .string, rparen]
      fun (i, op, _, _, s, _, ()) => newLogLabelFilter i.str op true (.text s.str)] ++
  [(Terminal.and, ChainOp.and), (.or, .or), (.comma, .comma)].map
    fun (t, op) =>
      rule .logLabelFilterExpr [.logLabelFilterExpr, tok t, .logLabelFilterExpr]
        fun (l, _, r, ()) => l.chain op r

def logFormatExprRules : List Rule :=
  [rule .logFormatExpr [tok .identifier, tok .eq, tok .string]
      fun (i, _, s, ()) => ⟨[(i.str, ⟨s.str, false⟩)], [], none⟩,
    rule .logFormatExpr [tok .identifier, tok .eq, tok .identifier]
      fun (i, _, j, ()) => ⟨[(i.str, ⟨j.str, true⟩)], [], none⟩,
    rule .logFormatExpr [tok .identifier, tok .eq, tok .ip, lparen, tok .string, rparen]
      fun (i, _, _, _, s, _, ()) =>
        ⟨[(i.str, ⟨ascii "ip(" ++ s.str ++ ascii ")", false⟩)], [], none⟩,
    rule .logFormatExpr [.logFormatExpr, tok .comma, .logFormatExpr]
      fun (l, _, r, ()) => ⟨mergeLogFormatValues l.kv r.kv, ascii ",", none⟩]

def logOffsetExprRules : List Rule :=
  [rule .logOffsetExpr [tok .offset, tok .duration] fun (_, d, ()) => d.duration]

def logRangeQueryExprRules : List Rule :=
  [rule .logRangeQueryExpr [.selector, tok .range]
      fun (s, r, ()) => newLogRangeQueryExpr (newLogQueryExpr s []) r.str none false,
    rule .logRangeQueryExpr [.selector, tok .range, .logPipelineExpr]
      fun (s, r, p, ()) => newLogRangeQueryExpr (newLogQueryExpr s p) r.str none false,
    rule .logRangeQueryExpr [.selector, .logPipelineExpr, tok .range]
      fun (s, p, r, ()) => newLogRangeQueryExpr (newLogQueryExpr s p) r.str none true,
    rule .logRangeQueryExpr [lparen, .selector, tok .range, rparen]
      fun (_, s, r, _, ()) => newLogRangeQueryExpr (newLogQueryExpr s []) r.str none false,
    rule .logRangeQueryExpr [lparen, .selector, tok .range, .logPipelineExpr, rparen]
      fun (_, s, r, p, _, ()) => newLogRangeQueryExpr (newLogQueryExpr s p) r.str none false,
    rule .logRangeQueryExpr [lparen, .selector, .logPipelineExpr, rparen, tok .range]
      fun (_, s, p, _, r, ()) => newLogRangeQueryExpr (newLogQueryExpr s p) r.str none true,
    rule .logRangeQueryExpr [lparen, .selector, tok .range, .logPipelineExpr, rparen, .grouping]
      fun (_, s, r, p, _, g, ()) =>
        newLogRangeQueryExpr (newLogQueryExpr s p) r.str (some g) false,
    rule .logRangeQueryExpr [.logRangeQueryExpr, .error] fun (e, _, ()) => e,
    rule .logRangeQueryExpr [lparen, .logRangeQueryExpr, rparen]
      fun (_, e, _, ()) => .parenthesis e]

/-- The operand of a metric expression is a range query, and then its inner
expression is nil, or the other way round. -/
def logMetricExprRules : List Rule :=
  [rule .logMetricExpr [.metricOp, lparen, .logRangeQueryExpr, rparen]
      fun (op, _, r, _, ()) => newLogMetricExpr .nil r op [] none false [] none,
    rule .logMetricExpr [.metricOp, lparen, .logRangeQueryExpr, .logOffsetExpr, rparen]
      fun (op, _, r, o, _, ()) => newLogMetricExpr .nil r op [] none false [] (some o),
    rule .logMetricExpr [.metricOp, lparen, tok .number, tok .comma, .logRangeQueryExpr, rparen]
      fun (op, _, n, _, r, _, ()) => newLogMetricExpr .nil r op n.str none false [] none,
    rule .logMetricExpr
      [.metricOp, lparen, tok .number, tok .comma, .logRangeQueryExpr, rparen, .grouping]
      fun (op, _, n, _, r, _, g, ()) => newLogMetricExpr .nil r op n.str (some g) false [] none,
    rule .logMetricExpr
      [.metricOp, lparen, tok .number, tok .comma, .logRangeQueryExpr, .logOffsetExpr, rparen]
      fun (op, _, n, _, r, o, _, ()) => newLogMetricExpr .nil r op n.str none false [] (some o),
    rule .logMetricExpr
      [.metricOp, lparen, tok .number, tok .comma, .logRangeQueryExpr, .logOffsetExpr, rparen,
        .grouping]
      fun (op, _, n, _, r, o, _, g, ()) =>
        newLogMetricExpr .nil r op n.str (some g) false [] (some o),
    rule .logMetricExpr [.metricOp, lparen, .logRangeQueryExpr, rparen, .grouping]
      fun (op, _, r, _, g, ()) => newLogMetricExpr .nil r op [] (some g) false [] none,
    rule .logMetricExpr
      [.metricOp, lparen, .logRangeQueryExpr, .logOffsetExpr, rparen, .grouping]
      fun (op, _, r, o, _, g, ()) => newLogMetricExpr .nil r op [] (some g) false [] (some o),
    rule .logMetricExpr [.metricOp, lparen, .logMetricExpr, rparen, .grouping]
      fun (op, _, e, _, g, ()) => newLogMetricExpr e .nil op [] (some g) false [] none,
    rule .logMetricExpr [.metricOp, lparen, .logMetricExpr, rparen]
      fun (op, _, e, _, ()) => newLogMetricExpr e .nil op [] none false [] none,
    rule .logMetricExpr [.metricOp, lparen, tok .number, tok .comma, .logMetricExpr, rparen]
      fun (op, _, n, _, e, _, ()) => newLogMetricExpr e .nil op n.str none false [] none,
    rule .logMetricExpr
      [.metricOp, lparen, tok .number, tok .comma, .logMetricExpr, rparen, .grouping]
      fun (op, _, n, _, e, _, g, ()) => newLogMetricExpr e .nil op n.str (some g) false [] none,
    rule .logMetricExpr
      [.metricOp, lparen, tok .number, tok .comma, .logMetricExpr, .logOffsetExpr, rparen,
        .grouping]
      fun (op, _, n, _, e, o, _, g, ()) =>
        newLogMetricExpr e .nil op n.str (some g) false [] (some o),
    rule .logMetricExpr
      [.metricOp, .grouping, lparen, tok .number, tok .comma, .logMetricExpr, rparen]
      fun (op, g, _, n, _, e, _, ()) => newLogMetricExpr e .nil op n.str (some g) true [] none,
    rule .logMetricExpr [.metricOp, .grouping, lparen, .logMetricExpr, rparen]
      fun (op, g, _, e, _, ()) => newLogMetricExpr e .nil op [] (some g) true [] none,
    rule .logMetricExpr [.metricOp, .grouping, lparen, .logMetricExpr, .logOffsetExpr, rparen]
      fun (op, g, _, e, o, _, ()) => newLogMetricExpr e .nil op [] (some g) true [] (some o),
    rule .logMetricExpr
      [tok .labelReplace, lparen, .logMetricExpr, tok .comma, tok .string, tok .comma,
        tok .string, tok .comma, tok .string, tok .comma, tok .string, rparen]
      fun (_, _, e, _, a, _, b, _, c, _, d, _, ()) =>
        newLogMetricExpr e .nil .labelReplace [] none false [a.str, b.str, c.str, d.str] none,
    rule .logMetricExpr [.metricOp, lparen, .logBinaryOpExpr, rparen, .grouping]
      fun (op, _, e, _, g, ()) => newLogMetricExpr e .nil op [] (some g) false [] none,
    rule .logMetricExpr [.metricOp, lparen, .logBinaryOpExpr, rparen]
      fun (op, _, e, _, ()) => newLogMetricExpr e .nil op [] none false [] none,
    rule .logMetricExpr [.metricOp, lparen, tok .number, tok .comma, .logBinaryOpExpr, rparen]
      fun (op, _, n, _, e, _, ()) => newLogMetricExpr e .nil op n.str none false [] none,
    rule .logMetricExpr
      [.metricOp, lparen, tok .number, tok .comma, .logBinaryOpExpr, rparen, .grouping]
      fun (op, _, n, _, e, _, g, ()) => newLogMetricExpr e .nil op n.str (some g) false [] none,
    rule .logMetricExpr
      [.metricOp, .grouping, lparen, tok .number, tok .comma, .logBinaryOpExpr, rparen]
      fun (op, g, _, n, _, e, _, ()) => newLogMetricExpr e .nil op n.str (some g) true [] none,
    rule .logMetricExpr [.metricOp, .grouping, lparen, .logBinaryOpExpr, rparen]
      fun (op, g, _, e, _, ()) => newLogMetricExpr e .nil op [] (some g) true [] none,
    rule .logMetricExpr
      [tok .labelReplace, lparen, .logBinaryOpExpr, tok .comma, tok .string, tok .comma,
        tok .string, tok .comma, tok .string, tok .comma, tok .string, rparen]
      fun (_, _, e, _, a, _, b, _, c, _, d, _, ()) =>
        newLogMetricExpr e .nil .labelReplace [] none false [a.str, b.str, c.str, d.str] none,
    rule .logMetricExpr [.metricOp, lparen, tok .number, rparen]
      fun (_, _, n, _, ()) =>
        newLogMetricExpr (newVectorExpr n.str) .nil .vector [] none false [] none,
    rule .logMetricExpr [lparen, .logMetricExpr, rparen]
      fun (_, e, _, ()) => .metricParenthesis e]

def logBinaryOpExprRules : List Rule :=
  [(Terminal.or, BinaryOp.or), (.and, .and), (.unless, .unless), (.add, .add), (.sub, .sub),
    (.mul, .mul), (.div, .div), (.mod, .mod), (.pow, .pow), (.cmpEq, .cmpEq), (.neq, .neq),
    (.gt, .gt), (.gte, .gte), (.lt, .lt), (.lte, .lte)].map
    fun (t, op) =>
      rule .logBinaryOpExpr [.expr, tok t, .binaryOpOptions, .expr]
        fun (l, _, o, r, ()) => .binaryOp op o l r

def newLogNumberExpr (value : GoString) (isNegative : Bool) : LogNumberExpr :=
  ⟨library.formatFloat value, isNegative⟩

def logNumberExprRules : List Rule :=
  [rule .logNumberExpr [tok .number] fun (n, ()) => newLogNumberExpr library n.str false,
    rule .logNumberExpr [tok .add, tok .number]
      fun (_, n, ()) => newLogNumberExpr library n.str false,
    rule .logNumberExpr [tok .sub, tok .number]
      fun (_, n, ()) => newLogNumberExpr library n.str true]

def logStageLabelsRules : List Rule :=
  [rule .logStageLabels [tok .identifier] fun (i, ()) => [⟨i.str, none⟩],
    rule .logStageLabels [.matcher] fun (m, ()) => [⟨[], some m⟩],
    rule .logStageLabels [.logStageLabels, tok .comma, .logStageLabels]
      fun (l, _, r, ()) => l ++ r]

def logParserLabelsRules : List Rule :=
  [rule .logParserLabels [tok .identifier] fun (i, ()) => [⟨i.str, none⟩],
    ⟨.logParserLabels, [tok .identifier, tok .eq, tok .string],
      fun _ (i, _, s, ()) =>
        (newLabelMatcher engine .equal i.str s.str).map fun m => [⟨[], some m⟩]⟩,
    rule .logParserLabels [.logParserLabels, tok .comma, .logParserLabels]
      fun (l, _, r, ()) => l ++ r]

def logFMTFlagsRules : List Rule :=
  [rule .logFMTFlags [tok .logFMTStrict] fun _ => [.strict],
    rule .logFMTFlags [tok .logFMTKeepEmpty] fun _ => [.keepEmpty],
    rule .logFMTFlags [.logFMTFlags, .logFMTFlags] fun (l, r, ()) => l ++ r]

/-- The alternatives for `on` or `ignoring`. -/
def matchingRules (keyword : Terminal)
    (assign : BinaryOpOptions → MatchingOption → BinaryOpOptions) : List Rule :=
  let start := [.binaryOpOptions, tok keyword, lparen]
  [rule .binaryOpOptions (start ++ [.labels, rparen])
      fun (o, _, _, l, _, ()) => assign o ⟨true, l, none, []⟩,
    rule .binaryOpOptions (start ++ [.labels, rparen, tok .groupLeft, lparen, rparen])
      fun (o, _, _, l, _, _, _, _, ()) => assign o ⟨true, l, some .groupLeft, []⟩,
    rule .binaryOpOptions (start ++ [.labels, rparen, tok .groupLeft, lparen, .labels, rparen])
      fun (o, _, _, l, _, _, _, i, _, ()) => assign o ⟨true, l, some .groupLeft, i⟩,
    rule .binaryOpOptions (start ++ [.labels, rparen, tok .groupRight, lparen, rparen])
      fun (o, _, _, l, _, _, _, _, ()) => assign o ⟨true, l, some .groupRight, []⟩,
    rule .binaryOpOptions (start ++ [.labels, rparen, tok .groupRight, lparen, .labels, rparen])
      fun (o, _, _, l, _, _, _, i, _, ()) => assign o ⟨true, l, some .groupRight, i⟩,
    rule .binaryOpOptions (start ++ [rparen])
      fun (o, _, _, _, ()) => assign o ⟨true, [], none, []⟩,
    rule .binaryOpOptions (start ++ [rparen, tok .groupLeft, lparen, rparen])
      fun (o, _, _, _, _, _, _, ()) => assign o ⟨true, [], some .groupLeft, []⟩,
    rule .binaryOpOptions (start ++ [rparen, tok .groupLeft, lparen, .labels, rparen])
      fun (o, _, _, _, _, _, i, _, ()) => assign o ⟨true, [], some .groupLeft, i⟩,
    rule .binaryOpOptions (start ++ [rparen, tok .groupRight, lparen, rparen])
      fun (o, _, _, _, _, _, _, ()) => assign o ⟨true, [], some .groupRight, []⟩,
    rule .binaryOpOptions (start ++ [rparen, tok .groupRight, lparen, .labels, rparen])
      fun (o, _, _, _, _, _, i, _, ()) => assign o ⟨true, [], some .groupRight, i⟩]

def binaryOpOptionsRules : List Rule :=
  [rule .binaryOpOptions [] fun () => ⟨false, .absent, .absent⟩,
    rule .binaryOpOptions [tok .bool] fun _ => ⟨true, .absent, .absent⟩] ++
  matchingRules .on (fun o m => { o with onOption := m }) ++
  matchingRules .ignoring (fun o m => { o with ignoringOption := m })

/-- The empty selector has no action, and its value is the nil one. -/
def selectorRules : List Rule :=
  [rule .selector [tok .openBrace, .matchers, tok .closeBrace] fun (_, ms, _, ()) => ms,
    rule .selector [tok .openBrace, .matchers, .error] fun (_, ms, _, ()) => ms,
    rule .selector [tok .openBrace, tok .closeBrace] fun _ => []]

def matchersRules : List Rule :=
  [rule .matchers [.matcher] fun (m, ()) => [m],
    rule .matchers [.matchers, tok .comma, .matcher] fun (ms, _, m, ()) => ms ++ [m]]

def matcherRules : List Rule :=
  [(Terminal.eq, MatchType.equal), (.neq, .notEqual), (.re, .regexp), (.nre, .notRegexp)].map
    fun (t, type) =>
      ⟨.matcher, [tok .identifier, tok t, tok .string],
        fun _ (i, _, s, ()) => newLabelMatcher engine type i.str s.str⟩

def metricOpRules : List Rule :=
  [(Terminal.countOverTime, MetricOp.countOverTime), (.rate, .rate),
    (.rateCounter, .rateCounter), (.bytesOverTime, .bytesOverTime), (.bytesRate, .bytesRate),
    (.avgOverTime, .avgOverTime), (.sumOverTime, .sumOverTime), (.minOverTime, .minOverTime),
    (.maxOverTime, .maxOverTime), (.stdvarOverTime, .stdvarOverTime),
    (.stddevOverTime, .stddevOverTime), (.quantileOverTime, .quantileOverTime),
    (.firstOverTime, .firstOverTime), (.lastOverTime, .lastOverTime),
    (.absentOverTime, .absentOverTime), (.sum, .sum), (.avg, .avg), (.count, .count),
    (.max, .max), (.min, .min), (.stddev, .stddev), (.stdvar, .stdvar), (.bottomK, .bottomK),
    (.topK, .topK), (.sort, .sort), (.sortDesc, .sortDesc), (.vector, .vector)].map
    fun (t, op) => rule .metricOp [tok t] fun _ => op

def filterRules : List Rule :=
  [(Terminal.pipeMatch, LineFilter.pipeMatch), (.pipeExact, .pipeExact),
    (.pipeMatchPattern, .pipeMatchPattern), (.pipeNotMatchPattern, .pipeNotMatchPattern),
    (.nre, .nre), (.neq, .neq)].map
    fun (t, op) => rule .filter [tok t] fun _ => op

def comparisonOpRules : List Rule :=
  [(Terminal.eq, ComparisonOp.eq), (.neq, .neq), (.re, .re), (.nre, .nre), (.gt, .gt),
    (.gte, .gte), (.lt, .lt), (.lte, .lte)].map
    fun (t, op) => rule .comparisonOp [tok t] fun _ => op

def labelsRules : List Rule :=
  [rule .labels [tok .identifier] fun (i, ()) => [i.str],
    rule .labels [.labels, tok .comma, tok .identifier] fun (l, _, i, ()) => l ++ [i.str]]

def groupingRules : List Rule :=
  [rule .grouping [tok .byToken, lparen, .labels, rparen] fun (_, _, l, _, ()) => ⟨false, l⟩,
    rule .grouping [tok .without, lparen, .labels, rparen] fun (_, _, l, _, ()) => ⟨true, l⟩,
    rule .grouping [tok .byToken, lparen, rparen] fun _ => ⟨false, []⟩,
    rule .grouping [tok .without, lparen, rparen] fun _ => ⟨true, []⟩]

def productions : List Rule :=
  rootRules ++ exprRules ++ logQueryExprRules ++ logPipelineExprRules ++ convOpRules ++
    logStageExprRules ++ logFilterExprRules ++ logLabelFilterExprRules ++
    logFormatExprRules ++ logOffsetExprRules ++ logRangeQueryExprRules ++
    logMetricExprRules ++ logBinaryOpExprRules ++ logNumberExprRules library ++
    logStageLabelsRules ++ logParserLabelsRules engine ++ logFMTFlagsRules ++
    binaryOpOptionsRules ++ selectorRules ++ matchersRules ++ matcherRules engine ++
    metricOpRules ++ filterRules ++ comparisonOpRules ++ labelsRules ++ groupingRules

/-- The field for numbers is the one whose address is taken. -/
def grammar : Goyacc.Grammar where
  Symbol := Symbol
  decideSymbol := inferInstance
  Sem := Sem
  Token := Token
  kind token := .terminal token.kind
  value token := token.lval
  number token := token.kind.internalNumber
  errorSymbol := .error
  errorValue := ()
  Panic := Panic
  productions := productions engine library
  Cell := LogNumberExpr
  zeroCell := .zero
  assigned symbol :=
    match symbol with
    | .logNumberExpr => fun n => some n
    | _ => fun _ => none

end

end McoaGateway.Logql
