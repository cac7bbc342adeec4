/-
Queries as sequences of lexemes.

`StageForm` has the stages of a pipeline whose text can be read again as it is printed,
without those that have lists, numbers or durations in them.  The lexemes follow the `String`
methods, except that the name of a matcher is never quoted.  A form is `Writable` if the lexer
reads its text as these lexemes: names are words and no keywords, and a text that `String` puts
between quotes as it is needs no escapes there.
-/

import McoaGateway.Logql.Grammar
import McoaGateway.Logql.Lexemes
import McoaGateway.Logql.Print

namespace McoaGateway.Logql

open GoString
open Scanner

/-! ### Lexemes -/

namespace Lexeme

def lparen : Lexeme := .symbol (byte '(') .openParenthesis

def rparen : Lexeme := .symbol (byte ')') .closeParenthesis

def openBrace : Lexeme := .symbol (byte '{') .openBrace

def closeBrace : Lexeme := .symbol (byte '}') .closeBrace

def comma : Lexeme := .symbol (byte ',') .comma

def pipe : Lexeme := .symbol (byte '|') .pipe

/-- A text as `strconv.Quote` writes it. -/
def quoted (unicode : Unicode) (value : GoString) : Lexeme :=
  .string (quote unicode value) value

/-- A text between quotes, as it is. -/
def verbatim (value : GoString) : Lexeme :=
  .string (ascii "\"" ++ value ++ ascii "\"") value

end Lexeme

def MatchType.lexeme : MatchType → Lexeme
  | .equal => .symbol (byte '=') .eq
  | .notEqual => .pair (byte '!') (byte '=') .neq
  | .regexp => .pair (byte '=') (byte '~') .re
  | .notRegexp => .pair (byte '!') (byte '~') .nre

def ComparisonOp.lexeme : ComparisonOp → Lexeme
  | .eq => .symbol (byte '=') .eq
  | .neq => .pair (byte '!') (byte '=') .neq
  | .re => .pair (byte '=') (byte '~') .re
  | .nre => .pair (byte '!') (byte '~') .nre
  | .gt => .symbol (byte '>') .gt
  | .gte => .pair (byte '>') (byte '=') .gte
  | .lt => .symbol (byte '<') .lt
  | .lte => .pair (byte '<') (byte '=') .lte

def LineFilter.lexeme : LineFilter → Lexeme
  | .pipeMatch => .pair (byte '|') (byte '~') .pipeMatch
  | .pipeExact => .pair (byte '|') (byte '=') .pipeExact
  | .pipeMatchPattern => .pair (byte '|') (byte '>') .pipeMatchPattern
  | .pipeNotMatchPattern => .pair (byte '!') (byte '>') .pipeNotMatchPattern
  | .nre => .pair (byte '!') (byte '~') .nre
  | .neq => .pair (byte '!') (byte '=') .neq

def ChainOp.lexemes : ChainOp → List Lexeme
  | .and => [.blank, .word (ascii "and") .and, .blank]
  | .or => [.blank, .word (ascii "or") .or, .blank]
  | .comma => [Lexeme.comma, .blank]

def ConvOp.lexeme : ConvOp → Lexeme
  | .bytes => .word (ascii "bytes") .bytesConv
  | .duration => .word (ascii "duration") .durationConv
  | .durationSeconds => .word (ascii "duration_seconds") .durationSecondsConv

def ParserName.lexeme : ParserName → Lexeme
  | .logFMT => .word (ascii "logfmt") .logFMT
  | .json => .word (ascii "json") .json
  | .unpack => .word (ascii "unpack") .unpack
  | .unwrap => .word (ascii "unwrap") .unwrap
  | .regExp => .word (ascii "regexp") .regexp
  | .pattern => .word (ascii "pattern") .pattern
  | .lineFormat => .word (ascii "line_format") .lineFmt
  | .drop => .word (ascii "drop") .drop
  | .keep => .word (ascii "keep") .keep

/-! ### Forms of stages -/

/-- Label filters with one operator between them; the operator associates to the left. -/
inductive Chain (α : Type) where
  | one (a : α)
  | more (chain : Chain α) (a : α)

namespace Chain

variable {α : Type} (op : ChainOp)

def filter (item : α → LogLabelFilterExpr) : Chain α → LogLabelFilterExpr
  | .one a => item a
  | .more chain a => (chain.filter item).chain op (item a)

def lexemes (item : α → List Lexeme) : Chain α → List Lexeme
  | .one a => item a
  | .more chain a => chain.lexemes item ++ (op.lexemes ++ item a)

def Forall (P : α → Prop) : Chain α → Prop
  | .one a => P a
  | .more chain a => chain.Forall P ∧ P a

theorem Forall.mono {P Q : α → Prop} (weaker : ∀ a, P a → Q a) {chain : Chain α}
    (all : chain.Forall P) : chain.Forall Q := by
  induction chain with
  | one a => exact weaker a all
  | more chain a ih => exact ⟨ih all.1, weaker a all.2⟩

end Chain

/-- The comparison of a label with a text. -/
structure LabelTest where
  name : GoString
  op : ComparisonOp
  ip : Bool
  text : GoString

inductive StageForm where
  | line (filter : LineFilter) (ip : Bool) (value : GoString)
  | either (filter : LineFilter) (value : GoString) (ip : Bool) (other : GoString)
  | labels (tests : Chain (Chain LabelTest))
  | plain (parser : ParserName)
  | quoted (parser : ParserName) (text : GoString)
  | unwrap (name : GoString) (operation : Option ConvOp)
  | decolorize

def LabelTest.filter (test : LabelTest) : LogLabelFilterExpr :=
  newLogLabelFilter test.name test.op test.ip (.text test.text)

def StageForm.stage : StageForm → LogStageExpr
  | .line filter ip value => .filter (newLogFilterExpr filter ip value)
  | .either filter value ip other =>
      .filter ((newLogFilterExpr filter false value).chain .or (newLogFilterExpr filter ip other))
  | .labels tests => .labelFilter (tests.filter .or (Chain.filter .and LabelTest.filter))
  | .plain parser => .parser ⟨parser, [], none⟩
  | .quoted parser text => .parser ⟨parser, text, none⟩
  | .unwrap name operation => .parser ⟨.unwrap, name, operation⟩
  | .decolorize => .decolorize

/-- An operand, or a call of `ip` with it. -/
def ipLexemes (ip : Bool) (operand : Lexeme) : List Lexeme :=
  if ip then [.function (ascii "ip") .ip, Lexeme.lparen, operand, Lexeme.rparen] else [operand]

def LabelTest.lexemes (test : LabelTest) : List Lexeme :=
  [.name test.name, .blank, test.op.lexeme, .blank] ++
    ipLexemes test.ip (Lexeme.verbatim test.text)

section

variable (unicode : Unicode)

/-- A pattern with a quote is written between backquotes. -/
def operandLexeme (parser : ParserName) (text : GoString) : Lexeme :=
  if parser = .pattern ∧ byte '"' ∈ text then
    .string (ascii "\x60" ++ text ++ ascii "\x60") text
  else Lexeme.quoted unicode text

def StageForm.lexemes : StageForm → List Lexeme
  | .line filter ip value =>
      [filter.lexeme, .blank] ++ ipLexemes ip (Lexeme.quoted unicode value)
  | .either filter value ip other =>
      [filter.lexeme, .blank, Lexeme.quoted unicode value] ++
        (ChainOp.or.lexemes ++ ipLexemes ip (Lexeme.quoted unicode other))
  | .labels tests =>
      [Lexeme.pipe, .blank] ++ tests.lexemes .or (Chain.lexemes .and LabelTest.lexemes)
  | .plain parser => [Lexeme.pipe, .blank, parser.lexeme]
  | .quoted parser text =>
      [Lexeme.pipe, .blank, parser.lexeme, .blank, operandLexeme unicode parser text]
  | .unwrap name none => [Lexeme.pipe, .blank, ParserName.unwrap.lexeme, .blank, .name name]
  | .unwrap name (some op) =>
      [Lexeme.pipe, .blank, ParserName.unwrap.lexeme, .blank, op.lexeme, Lexeme.lparen,
        .name name, Lexeme.rparen]
  | .decolorize => [Lexeme.pipe, .blank, .word (ascii "decolorize") .decolorize]

def Matcher.lexemes (m : Matcher) : List Lexeme :=
  [.name m.name, MatchType.lexeme m.type, Lexeme.quoted unicode m.value]

def selectorLexemes (matchers : List Matcher) : List Lexeme :=
  [Lexeme.openBrace] ++
    [Lexeme.comma, .blank].intercalate (matchers.map (Matcher.lexemes unicode)) ++
    [Lexeme.closeBrace]

/-- Every stage stands behind a blank. -/
def pipelineLexemes (forms : List StageForm) : List Lexeme :=
  forms.flatMap fun form => .blank :: form.lexemes unicode

end

/-- Names with commas between them. -/
def namesLexemes (names : List GoString) : List Lexeme :=
  [Lexeme.comma].intercalate (names.map fun name => [.name name])

/-- A grouping with names. -/
def Grouping.lexemes (g : Grouping) : List Lexeme :=
  [.blank, if g.without then .word (ascii "without") .without else .word (ascii "by") .byToken,
    Lexeme.lparen] ++ namesLexemes g.groups ++ [Lexeme.rparen]

/-! ### What can be written -/

section

variable (library : Library)

/-- A text that is read as an identifier. -/
structure Named (name : GoString) : Prop where
  word : Word library.unicode name
  notKeyword : tokens.lookup name = none

/-- A text that can stand between quotes as it is. -/
def Unescaped (text : GoString) : Prop :=
  Made (fun r => r ≠ 0x22 ∧ r ≠ 0x5C ∧ r ≠ 10) text

structure LabelTest.Writable (test : LabelTest) : Prop where
  name : Named library test.name
  text : Unescaped test.text

/-- A pattern with a quote has no backquote. -/
def StageForm.Writable : StageForm → Prop
  | .line _ _ _ => True
  | .either _ _ _ _ => True
  | .labels tests => tests.Forall (Chain.Forall (LabelTest.Writable library))
  | .plain parser => parser ∈ [.json, .logFMT, .unpack]
  | .quoted parser text =>
      parser ∈ [.regExp, .lineFormat, .pattern] ∧
        (parser = .pattern → byte '"' ∈ text → Made (fun r => r ≠ 0x60) text)
  | .unwrap name _ => Named library name
  | .decolorize => True

structure WritableMatcher (m : Matcher) : Prop where
  plain : isPlainName m.name = true
  notKeyword : tokens.lookup m.name = none

structure Grouping.Writable (g : Grouping) : Prop where
  present : g.groups ≠ []
  named : ∀ name ∈ g.groups, Named library name

end

/-! ### The text of the lexemes -/

@[simp]
theorem lexemesText_nil : lexemesText [] = [] :=
  rfl

@[simp]
theorem lexemesText_cons (lexeme : Lexeme) (lexemes : List Lexeme) :
    lexemesText (lexeme :: lexemes) = lexeme.text ++ lexemesText lexemes :=
  rfl

theorem text_intercalate (separator : List Lexeme) (parts : List (List Lexeme)) :
    lexemesText (separator.intercalate parts) =
      (lexemesText separator).intercalate (parts.map lexemesText) := by
  induction parts with
  | nil => rfl
  | cons part parts ih =>
      cases parts with
      | nil => simp only [List.intercalate_singleton, List.map_cons, List.map_nil]
      | cons next parts =>
          rw [List.intercalate_cons_cons, lexemesText_append, lexemesText_append, ih]
          simp only [List.map_cons, List.intercalate_cons_cons, List.append_assoc]

/-- The text of a label filter without the pipe in front of it. -/
def LogLabelFilterExpr.inner (numbers : Numbers) : LogLabelFilterExpr → GoString
  | .mk name op ip value _ chainOp right =>
      LogLabelFilterExpr.string numbers (.mk name op ip value true chainOp right)

def LogLabelFilterExpr.isNested : LogLabelFilterExpr → Bool
  | .mk _ _ _ _ isNested _ _ => isNested

section

variable (unicode : Unicode) (numbers : Numbers)

theorem stringRight_append (front back : List LogLabelFilterExpr) :
    LogLabelFilterExpr.stringRight numbers (front ++ back) =
      LogLabelFilterExpr.stringRight numbers front ++
        LogLabelFilterExpr.stringRight numbers back := by
  induction front with
  | nil => rfl
  | cons e front ih =>
      obtain ⟨name, op, ip, value, isNested, chainOp, right⟩ := e
      cases chainOp <;> simp only [List.cons_append, LogLabelFilterExpr.stringRight, ih,
        List.append_assoc]

theorem inner_chain (op : ChainOp) (left right : LogLabelFilterExpr) :
    (left.chain op right).inner numbers =
      left.inner numbers ++ (op.text ++ right.inner numbers) := by
  obtain ⟨name, comparison, ip, value, isNested, chainOp, others⟩ := left
  obtain ⟨name', comparison', ip', value', isNested', chainOp', others'⟩ := right
  simp only [LogLabelFilterExpr.chain, LogLabelFilterExpr.inner, LogLabelFilterExpr.string,
    stringRight_append, LogLabelFilterExpr.stringRight, List.append_assoc, List.append_nil]

theorem text_ipLexemes (ip : Bool) (operand : Lexeme) :
    lexemesText (ipLexemes ip operand) =
      if ip then ascii "ip(" ++ operand.text ++ ascii ")" else operand.text := by
  cases ip with
  | false => exact List.append_nil _
  | true => rfl

theorem text_chainOp (op : ChainOp) : lexemesText op.lexemes = op.text := by
  cases op <;> rfl

theorem text_comparisonOp (op : ComparisonOp) : op.lexeme.text = op.text := by
  cases op <;> rfl

theorem text_lineFilter (filter : LineFilter) : filter.lexeme.text = filter.text := by
  cases filter <;> rfl

theorem text_matchType (type : MatchType) : (MatchType.lexeme type).text = type.text := by
  cases type <;> rfl

theorem text_chain {α : Type} (op : ChainOp) {item : α → LogLabelFilterExpr}
    {lexemes : α → List Lexeme} (isText : ∀ a, lexemesText (lexemes a) = (item a).inner numbers)
    (chain : Chain α) :
    lexemesText (chain.lexemes op lexemes) = (chain.filter op item).inner numbers := by
  induction chain with
  | one a => exact isText a
  | more chain a ih =>
      rw [Chain.lexemes, Chain.filter, inner_chain, lexemesText_append, lexemesText_append, ih,
        isText, text_chainOp]

theorem text_labelTest (test : LabelTest) :
    lexemesText test.lexemes = test.filter.inner numbers := by
  obtain ⟨name, op, ip, text⟩ := test
  simp only [LabelTest.lexemes, lexemesText_append, text_ipLexemes, lexemesText_cons,
    lexemesText_nil, text_comparisonOp, LabelTest.filter, newLogLabelFilter,
    LogLabelFilterExpr.inner, LogLabelFilterExpr.string, LogLabelFilterExpr.stringRight]
  simp [Lexeme.verbatim, Lexeme.text, LogLabelFilterValue.string, ascii, byte]

theorem string_outer {e : LogLabelFilterExpr} (outer : e.isNested = false) :
    e.string numbers = ascii "| " ++ e.inner numbers := by
  obtain ⟨name, op, ip, value, isNested, chainOp, right⟩ := e
  cases outer
  simp only [LogLabelFilterExpr.inner, LogLabelFilterExpr.string, List.append_assoc,
    List.nil_append, if_true, if_neg Bool.false_ne_true]

theorem isNested_chain {α : Type} (op : ChainOp) {item : α → LogLabelFilterExpr}
    (outer : ∀ a, (item a).isNested = false) (chain : Chain α) :
    (chain.filter op item).isNested = false := by
  induction chain with
  | one a => exact outer a
  | more chain a ih =>
      rw [Chain.filter]
      generalize chain.filter op item = left at ih ⊢
      generalize item a = right
      obtain ⟨name, comparison, ip, value, isNested, chainOp, others⟩ := left
      obtain ⟨name', comparison', ip', value', isNested', chainOp', others'⟩ := right
      exact ih

theorem text_stage (form : StageForm) (library : Library) (writable : form.Writable library) :
    lexemesText (form.lexemes unicode) = form.stage.string unicode numbers := by
  cases form with
  | line filter ip value =>
      rw [StageForm.lexemes, lexemesText_append, text_ipLexemes, lexemesText_cons,
        text_lineFilter]
      simp only [StageForm.stage, LogStageExpr.string, newLogFilterExpr, LogFilterExpr.string,
        LogFilterExpr.stringRight, List.append_nil]
      rfl
  | either filter value ip other =>
      rw [StageForm.lexemes, lexemesText_append, lexemesText_append, text_ipLexemes,
        lexemesText_cons, text_lineFilter, text_chainOp]
      simp only [StageForm.stage, LogStageExpr.string, newLogFilterExpr, LogFilterExpr.chain,
        LogFilterExpr.string, LogFilterExpr.stringRight, List.append_nil, List.nil_append]
      simp [Lexeme.quoted, Lexeme.text, ChainOp.text, ascii, byte]
  | labels tests =>
      rw [StageForm.lexemes, lexemesText_append,
        text_chain numbers .or (text_chain numbers .and (text_labelTest numbers))]
      exact (string_outer numbers (isNested_chain .or (isNested_chain .and fun _ => rfl)
        tests)).symm
  | plain parser =>
      have known : parser ∈ [.json, .logFMT, .unpack] := writable
      simp only [List.mem_cons, List.not_mem_nil, or_false] at known
      rcases known with rfl | rfl | rfl <;> rfl
  | quoted parser text =>
      obtain ⟨known, -⟩ := writable
      simp only [List.mem_cons, List.not_mem_nil, or_false] at known
      rcases known with rfl | rfl | rfl
      · simp [StageForm.lexemes, StageForm.stage, LogStageExpr.string, LogParserExpr.string,
          operandLexeme, Lexeme.quoted, Lexeme.pipe, ParserName.lexeme, ParserName.text,
          Lexeme.text, ascii, byte]
      · simp [StageForm.lexemes, StageForm.stage, LogStageExpr.string, LogParserExpr.string,
          operandLexeme, Lexeme.quoted, Lexeme.pipe, ParserName.lexeme, ParserName.text,
          Lexeme.text, ascii, byte]
      · by_cases hasQuote : byte '"' ∈ text <;>
          simp [StageForm.lexemes, StageForm.stage, LogStageExpr.string, LogParserExpr.string,
            operandLexeme, hasQuote, Lexeme.quoted, Lexeme.pipe, ParserName.lexeme,
            ParserName.text, Lexeme.text, ascii] <;>
          exact ⟨rfl, rfl⟩
  | unwrap name operation =>
      cases operation with
      | none =>
          simp [StageForm.lexemes, StageForm.stage, LogStageExpr.string, LogParserExpr.string,
            Lexeme.pipe, ParserName.lexeme, ParserName.text, Lexeme.text, ascii, byte]
      | some op =>
          cases op <;>
            simp [StageForm.lexemes, StageForm.stage, LogStageExpr.string, LogParserExpr.string,
              Lexeme.pipe, Lexeme.lparen, Lexeme.rparen, ParserName.lexeme, ParserName.text,
              ConvOp.lexeme, ConvOp.text, Lexeme.text, ascii, byte]
  | decolorize => rfl

theorem text_matcher {m : Matcher} (writable : WritableMatcher m) :
    lexemesText (Matcher.lexemes unicode m) = m.string unicode := by
  rw [Matcher.string, if_pos writable.plain, Matcher.lexemes, lexemesText_cons, lexemesText_cons,
    text_matchType, lexemesText_cons, lexemesText_nil, List.append_nil]
  rfl

theorem text_selector {matchers : List Matcher} (writable : ∀ m ∈ matchers, WritableMatcher m) :
    lexemesText (selectorLexemes unicode matchers) =
      StreamMatcherExpr.string unicode ⟨matchers⟩ := by
  have own : (matchers.map (Matcher.lexemes unicode)).map lexemesText =
      matchers.map (Matcher.string unicode) := by
    rw [List.map_map]
    exact List.map_congr_left fun m member => text_matcher unicode (writable m member)
  rw [selectorLexemes, StreamMatcherExpr.string, lexemesText_append, lexemesText_append,
    text_intercalate, own]
  rfl

theorem text_pipeline {forms : List StageForm} {library : Library}
    (writable : ∀ form ∈ forms, form.Writable library) :
    lexemesText (pipelineLexemes unicode forms) =
      (forms.map StageForm.stage).flatMap fun stage =>
        ascii " " ++ stage.string unicode numbers := by
  induction forms with
  | nil => rfl
  | cons form forms ih =>
      rw [List.forall_mem_cons] at writable
      rw [pipelineLexemes, List.flatMap_cons, lexemesText_append, lexemesText_cons,
        text_stage unicode numbers form library writable.1, List.map_cons, List.flatMap_cons,
        ← ih writable.2]
      rfl

theorem text_grouping {g : Grouping} (present : g.groups ≠ []) :
    lexemesText g.lexemes = g.string := by
  obtain ⟨without, groups⟩ := g
  have own : (groups.map fun name => [Lexeme.name name]).map lexemesText = groups := by
    rw [List.map_map]
    exact (List.map_congr_left fun name _ => List.append_nil name).trans (List.map_id groups)
  obtain ⟨name, names, rfl⟩ := List.exists_cons_of_ne_nil present
  rw [Grouping.lexemes, namesLexemes, lexemesText_append, lexemesText_append, text_intercalate,
    own]
  cases without <;> rfl

end

example : lexemesText (selectorLexemes .asciiOnly [⟨.equal, ascii "a", ascii "b"⟩]) =
    ascii "\x7ba=\"b\"\x7d" := by
  decide +kernel

end McoaGateway.Logql
