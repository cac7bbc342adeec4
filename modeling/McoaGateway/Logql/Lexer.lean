/-
The lexer of LogQL (`logql/v2/lexer.go`).

`isFunc`, `trimSpace` and `tryScanDuration` look ahead with copies of the
scanner, which share its reader.  A call of `Lex` that never returns is `none`:
the loop for a flag does not stop at the end of the input.
-/

import McoaGateway.TextScanner
import McoaGateway.Logql.Ast

namespace McoaGateway.Logql

open GoString

/-! ### Tokens -/

/-- The tokens in the order of their internal numbers, from 4 on. -/
inductive Terminal where
  | identifier | string | range | number | logFMTStrict | logFMTKeepEmpty | duration
  | matchers | labels | eq | re | nre | openBrace | closeBrace | openBracket | closeBracket
  | comma | dot | openParenthesis | closeParenthesis
  | countOverTime | rate | rateCounter | sum | avg | max | min | count | stddev | stdvar
  | bottomK | topK | sort | sortDesc | bytesOverTime | bytesRate
  | bool | json | regexp | logFMT | pipeMatch | pipeExact | pipeMatchPattern
  | pipeNotMatchPattern | pipe | lineFmt | labelFmt | unwrap
  | avgOverTime | sumOverTime | minOverTime | maxOverTime | stdvarOverTime
  | stddevOverTime | quantileOverTime | firstOverTime | lastOverTime | absentOverTime
  | byToken | without | vector | labelReplace | ip | unpack | pattern | offset
  | bytesConv | durationConv | durationSecondsConv | on | ignoring | groupLeft | groupRight
  | decolorize | drop | keep
  | or | and | unless | cmpEq | neq | lt | lte | gt | gte | add | sub | mul | div | mod | pow
deriving DecidableEq, Repr

def Terminal.internalNumber (t : Terminal) : Int :=
  t.ctorIdx + 4

/-- The fields of `exprSymType` that the lexer sets. -/
structure LexValue where
  str : GoString
  duration : Int
deriving DecidableEq, Repr

structure Token where
  kind : Terminal
  lval : LexValue
deriving DecidableEq, Repr

def tokens : List (GoString × Terminal) :=
  [(ascii ",", .comma), (ascii ".", .dot), (ascii "\x7b", .openBrace),
    (ascii "\x7d", .closeBrace), (ascii "(", .openParenthesis),
    (ascii ")", .closeParenthesis), (ascii "=", .eq), (ascii "!=", .neq), (ascii "=~", .re),
    (ascii "!~", .nre), (ascii "|", .pipe), (ascii "|=", .pipeExact),
    (ascii "|~", .pipeMatch), (ascii "|>", .pipeMatchPattern),
    (ascii "!>", .pipeNotMatchPattern), (ascii "decolorize", .decolorize),
    (ascii "drop", .drop), (ascii "keep", .keep), (ascii "by", .byToken),
    (ascii "without", .without), (ascii "on", .on), (ascii "ignoring", .ignoring),
    (ascii "group_left", .groupLeft), (ascii "group_right", .groupRight),
    (ascii "logfmt", .logFMT), (ascii "json", .json), (ascii "regexp", .regexp),
    (ascii "unpack", .unpack), (ascii "unwrap", .unwrap), (ascii "offset", .offset),
    (ascii "pattern", .pattern), (ascii "line_format", .lineFmt),
    (ascii "label_format", .labelFmt), (ascii "==", .cmpEq), (ascii ">", .gt),
    (ascii ">=", .gte), (ascii "<", .lt), (ascii "<=", .lte), (ascii "or", .or),
    (ascii "and", .and), (ascii "unless", .unless), (ascii "+", .add), (ascii "-", .sub),
    (ascii "*", .mul), (ascii "/", .div), (ascii "%", .mod), (ascii "^", .pow),
    (ascii "bytes", .bytesConv), (ascii "duration", .durationConv),
    (ascii "duration_seconds", .durationSecondsConv), (ascii "--strict", .logFMTStrict),
    (ascii "--keep-empty", .logFMTKeepEmpty)]

def funcTokens : List (GoString × Terminal) :=
  [(ascii "rate", .rate), (ascii "count_over_time", .countOverTime),
    (ascii "bytes_rate", .bytesRate), (ascii "bytes_over_time", .bytesOverTime),
    (ascii "avg_over_time", .avgOverTime), (ascii "sum_over_time", .sumOverTime),
    (ascii "min_over_time", .minOverTime), (ascii "max_over_time", .maxOverTime),
    (ascii "stdvar_over_time", .stdvarOverTime),
    (ascii "stddev_over_time", .stddevOverTime),
    (ascii "quantile_over_time", .quantileOverTime),
    (ascii "first_over_time", .firstOverTime), (ascii "last_over_time", .lastOverTime),
    (ascii "absent_over_time", .absentOverTime), (ascii "rate_counter", .rateCounter),
    (ascii "vector", .vector), (ascii "sum", .sum), (ascii "avg", .avg), (ascii "max", .max),
    (ascii "min", .min), (ascii "count", .count), (ascii "stddev", .stddev),
    (ascii "stdvar", .stdvar), (ascii "bottomk", .bottomK), (ascii "topk", .topK),
    (ascii "sort", .sort), (ascii "sort_desc", .sortDesc),
    (ascii "label_replace", .labelReplace), (ascii "ip", .ip)]

/-- What the lexer and the grammar use of other packages. -/
structure Library where
  unicode : Unicode
  /-- `parseDuration`: `model.ParseDuration`, else `time.ParseDuration`. -/
  parseDuration : GoString → Option Int
  /-- `%f` of the result of `strconv.ParseFloat`. -/
  formatFloat : GoString → GoString
  /-- A float is rendered with digits, a point and a sign, or as `NaN` or `Inf`. -/
  formatFloat_plain : ∀ text, ∀ b ∈ formatFloat text, b ∈ ascii "0123456789.+-NaIinf"

/-- ASCII letters and digits, no durations, and one number. -/
def Library.asciiOnly : Library where
  unicode := .asciiOnly
  parseDuration _ := none
  formatFloat _ := ascii "1.000000"
  formatFloat_plain _ := by decide +kernel

structure LexState where
  scanner : Scanner
  /-- The value that the parser keeps for the lexer. -/
  lval : LexValue
deriving DecidableEq, Repr

namespace LexState

def moveTo (state : LexState) (s : Scanner) : LexState :=
  { state with scanner := s }

def withStr (state : LexState) (str : GoString) : LexState :=
  { state with lval := { state.lval with str := str } }

def withDuration (state : LexState) (duration : Int) : LexState :=
  { state with lval := { state.lval with duration := duration } }

def error (state : LexState) (message : GoString) : LexState :=
  state.moveTo (state.scanner.error (.reported message))

def token (state : LexState) (kind : Terminal) : Option Token × LexState :=
  (some ⟨kind, state.lval⟩, state)

end LexState

/-! ### Looking ahead -/

def isDurationRune (r : Nat) : Bool :=
  [0x6E, 0x75, 0xB5, 0x6D, 0x73, 0x68, 0x64, 0x77, 0x79].contains r

def countRounds (counts : Nat → Bool) : Nat → Scanner → Nat
  | 0, _ => 0
  | rounds + 1, s =>
      match s.ch with
      | none => 0
      | some r => if counts r then countRounds counts rounds s.next + 1 else 0

/-- The loop of `isFunc`; only what stands at the beginning can make it stop
before the end. -/
def isFuncRounds : Nat → GoString → Scanner → Bool × Scanner
  | 0, _, s => (false, s)
  | rounds + 1, read, s =>
      match s.ch with
      | none => (false, s)
      | some r =>
          let read := read ++ encodeRune r
          let s := s.next
          if read = ascii "(" then (true, s)
          else if read = ascii "by" ∨ read = ascii "without" then
            let s := s.skipWhile isSpaceRune
            (s.ch == some 0x28, s.next)
          else isFuncRounds rounds read s

def isFunc (s : Scanner) : Bool × Scanner :=
  let s := s.skipWhile isSpaceRune
  isFuncRounds (s.text.length + 1) [] s

section

variable (library : Library)

def isDurationPart (r : Nat) : Bool :=
  !isSpaceRune r && (library.unicode.number r || isDurationRune r || r = 0x2E)

/-- `tryScanDuration`: the duration, if there is one, and the scanner. -/
def tryScanDuration (number : GoString) (s : Scanner) : Option Int × Scanner :=
  let copy := s.skipWhile (isDurationPart library)
  let consumed := countRounds (isDurationPart library) s.text.length s
  let s' := s.after copy
  if consumed = 0 then (none, s')
  else
    match library.parseDuration (number ++ s.since copy) with
    | none => (none, s')
    | some d => (some d, Nat.iterate Scanner.next consumed s')

/-! ### `Lex` -/

/-- The next character as a string; the end gives the replacement character. -/
def peekString (s : Scanner) : GoString :=
  encodeRune (s.ch.getD runeError)

/-- Functions and keywords, with one more character or without it. -/
def lexWord (state : LexState) (tokenText : GoString) : Option Token × LexState :=
  let s := state.scanner
  let tokenNext := tokenText ++ peekString s
  let longFunction := (funcTokens.lookup tokenNext).map fun kind => (kind, isFunc s.next)
  let s := match longFunction with
    | some (_, _, copy) => s.after copy
    | none => s
  match longFunction with
  | some (kind, true, _) => (state.moveTo s.next).token kind
  | _ =>
      let function := (funcTokens.lookup tokenText).map fun kind => (kind, isFunc s)
      let s := match function with
        | some (_, _, copy) => s.after copy
        | none => s
      match function with
      | some (kind, true, _) => (state.moveTo s).token kind
      | _ =>
          match tokens.lookup tokenNext with
          | some kind => (state.moveTo s.next).token kind
          | none =>
              match tokens.lookup tokenText with
              | some kind => (state.moveTo s).token kind
              | none => ((state.moveTo s).withStr tokenText).token .identifier

def lexRange (state : LexState) : Option Token × LexState :=
  let stop := state.scanner.skipWhile fun r => r != 0x5D
  if stop.ch = none then (none, (state.moveTo stop).error (ascii "missing closing ']' in duration"))
  else
    ((state.moveTo stop.next).withStr (ascii "[" ++ state.scanner.since stop ++ ascii "]")).token
      .range

/-- A flag, at its second dash.  The white space behind it is read, too. -/
def lexFlag (state : LexState) : Option (Option Token × LexState) :=
  let stop := state.scanner.skipWhile fun r => !isSpaceRune r
  let flag := ascii "-" ++ state.scanner.since stop
  if stop.ch = none then none
  else
    let state := state.moveTo stop.next
    if flag = ascii "--strict" then some ((state.withStr flag).token .logFMTStrict)
    else if flag = ascii "--keep-empty" then some ((state.withStr flag).token .logFMTKeepEmpty)
    else some (none, state)

def lexString (state : LexState) (tokenText : GoString) : Option Token × LexState :=
  if !validString tokenText then
    (none, state.error (ascii "invalid UTF-8 rune"))
  else
    match unquote tokenText with
    | none => (none, (state.withStr []).error (ascii "invalid syntax"))
    | some str => (state.withStr str).token .string

def lexNumber (state : LexState) (tokenText : GoString) : Option Token × LexState :=
  match tryScanDuration library tokenText state.scanner with
  | (some d, s) => ((state.moveTo s).withDuration d).token .duration
  | (none, s) => ((state.moveTo s).withStr tokenText).token .number

def lexDash (state : LexState) (tokenText : GoString) : Option Token × LexState :=
  match tryScanDuration library tokenText state.scanner with
  | (some d, s) => ((state.moveTo s).withDuration d).token .duration
  | (none, s) => lexWord (state.moveTo s) tokenText

def skipComment (s : Scanner) : Scanner :=
  if s.ch = none ∨ s.ch = some 10 then s
  else
    (s.skipWhile fun r => r != 10).next

def lexRounds : Nat → LexState → Option (Option Token × LexState)
  | 0, _ => none
  | rounds + 1, state =>
      let (scanned, start, stop) := state.scanner.scan library.unicode
      let tokenText := start.since stop
      let state := state.moveTo stop
      match scanned with
      | .eof => some (none, state)
      | .int | .float => some (lexNumber library state tokenText)
      | .string | .rawString => some (lexString state tokenText)
      | .ident | .char => some (lexWord state tokenText)
      | .rune r =>
          if r = 0x23 then lexRounds rounds (state.moveTo (skipComment stop))
          else if r = 0x2D then
            if stop.ch = some 0x2D then lexFlag state
            else some (lexDash library state tokenText)
          else if r = 0x5B then some (lexRange state)
          else some (lexWord state tokenText)

/-- Every round reads a comment, so the rounds suffice. -/
def lex (state : LexState) : Option (Option Token × LexState) :=
  lexRounds library (state.scanner.text.length + 1) state

end

end McoaGateway.Logql
