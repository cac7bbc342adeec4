/-
The messages of the parser, with the positions in them (`logql/v2/lexer.go`).

`Lexer` is the lexer with the fields of its scanner that have to do with positions,
with its list of errors as it is returned, and with its builder.  An error is
reported with the position of the token that was scanned last, also when a copy of
the scanner reports it.  `Next` makes the line of that position invalid, but leaves
its column; `Init` does the same.

What `text/scanner` says is a parameter: the wording of an error, for the text of
the token that it is about.
-/

import McoaGateway.Loops
import McoaGateway.TextScanner.Runes
import McoaGateway.Logql.Lexer
import McoaGateway.Logql.Tables

namespace McoaGateway.Logql

open GoString

/-! ### Messages -/

def exprToknames : List GoString :=
  [ascii "$end", ascii "error", ascii "$unk", ascii "IDENTIFIER", ascii "STRING", ascii "RANGE",
    ascii "NUMBER", ascii "LOGFMTSTRICT", ascii "LOGFMTKEEPEMPTY", ascii "DURATION",
    ascii "MATCHERS", ascii "LABELS", ascii "EQ", ascii "RE", ascii "NRE", ascii "OPEN_BRACE",
    ascii "CLOSE_BRACE", ascii "OPEN_BRACKET", ascii "CLOSE_BRACKET", ascii "COMMA", ascii "DOT",
    ascii "OPEN_PARENTHESIS", ascii "CLOSE_PARENTHESIS", ascii "COUNT_OVER_TIME", ascii "RATE",
    ascii "RATE_COUNTER", ascii "SUM", ascii "AVG", ascii "MAX", ascii "MIN", ascii "COUNT",
    ascii "STDDEV", ascii "STDVAR", ascii "BOTTOMK", ascii "TOPK", ascii "SORT",
    ascii "SORT_DESC", ascii "BYTES_OVER_TIME", ascii "BYTES_RATE", ascii "BOOL", ascii "JSON",
    ascii "REGEXP", ascii "LOGFMT", ascii "PIPE_MATCH", ascii "PIPE_EXACT",
    ascii "PIPE_MATCH_PATTERN", ascii "PIPE_NOT_MATCH_PATTERN", ascii "PIPE", ascii "LINE_FMT",
    ascii "LABEL_FMT", ascii "UNWRAP", ascii "AVG_OVER_TIME", ascii "SUM_OVER_TIME",
    ascii "MIN_OVER_TIME", ascii "MAX_OVER_TIME", ascii "STDVAR_OVER_TIME",
    ascii "STDDEV_OVER_TIME", ascii "QUANTILE_OVER_TIME", ascii "FIRST_OVER_TIME",
    ascii "LAST_OVER_TIME", ascii "ABSENT_OVER_TIME", ascii "BY", ascii "WITHOUT", ascii "VECTOR",
    ascii "LABEL_REPLACE", ascii "IP", ascii "UNPACK", ascii "PATTERN", ascii "OFFSET",
    ascii "BYTES_CONV", ascii "DURATION_CONV", ascii "DURATION_SECONDS_CONV", ascii "ON",
    ascii "IGNORING", ascii "GROUP_LEFT", ascii "GROUP_RIGHT", ascii "DECOLORIZE", ascii "DROP",
    ascii "KEEP", ascii "OR", ascii "AND", ascii "UNLESS", ascii "CMP_EQ", ascii "NEQ",
    ascii "LT", ascii "LTE", ascii "GT", ascii "GTE", ascii "ADD", ascii "SUB", ascii "MUL",
    ascii "DIV", ascii "MOD", ascii "POW"]

def exprTokname (c : Int) : GoString :=
  if 1 ≤ c then
    match exprToknames[(c - 1).toNat]? with
    | some name => name
    | none => ascii "tok-" ++ decimal c.toNat
  else if 0 ≤ c then ascii "tok-" ++ decimal c.toNat
  else ascii "tok--" ++ decimal (-c).toNat

def shiftable (state : Int) : List Int :=
  ((List.range exprToknames.length).map fun (i : Nat) => (i + 1 : Int)).filter fun tok =>
    let n := Goyacc.tableEntry exprTables.pact state + tok
    4 ≤ tok && 0 ≤ n && n < exprTables.last &&
      Goyacc.tableEntry exprTables.chk (Goyacc.tableEntry exprTables.act n) == tok

/-- The tokens for which an exception is to accept or to reduce, and the default of the
exceptions. -/
def excepted : List Int → List Int × Int
  | tok :: code :: rest =>
      if 0 ≤ tok then
        let (toks, otherwise) := excepted rest
        (if tok < 4 || code == 0 then toks else tok :: toks, otherwise)
      else ([], code)
  | _ => ([], 0)

def expecting : List Int → GoString
  | [] => []
  | tok :: toks =>
      ascii ", expecting " ++ exprTokname tok ++
        toks.flatMap fun tok => ascii " or " ++ exprTokname tok

/-- `exprErrorMessage`, with `exprErrorVerbose`.  At most four tokens are suggested. -/
def exprErrorMessage (state lookAhead : Int) : GoString :=
  let res := ascii "syntax error: unexpected " ++ exprTokname lookAhead
  if 4 < (shiftable state).length then res
  else if Goyacc.tableEntry exprTables.defaults state = -2 then
    let (toks, otherwise) := excepted (Goyacc.exceptionRows exprTables.exca state)
    let expected := shiftable state ++ toks
    if 4 < expected.length || otherwise != 0 then res else res ++ expecting expected
  else res ++ expecting (shiftable state)

/-- `fmt.Errorf("%s: %d:%d", ...)` -/
def located (message : GoString) (line column : Nat) : GoString :=
  message ++ ascii ": " ++ decimal line ++ ascii ":" ++ decimal column

/-- The kinds of tokens whose text an action reads. -/
def Terminal.hasStr : Terminal → Bool
  | .identifier | .string | .range | .number => true
  | _ => false

/-! ### Positions -/

/-- The fields `line`, `column` and `lastLineLen` of a scanner, before it has read the
character that it holds. -/
structure Cursor where
  line : Nat
  column : Nat
  lastLineLen : Nat
deriving DecidableEq, Repr

def Cursor.start : Cursor :=
  ⟨1, 0, 0⟩

def Cursor.advance (cursor : Cursor) (r : Nat) : Cursor :=
  if r = 10 then ⟨cursor.line + 1, 0, cursor.column + 1⟩
  else { cursor with column := cursor.column + 1 }

def Cursor.over (cursor : Cursor) (text : GoString) : Cursor :=
  (runes text).foldl Cursor.advance cursor

/-- The fields after the next character.  The end of the input counts as a column, but
not in an empty one. -/
def Cursor.reading (cursor : Cursor) : Option Nat → Cursor
  | some r => cursor.advance r
  | none => if cursor = .start then cursor else { cursor with column := cursor.column + 1 }

/-- What `text/scanner` says of an error in a token. -/
abbrev Wording := ScanError → GoString → GoString

/-! ### The lexer -/

structure Lexer where
  scanner : Scanner
  cursor : Cursor
  /-- `Line` and `Column` of the token scanned last. -/
  line : Nat
  column : Nat
  errs : List GoString
  builder : GoString

namespace Lexer

/-- `Error` -/
def error (lexer : Lexer) (message : GoString) : Lexer :=
  { lexer with
    scanner := lexer.scanner.error (.reported message)
    errs := lexer.errs ++ [located message lexer.line lexer.column] }

/-- `Line = 0` -/
def invalidate (lexer : Lexer) : Lexer :=
  { lexer with line := 0 }

def place (lexer : Lexer) : Lexer :=
  let here := lexer.cursor.reading lexer.scanner.ch
  if 0 < here.column then { lexer with line := here.line, column := here.column }
  else { lexer with line := here.line - 1, column := here.lastLineLen }

def reset (lexer : Lexer) : Lexer :=
  { lexer with builder := [] }

/-- `WriteRune`, for the characters of a text. -/
def write (lexer : Lexer) (text : GoString) : Lexer :=
  { lexer with builder := lexer.builder ++ (runes text).flatMap encodeRune }

section

variable (wording : Wording)

/-- The errors that the scanner has reported on its way, or a copy of it. -/
def hear (lexer : Lexer) (text : GoString) (stop : Scanner) : Lexer :=
  { lexer with
    errs := lexer.errs ++ (stop.errors.drop lexer.scanner.errors.length).map fun e =>
      located (wording e text) lexer.line lexer.column }

def readTo (lexer : Lexer) (text : GoString) (stop : Scanner) : Lexer :=
  { lexer.hear wording text stop with
    scanner := stop
    cursor := lexer.cursor.over (lexer.scanner.since stop) }

def look (lexer : Lexer) (copy : Scanner) : Lexer :=
  { lexer.hear wording [] copy with scanner := lexer.scanner.after copy }

/-- `Next`, until the scanner is at a point. -/
def nextTo (lexer : Lexer) (stop : Scanner) : Lexer :=
  lexer.invalidate.readTo wording [] stop

def next (lexer : Lexer) : Lexer :=
  lexer.nextTo wording lexer.scanner.next

/-- `Init` and the first character.  The line of the position is invalid until a token
begins, and the column is that of the parse before. -/
def init (capacity : Nat) (lexer : Lexer) (input : GoString) : Lexer :=
  let s := Scanner.ofText capacity input
  { lexer with
    scanner := s
    cursor := Cursor.start.over (input.take (input.length - s.text.length))
    line := 0
    errs := lexer.errs.take 0 ++ s.errors.map fun e => located (wording e []) 0 lexer.column }

variable (library : Library)

/-- The position is set at the beginning of a comment, too. -/
def scanRounds : Nat → Lexer → Scanner.Scanned × GoString × Lexer
  | 0, lexer => (.eof, [], lexer)
  | rounds + 1, lexer =>
      let start := lexer.scanner.skipWhile isWhitespace
      let lexer := (lexer.readTo wording [] start).place
      match start.scanToken library.unicode with
      | (some scanned, stop) =>
          (scanned, start.since stop, lexer.readTo wording (start.since stop) stop)
      | (none, stop) => scanRounds rounds (lexer.readTo wording (start.since stop) stop)

/-- `Scan`, with the text of the token. -/
def scan (lexer : Lexer) : Scanner.Scanned × GoString × Lexer :=
  scanRounds wording library (lexer.scanner.text.length + 1) lexer.invalidate

def tryScanDuration (number : GoString) (lexer : Lexer) : Option Int × Lexer :=
  let s := lexer.scanner
  let copy := s.skipWhile (isDurationPart library)
  let consumed := countRounds (isDurationPart library) s.text.length s
  let lexer := lexer.look wording copy
  if consumed = 0 then (none, lexer)
  else
    match library.parseDuration (number ++ s.since copy) with
    | none => (none, lexer)
    | some d => (some d, lexer.nextTo wording (Nat.iterate Scanner.next consumed lexer.scanner))

/-- What `Lex` returns, with the fields that it sets. -/
abbrev Lexed := Option Terminal × LexValue × Lexer

/-- Keywords, with one more character or without it, and identifiers. -/
def lexKeyword (lval : LexValue) (lexer : Lexer) (tokenText tokenNext : GoString) : Lexed :=
  match tokens.lookup tokenNext with
  | some kind => (some kind, lval, lexer.next wording)
  | none =>
      match tokens.lookup tokenText with
      | some kind => (some kind, lval, lexer)
      | none => (some .identifier, { lval with str := tokenText }, lexer)

def lexFunction (lval : LexValue) (lexer : Lexer) (tokenText tokenNext : GoString) : Lexed :=
  match funcTokens.lookup tokenText with
  | none => lexKeyword wording lval lexer tokenText tokenNext
  | some kind =>
      let looked := isFunc lexer.scanner
      let lexer := lexer.look wording looked.2
      if looked.1 then (some kind, lval, lexer)
      else lexKeyword wording lval lexer tokenText tokenNext

def lexWord (lval : LexValue) (lexer : Lexer) (tokenText : GoString) : Lexed :=
  let tokenNext := tokenText ++ peekString lexer.scanner
  match funcTokens.lookup tokenNext with
  | none => lexFunction wording lval lexer tokenText tokenNext
  | some kind =>
      let looked := isFunc lexer.scanner.next
      let lexer := lexer.look wording looked.2
      if looked.1 then (some kind, lval, lexer.next wording)
      else lexFunction wording lval lexer tokenText tokenNext

def lexRange (lval : LexValue) (lexer : Lexer) : Lexed :=
  let stop := lexer.scanner.skipWhile fun r => r != 0x5D
  let lexer := lexer.reset.write (lexer.scanner.since stop)
  if stop.ch = none then
    (none, lval, (lexer.nextTo wording stop).error (ascii "missing closing ']' in duration"))
  else
    (some .range, { lval with str := ascii "[" ++ lexer.builder ++ ascii "]" },
      lexer.nextTo wording stop.next)

def lexFlag (lval : LexValue) (lexer : Lexer) : Option Lexed :=
  let stop := lexer.scanner.skipWhile fun r => !isSpaceRune r
  let lexer := (lexer.reset.write (ascii "-")).write (lexer.scanner.since stop)
  if stop.ch = none then none
  else
    let lexer := lexer.nextTo wording stop.next
    if lexer.builder = ascii "--strict" then
      some (some .logFMTStrict, { lval with str := ascii "--strict" }, lexer)
    else if lexer.builder = ascii "--keep-empty" then
      some (some .logFMTKeepEmpty, { lval with str := ascii "--keep-empty" }, lexer)
    else some (none, lval, lexer)

def lexString (lval : LexValue) (lexer : Lexer) (tokenText : GoString) : Lexed :=
  if !validString tokenText then
    (none, lval, lexer.error (ascii "invalid UTF-8 rune"))
  else
    match unquote tokenText with
    | none => (none, { lval with str := [] }, lexer.error (ascii "invalid syntax"))
    | some str => (some .string, { lval with str := str }, lexer)

def lexNumber (lval : LexValue) (lexer : Lexer) (tokenText : GoString) : Lexed :=
  match tryScanDuration wording library tokenText lexer with
  | (some d, lexer) => (some .duration, { lval with duration := d }, lexer)
  | (none, lexer) => (some .number, { lval with str := tokenText }, lexer)

def lexDash (lval : LexValue) (lexer : Lexer) (tokenText : GoString) : Lexed :=
  match tryScanDuration wording library tokenText lexer with
  | (some d, lexer) => (some .duration, { lval with duration := d }, lexer)
  | (none, lexer) => lexWord wording lval lexer tokenText

/-- A comment, at the character after the hash.  `Next` is called unless that is the end
of the line. -/
def skipComment (lexer : Lexer) : Lexer :=
  if lexer.scanner.ch = none ∨ lexer.scanner.ch = some 10 then lexer
  else lexer.nextTo wording (Logql.skipComment lexer.scanner)

def lexRounds : Nat → LexValue → Lexer → Option Lexed
  | 0, _, _ => none
  | rounds + 1, lval, lexer =>
      let (scanned, tokenText, lexer) := lexer.scan wording library
      match scanned with
      | .eof => some (none, lval, lexer)
      | .int | .float => some (lexNumber wording library lval lexer tokenText)
      | .string | .rawString => some (lexString lval lexer tokenText)
      | .ident | .char => some (lexWord wording lval lexer tokenText)
      | .rune r =>
          if r = 0x23 then lexRounds rounds lval (lexer.skipComment wording)
          else if r = 0x2D then
            if lexer.scanner.ch = some 0x2D then lexFlag wording lval lexer
            else some (lexDash wording library lval lexer tokenText)
          else if r = 0x5B then some (lexRange wording lval lexer)
          else some (lexWord wording lval lexer tokenText)

/-- `Lex` -/
def lex (lval : LexValue) (lexer : Lexer) : Option Lexed :=
  lexRounds wording library (lexer.scanner.text.length + 1) lval lexer

end

/-! ### What the lexer does not depend on -/

/-- The part of a value that the actions use for a token of a kind. -/
def coreValue (kind : Terminal) (lval : LexValue) : LexValue :=
  ⟨if kind.hasStr then lval.str else [], if kind = .duration then lval.duration else 0⟩

def withBuilder (lexer : Lexer) (builder : GoString) : Lexer :=
  { lexer with builder := builder }

structure Agreed (first second : Lexed) : Prop where
  kind : second.1 = first.1
  value : ∀ kind, first.1 = some kind → coreValue kind first.2.1 = coreValue kind second.2.1
  lexer : ∃ builder, second.2.2 = first.2.2.withBuilder builder

section

variable (wording : Wording) (library : Library) (lval lval' : LexValue) (lexer : Lexer)
  (builder : GoString)

@[simp]
theorem scanner_withBuilder : (lexer.withBuilder builder).scanner = lexer.scanner :=
  rfl

@[simp]
theorem place_withBuilder :
    (lexer.withBuilder builder).place = lexer.place.withBuilder builder := by
  unfold place
  dsimp only [withBuilder]
  split <;> rfl

@[simp]
theorem readTo_withBuilder (text : GoString) (stop : Scanner) :
    (lexer.withBuilder builder).readTo wording text stop =
      (lexer.readTo wording text stop).withBuilder builder :=
  rfl

@[simp]
theorem look_withBuilder (copy : Scanner) :
    (lexer.withBuilder builder).look wording copy = (lexer.look wording copy).withBuilder builder :=
  rfl

@[simp]
theorem nextTo_withBuilder (stop : Scanner) :
    (lexer.withBuilder builder).nextTo wording stop =
      (lexer.nextTo wording stop).withBuilder builder :=
  rfl

@[simp]
theorem next_withBuilder :
    (lexer.withBuilder builder).next wording = (lexer.next wording).withBuilder builder :=
  rfl

@[simp]
theorem reset_withBuilder : (lexer.withBuilder builder).reset = lexer.reset :=
  rfl

theorem scanRounds_withBuilder (rounds : Nat) :
    scanRounds wording library rounds (lexer.withBuilder builder) =
      ((scanRounds wording library rounds lexer).1, (scanRounds wording library rounds lexer).2.1,
        (scanRounds wording library rounds lexer).2.2.withBuilder builder) := by
  induction rounds generalizing lexer with
  | zero => rfl
  | succ rounds ih =>
      rw [scanRounds, scanRounds]
      simp only [scanner_withBuilder, readTo_withBuilder, place_withBuilder]
      split
      · rfl
      · exact ih _

theorem scan_withBuilder :
    (lexer.withBuilder builder).scan wording library =
      ((lexer.scan wording library).1, (lexer.scan wording library).2.1,
        (lexer.scan wording library).2.2.withBuilder builder) :=
  scanRounds_withBuilder wording library lexer.invalidate builder _

theorem tryScanDuration_withBuilder (number : GoString) :
    tryScanDuration wording library number (lexer.withBuilder builder) =
      ((tryScanDuration wording library number lexer).1,
        (tryScanDuration wording library number lexer).2.withBuilder builder) := by
  unfold tryScanDuration
  dsimp only [scanner_withBuilder]
  by_cases nothing :
      countRounds (isDurationPart library) lexer.scanner.text.length lexer.scanner = 0
  · rw [if_pos nothing, if_pos nothing]
    rfl
  · rw [if_neg nothing, if_neg nothing]
    cases library.parseDuration
        (number ++ lexer.scanner.since (lexer.scanner.skipWhile (isDurationPart library))) with
    | none => rfl
    | some d => rfl

theorem skipComment_withBuilder :
    (lexer.withBuilder builder).skipComment wording =
      (lexer.skipComment wording).withBuilder builder := by
  unfold skipComment
  by_cases ends : lexer.scanner.ch = none ∨ lexer.scanner.ch = some 10
  · rw [if_pos ends, if_pos (by exact ends)]
  · rw [if_neg ends, if_neg (by exact ends)]
    rfl

theorem Agreed.of_value {kind : Terminal} {value value' : LexValue} {after after' : Lexer}
    (same : coreValue kind value = coreValue kind value')
    (isAfter : ∃ builder, after' = after.withBuilder builder) :
    Agreed (some kind, value, after) (some kind, value', after') := by
  refine ⟨rfl, ?_, isAfter⟩
  rintro own ⟨⟩
  exact same

theorem lexString_agreed (tokenText : GoString) :
    Agreed (lexString lval lexer tokenText)
      (lexString lval' (lexer.withBuilder builder) tokenText) := by
  unfold lexString
  by_cases invalid : (!validString tokenText) = true
  · rw [if_pos invalid, if_pos invalid]
    exact ⟨rfl, nofun, builder, rfl⟩
  · rw [if_neg invalid, if_neg invalid]
    cases unquote tokenText with
    | none => exact ⟨rfl, nofun, builder, rfl⟩
    | some str => exact .of_value (by rfl) ⟨builder, rfl⟩

theorem lexRange_agreed :
    Agreed (lexRange wording lval lexer)
      (lexRange wording lval' (lexer.withBuilder builder)) := by
  unfold lexRange
  dsimp only [scanner_withBuilder, reset_withBuilder]
  by_cases atEnd : (lexer.scanner.skipWhile fun r => r != 0x5D).ch = none
  · rw [if_pos atEnd, if_pos atEnd]
    exact ⟨rfl, nofun, _, rfl⟩
  · rw [if_neg atEnd, if_neg atEnd]
    exact .of_value (by rfl) ⟨_, rfl⟩

theorem lexFlag_agreed :
    Option.Rel Agreed (lexFlag wording lval lexer)
      (lexFlag wording lval' (lexer.withBuilder builder)) := by
  unfold lexFlag
  dsimp only [scanner_withBuilder, reset_withBuilder]
  by_cases atEnd : (lexer.scanner.skipWhile fun r => !isSpaceRune r).ch = none
  · rw [if_pos atEnd, if_pos atEnd]
    exact .none
  · rw [if_neg atEnd, if_neg atEnd]
    split
    · exact .some (.of_value (by rfl) ⟨_, rfl⟩)
    · split
      · exact .some (.of_value (by rfl) ⟨_, rfl⟩)
      · exact .some ⟨rfl, nofun, _, rfl⟩

theorem lexNumber_agreed (tokenText : GoString) :
    Agreed (lexNumber wording library lval lexer tokenText)
      (lexNumber wording library lval' (lexer.withBuilder builder) tokenText) := by
  unfold lexNumber
  rw [tryScanDuration_withBuilder]
  generalize tryScanDuration wording library tokenText lexer = scanned
  obtain ⟨_ | d, after⟩ := scanned
  · exact .of_value (by rfl) ⟨builder, rfl⟩
  · exact .of_value (by rfl) ⟨builder, rfl⟩

theorem coreValue_keyword {key : GoString} {kind : Terminal}
    (found : tokens.lookup key = some kind ∨ funcTokens.lookup key = some kind)
    (notFlag : ¬ ascii "--" <+: key) : coreValue kind lval = coreValue kind lval' := by
  have entries : ∀ entry ∈ tokens ++ funcTokens,
      (entry.2.hasStr = true → ascii "--" <+: entry.1) ∧ entry.2 ≠ .duration := by
    decide +kernel
  have member : (key, kind) ∈ tokens ++ funcTokens := by
    rcases found with isToken | isFunction
    · exact List.mem_append_left _ (mem_of_lookup isToken)
    · exact List.mem_append_right _ (mem_of_lookup isFunction)
  obtain ⟨isFlag, notDuration⟩ := entries _ member
  unfold coreValue
  rw [if_neg fun hasStr => notFlag (isFlag hasStr), if_neg notDuration,
    if_neg fun hasStr => notFlag (isFlag hasStr), if_neg notDuration]

theorem lexKeyword_agreed (tokenText tokenNext : GoString) (notFlag : ¬ ascii "--" <+: tokenText)
    (notLonger : ¬ ascii "--" <+: tokenNext) :
    Agreed (lexKeyword wording lval lexer tokenText tokenNext)
      (lexKeyword wording lval' (lexer.withBuilder builder) tokenText tokenNext) := by
  unfold lexKeyword
  cases isNext : tokens.lookup tokenNext with
  | some kind =>
      exact .of_value (coreValue_keyword lval lval' (Or.inl isNext) notLonger) ⟨builder, rfl⟩
  | none =>
      cases isText : tokens.lookup tokenText with
      | some kind =>
          exact .of_value (coreValue_keyword lval lval' (Or.inl isText) notFlag) ⟨builder, rfl⟩
      | none => exact .of_value (by rfl) ⟨_, rfl⟩

theorem lexFunction_agreed (tokenText tokenNext : GoString) (notFlag : ¬ ascii "--" <+: tokenText)
    (notLonger : ¬ ascii "--" <+: tokenNext) :
    Agreed (lexFunction wording lval lexer tokenText tokenNext)
      (lexFunction wording lval' (lexer.withBuilder builder) tokenText tokenNext) := by
  unfold lexFunction
  dsimp only [scanner_withBuilder, look_withBuilder]
  cases isText : funcTokens.lookup tokenText with
  | none => exact lexKeyword_agreed wording lval lval' lexer builder _ _ notFlag notLonger
  | some kind =>
      dsimp only
      by_cases isCall : (isFunc lexer.scanner).1 = true
      · rw [if_pos isCall, if_pos isCall]
        exact .of_value (coreValue_keyword lval lval' (Or.inr isText) notFlag) ⟨builder, rfl⟩
      · rw [if_neg isCall, if_neg isCall]
        exact lexKeyword_agreed wording lval lval' _ builder _ _ notFlag notLonger

theorem lexWord_agreed (tokenText : GoString) (notFlag : ¬ ascii "--" <+: tokenText)
    (notLonger : ¬ ascii "--" <+: tokenText ++ peekString lexer.scanner) :
    Agreed (lexWord wording lval lexer tokenText)
      (lexWord wording lval' (lexer.withBuilder builder) tokenText) := by
  unfold lexWord
  dsimp only [scanner_withBuilder, look_withBuilder]
  cases isNext : funcTokens.lookup (tokenText ++ peekString lexer.scanner) with
  | none => exact lexFunction_agreed wording lval lval' lexer builder _ _ notFlag notLonger
  | some kind =>
      dsimp only
      by_cases isCall : (isFunc lexer.scanner.next).1 = true
      · rw [if_pos isCall, if_pos isCall]
        exact .of_value (coreValue_keyword lval lval' (Or.inr isNext) notLonger) ⟨builder, rfl⟩
      · rw [if_neg isCall, if_neg isCall]
        exact lexFunction_agreed wording lval lval' _ builder _ _ notFlag notLonger

theorem tryScanDuration_ch {number : GoString} {after : Lexer}
    (scanned : tryScanDuration wording library number lexer = (none, after)) :
    after.scanner.ch = lexer.scanner.ch := by
  unfold tryScanDuration at scanned
  dsimp only at scanned
  split at scanned
  · cases scanned
    rfl
  · split at scanned
    · cases scanned
      rfl
    · cases scanned

theorem lexDash_agreed (tokenText : GoString) (notFlag : ¬ ascii "--" <+: tokenText)
    (notLonger : ¬ ascii "--" <+: tokenText ++ peekString lexer.scanner) :
    Agreed (lexDash wording library lval lexer tokenText)
      (lexDash wording library lval' (lexer.withBuilder builder) tokenText) := by
  unfold lexDash
  rw [tryScanDuration_withBuilder]
  cases scanned : tryScanDuration wording library tokenText lexer with
  | mk duration after =>
      cases duration with
      | some d => exact .of_value (by rfl) ⟨builder, rfl⟩
      | none =>
          have sameCh := tryScanDuration_ch wording library lexer scanned
          refine lexWord_agreed wording lval lval' after builder tokenText notFlag ?_
          unfold peekString at notLonger ⊢
          rw [sameCh]
          exact notLonger

end

/-! The text of a token begins with two dashes only if it is a flag. -/

section

variable {start stop : Scanner} {r : Nat}

theorem head_ne_dash {b : UInt8} {others : GoString} (isPiece : Scanner.IsPiece r (b :: others))
    (notDash : r ≠ 0x2D) : b ≠ byte '-' := by
  intro isDash
  by_cases isAscii : r < 0x80
  · have same := (List.cons.inj (isPiece.ascii isAscii)).1
    rw [isDash] at same
    have code : 0x2D = r % 256 := congrArg UInt8.toNat same
    omega
  · have high := isPiece.high (Nat.le_of_not_lt isAscii) b List.mem_cons_self
    rw [isDash] at high
    exact absurd high (by decide)

theorem not_dashes_of_piece {piece : GoString} (isPiece : Scanner.IsPiece r piece)
    (notDash : r ≠ 0x2D) (rest : GoString) : ¬ ascii "--" <+: piece ++ rest := by
  rintro ⟨front, isText⟩
  obtain ⟨b, others, rfl⟩ := List.exists_cons_of_ne_nil isPiece.nonempty
  exact head_ne_dash isPiece notDash (List.cons.inj isText).1.symm

theorem since_piece (isCh : start.ch = some r) (reads : Scanner.ReadsPast start.next stop) :
    ∃ piece rest, Scanner.IsPiece r piece ∧ start.since stop = piece ++ rest := by
  obtain ⟨piece, isPiece, isText⟩ := Scanner.next_piece isCh
  obtain ⟨rest, isRest⟩ := reads.text_suffix
  refine ⟨piece, rest, isPiece, Scanner.since_eq ?_⟩
  rw [isText, ← isRest, List.append_assoc]

theorem scanToken_dash (unicode : Unicode) (isCh : start.ch = some 0x2D) :
    start.scanToken unicode = (some (.rune 0x2D), start.next) := by
  unfold Scanner.scanToken
  rw [isCh]
  rfl

theorem text_not_dashes (unicode : Unicode) {scanned : Scanner.Scanned}
    (isToken : start.scanToken unicode = (some scanned, stop)) (notEnd : scanned ≠ .eof)
    (notDash : scanned ≠ .rune 0x2D) (rest : GoString) :
    ¬ ascii "--" <+: start.since stop ++ rest := by
  have tokenAt := Scanner.tokenAt_scanToken unicode start
  rw [isToken] at tokenAt
  cases tokenAt with
  | eof atEnd => exact absurd rfl notEnd
  | @rune r isCh =>
      obtain ⟨piece, more, isPiece, isText⟩ := since_piece isCh (Scanner.readsPast_refl _)
      rw [isText, List.append_assoc]
      exact not_dashes_of_piece isPiece (fun same => notDash (by rw [same])) _
  | @literal r _ _ isCh isLiteral reads =>
      obtain ⟨piece, more, isPiece, isText⟩ := since_piece isCh reads
      rw [isText, List.append_assoc]
      refine not_dashes_of_piece isPiece (fun same => ?_) _
      rw [scanToken_dash unicode (by rw [← same]; exact isCh)] at isToken
      cases isToken
      exact notDash rfl

theorem text_dash (unicode : Unicode)
    (isToken : start.scanToken unicode = (some (.rune 0x2D), stop)) :
    start.since stop = ascii "-" := by
  have tokenAt := Scanner.tokenAt_scanToken unicode start
  rw [isToken] at tokenAt
  cases tokenAt with
  | rune isCh =>
      obtain ⟨piece, isPiece, isText⟩ := Scanner.next_piece isCh
      rw [Scanner.since_eq isText, isPiece.ascii (by decide)]
      rfl
  | literal isCh isLiteral reads => cases isLiteral

theorem isPiece_encodeRune (r : Nat) : Scanner.IsPiece r (encodeRune r) := by
  refine ⟨encodeRune_ne_nil r, fun isAscii => ?_, encodeRune_not_ascii r, fun _ => rfl⟩
  rw [encodeRune, if_pos isAscii]

theorem not_dashes_peek {s : Scanner} (notDash : s.ch ≠ some 0x2D) :
    ¬ ascii "--" <+: ascii "-" ++ peekString s := by
  rintro ⟨front, isText⟩
  have tail : byte '-' :: front = encodeRune (s.ch.getD runeError) := (List.cons.inj isText).2
  have isPiece := isPiece_encodeRune (s.ch.getD runeError)
  rw [← tail] at isPiece
  refine head_ne_dash isPiece (fun same => ?_) rfl
  cases isCh : s.ch with
  | none =>
      rw [isCh] at same
      exact absurd same (by decide)
  | some r =>
      rw [isCh] at same
      exact notDash (by rw [isCh]; exact congrArg some same)

end

section

variable (wording : Wording) (library : Library)

theorem scanRounds_spec (rounds : Nat) {lexer after : Lexer} {scanned : Scanner.Scanned}
    {text : GoString} (scans : scanRounds wording library rounds lexer = (scanned, text, after))
    (notEnd : scanned ≠ .eof) :
    ∃ start : Scanner, start.scanToken library.unicode = (some scanned, after.scanner) ∧
      text = start.since after.scanner := by
  induction rounds generalizing lexer with
  | zero =>
      cases scans
      exact absurd rfl notEnd
  | succ rounds ih =>
      rw [scanRounds] at scans
      split at scans
      · rename_i isToken
        cases scans
        exact ⟨_, isToken, rfl⟩
      · exact ih scans

theorem scan_not_dashes {lexer after : Lexer} {scanned : Scanner.Scanned} {text : GoString}
    (scans : lexer.scan wording library = (scanned, text, after)) (notEnd : scanned ≠ .eof)
    (notDash : scanned ≠ .rune 0x2D) :
    ¬ ascii "--" <+: text ∧ ∀ rest, ¬ ascii "--" <+: text ++ rest := by
  obtain ⟨start, isToken, rfl⟩ := scanRounds_spec wording library _ scans notEnd
  have notFlag := text_not_dashes library.unicode isToken notEnd notDash
  refine ⟨?_, notFlag⟩
  have alone := notFlag []
  rwa [List.append_nil] at alone

theorem lexRounds_agreed (rounds : Nat) (lval lval' : LexValue) (lexer : Lexer)
    (builder : GoString) :
    Option.Rel Agreed (lexRounds wording library rounds lval lexer)
      (lexRounds wording library rounds lval' (lexer.withBuilder builder)) := by
  induction rounds generalizing lexer with
  | zero => exact .none
  | succ rounds ih =>
      rw [lexRounds, lexRounds, scan_withBuilder]
      cases scans : lexer.scan wording library with
      | mk scanned rest =>
          obtain ⟨tokenText, after⟩ := rest
          dsimp only
          have word : scanned ≠ .eof → scanned ≠ .rune 0x2D →
              Agreed (lexWord wording lval after tokenText)
                (lexWord wording lval' (after.withBuilder builder) tokenText) := by
            intro notEnd notDash
            obtain ⟨notFlag, notLonger⟩ := scan_not_dashes wording library scans notEnd notDash
            exact lexWord_agreed wording lval lval' after builder tokenText notFlag (notLonger _)
          cases scanned with
          | eof => exact .some ⟨rfl, nofun, builder, rfl⟩
          | ident => exact .some (word nofun nofun)
          | int => exact .some (lexNumber_agreed wording library lval lval' after builder _)
          | float => exact .some (lexNumber_agreed wording library lval lval' after builder _)
          | char => exact .some (word nofun nofun)
          | string => exact .some (lexString_agreed lval lval' after builder _)
          | rawString => exact .some (lexString_agreed lval lval' after builder _)
          | rune r =>
              dsimp only
              by_cases isHash : r = 0x23
              · rw [if_pos isHash, if_pos isHash, skipComment_withBuilder]
                exact ih _
              rw [if_neg isHash, if_neg isHash]
              by_cases isDash : r = 0x2D
              · subst isDash
                rw [if_pos rfl, if_pos rfl]
                by_cases isFlag : after.scanner.ch = some 0x2D
                · rw [if_pos isFlag, if_pos (by exact isFlag)]
                  exact lexFlag_agreed wording lval lval' after builder
                · rw [if_neg isFlag, if_neg (by exact isFlag)]
                  obtain ⟨start, isToken, rfl⟩ := scanRounds_spec wording library _ scans nofun
                  rw [text_dash library.unicode isToken]
                  exact .some (lexDash_agreed wording library lval lval' after builder _ (by decide)
                    (not_dashes_peek isFlag))
              rw [if_neg isDash, if_neg isDash]
              by_cases isBracket : r = 0x5B
              · rw [if_pos isBracket, if_pos isBracket]
                exact .some (lexRange_agreed wording lval lval' after builder)
              · rw [if_neg isBracket, if_neg isBracket]
                refine .some (word nofun fun same => isDash ?_)
                cases same
                rfl

/-- What the parser has kept makes no difference to `Lex`. -/
theorem lex_agreed (lval lval' : LexValue) (lexer : Lexer) (builder : GoString) :
    Option.Rel Agreed (lexer.lex wording library lval)
      ((lexer.withBuilder builder).lex wording library lval') :=
  lexRounds_agreed wording library _ lval lval' lexer builder

/-! ### Errors are kept -/

theorem errs_place (lexer : Lexer) : lexer.place.errs = lexer.errs := by
  unfold place
  dsimp only
  split <;> rfl

theorem errs_readTo (lexer : Lexer) (text : GoString) (stop : Scanner) :
    lexer.errs <+: (lexer.readTo wording text stop).errs :=
  List.prefix_append _ _

theorem errs_look (lexer : Lexer) (copy : Scanner) :
    lexer.errs <+: (lexer.look wording copy).errs :=
  List.prefix_append _ _

theorem errs_nextTo (lexer : Lexer) (stop : Scanner) :
    lexer.errs <+: (lexer.nextTo wording stop).errs :=
  List.prefix_append _ _

theorem errs_error (lexer : Lexer) (message : GoString) :
    lexer.errs <+: (lexer.error message).errs :=
  List.prefix_append _ _

theorem errs_scanRounds (rounds : Nat) (lexer : Lexer) :
    lexer.errs <+: (scanRounds wording library rounds lexer).2.2.errs := by
  induction rounds generalizing lexer with
  | zero => exact List.prefix_rfl
  | succ rounds ih =>
      have placed := errs_readTo wording lexer [] (lexer.scanner.skipWhile isWhitespace)
      rw [← errs_place (lexer.readTo _ _ _)] at placed
      rw [scanRounds]
      split
      · exact placed.trans (errs_readTo wording _ _ _)
      · exact (placed.trans (errs_readTo wording _ _ _)).trans (ih _)

theorem errs_tryScanDuration (number : GoString) (lexer : Lexer) :
    lexer.errs <+: (tryScanDuration wording library number lexer).2.errs := by
  have looked := errs_look wording lexer (lexer.scanner.skipWhile (isDurationPart library))
  unfold tryScanDuration
  dsimp only
  split
  · exact looked
  · split
    · exact looked
    · exact looked.trans (errs_nextTo wording _ _)

theorem errs_lexKeyword (lval : LexValue) (lexer : Lexer) (tokenText tokenNext : GoString) :
    lexer.errs <+: (lexKeyword wording lval lexer tokenText tokenNext).2.2.errs := by
  unfold lexKeyword
  split
  · exact errs_nextTo wording lexer _
  · split
    · exact List.prefix_rfl
    · exact List.prefix_rfl

theorem errs_lexFunction (lval : LexValue) (lexer : Lexer) (tokenText tokenNext : GoString) :
    lexer.errs <+: (lexFunction wording lval lexer tokenText tokenNext).2.2.errs := by
  have looked := errs_look wording lexer (isFunc lexer.scanner).2
  unfold lexFunction
  dsimp only
  split
  · exact errs_lexKeyword wording lval lexer _ _
  · split
    · exact looked
    · exact looked.trans (errs_lexKeyword wording lval _ _ _)

theorem errs_lexWord (lval : LexValue) (lexer : Lexer) (tokenText : GoString) :
    lexer.errs <+: (lexWord wording lval lexer tokenText).2.2.errs := by
  have looked := errs_look wording lexer (isFunc lexer.scanner.next).2
  unfold lexWord
  dsimp only
  split
  · exact errs_lexFunction wording lval lexer _ _
  · split
    · exact looked.trans (errs_nextTo wording _ _)
    · exact looked.trans (errs_lexFunction wording lval _ _ _)

theorem errs_lexRange (lval : LexValue) (lexer : Lexer) :
    lexer.errs <+: (lexRange wording lval lexer).2.2.errs := by
  unfold lexRange
  dsimp only
  split
  · exact (errs_nextTo wording (lexer.reset.write _) _).trans (errs_error _ _)
  · exact errs_nextTo wording (lexer.reset.write _) _

theorem errs_lexString (lval : LexValue) (lexer : Lexer) (tokenText : GoString) :
    lexer.errs <+: (lexString lval lexer tokenText).2.2.errs := by
  unfold lexString
  split
  · exact errs_error lexer _
  · split
    · exact errs_error lexer _
    · exact List.prefix_rfl

theorem errs_lexFlag {lval : LexValue} {lexer : Lexer} {result : Lexed}
    (lexed : lexFlag wording lval lexer = some result) : lexer.errs <+: result.2.2.errs := by
  have moved := errs_nextTo wording ((lexer.reset.write (ascii "-")).write
    (lexer.scanner.since (lexer.scanner.skipWhile fun r => !isSpaceRune r)))
    (lexer.scanner.skipWhile fun r => !isSpaceRune r).next
  unfold lexFlag at lexed
  dsimp only at lexed
  split at lexed
  · cases lexed
  · split at lexed
    · cases lexed
      exact moved
    · split at lexed
      · cases lexed
        exact moved
      · cases lexed
        exact moved

theorem errs_lexNumber (lval : LexValue) (lexer : Lexer) (tokenText : GoString) :
    lexer.errs <+: (lexNumber wording library lval lexer tokenText).2.2.errs := by
  have scanned := errs_tryScanDuration wording library tokenText lexer
  unfold lexNumber
  split
  · rename_i found
    rw [found] at scanned
    exact scanned
  · rename_i found
    rw [found] at scanned
    exact scanned

theorem errs_lexDash (lval : LexValue) (lexer : Lexer) (tokenText : GoString) :
    lexer.errs <+: (lexDash wording library lval lexer tokenText).2.2.errs := by
  have scanned := errs_tryScanDuration wording library tokenText lexer
  unfold lexDash
  split
  · rename_i found
    rw [found] at scanned
    exact scanned
  · rename_i found
    rw [found] at scanned
    exact scanned.trans (errs_lexWord wording lval _ _)

theorem errs_skipComment (lexer : Lexer) : lexer.errs <+: (lexer.skipComment wording).errs := by
  unfold skipComment
  split
  · exact List.prefix_rfl
  · exact errs_nextTo wording lexer _

theorem errs_lexRounds (rounds : Nat) {lval : LexValue} {lexer : Lexer} {result : Lexed}
    (lexed : lexRounds wording library rounds lval lexer = some result) :
    lexer.errs <+: result.2.2.errs := by
  induction rounds generalizing lexer with
  | zero => cases lexed
  | succ rounds ih =>
      have scanned := errs_scanRounds wording library (lexer.scanner.text.length + 1)
        lexer.invalidate
      have scanned : lexer.errs <+: (lexer.scan wording library).2.2.errs := scanned
      rw [lexRounds] at lexed
      generalize lexer.scan wording library = found at lexed scanned
      obtain ⟨kind, tokenText, after⟩ := found
      cases kind with
      | eof =>
          cases lexed
          exact scanned
      | ident =>
          cases lexed
          exact scanned.trans (errs_lexWord wording lval after tokenText)
      | int =>
          cases lexed
          exact scanned.trans (errs_lexNumber wording library lval after tokenText)
      | float =>
          cases lexed
          exact scanned.trans (errs_lexNumber wording library lval after tokenText)
      | char =>
          cases lexed
          exact scanned.trans (errs_lexWord wording lval after tokenText)
      | string =>
          cases lexed
          exact scanned.trans (errs_lexString lval after tokenText)
      | rawString =>
          cases lexed
          exact scanned.trans (errs_lexString lval after tokenText)
      | rune r =>
          dsimp only at lexed
          split at lexed
          · exact (scanned.trans (errs_skipComment wording after)).trans (ih lexed)
          · split at lexed
            · split at lexed
              · exact scanned.trans (errs_lexFlag wording lexed)
              · cases lexed
                exact scanned.trans (errs_lexDash wording library lval after tokenText)
            · split at lexed
              · cases lexed
                exact scanned.trans (errs_lexRange wording lval after)
              · cases lexed
                exact scanned.trans (errs_lexWord wording lval after tokenText)

theorem errs_lex {lval : LexValue} {lexer : Lexer} {result : Lexed}
    (lexed : lexer.lex wording library lval = some result) : lexer.errs <+: result.2.2.errs :=
  errs_lexRounds wording library _ lexed

/-! ### The first token -/

theorem scanner_invalidate (lexer : Lexer) : lexer.invalidate.scanner = lexer.scanner :=
  rfl

theorem place_column (lexer : Lexer) (column : Nat) :
    { lexer with column := column }.place = lexer.place := by
  unfold place
  rfl

/-- If the scanner has nothing to say of the beginning, the column that it has kept is
not used. -/
theorem lex_column (lval : LexValue) (lexer : Lexer) (column : Nat)
    (quiet : (lexer.scanner.skipWhile isWhitespace).errors = lexer.scanner.errors) :
    { lexer with column := column }.lex wording library lval = lexer.lex wording library lval := by
  have placed : ({ lexer with column := column }.invalidate.readTo wording []
        (lexer.scanner.skipWhile isWhitespace)).place =
      (lexer.invalidate.readTo wording [] (lexer.scanner.skipWhile isWhitespace)).place := by
    rw [← place_column (lexer.invalidate.readTo _ _ _) column]
    unfold readTo hear invalidate
    dsimp only
    rw [quiet, List.drop_length]
    rfl
  have same : { lexer with column := column }.scan wording library =
      lexer.scan wording library := by
    unfold scan
    rw [scanRounds, scanRounds]
    dsimp only [scanner_invalidate]
    rw [placed]
  unfold lex
  rw [lexRounds, lexRounds, same]

theorem lookup_invalid {b : UInt8} (invalid : b = 0 ∨ 0x80 ≤ b.toNat) (rest : GoString) :
    tokens.lookup (b :: rest) = none ∧ funcTokens.lookup (b :: rest) = none := by
  have entries : ∀ entry ∈ tokens ++ funcTokens, ∀ b ∈ entry.1.head?,
      ¬ (b = 0 ∨ 0x80 ≤ b.toNat) := by
    decide +kernel
  constructor
  · cases found : tokens.lookup (b :: rest) with
    | none => rfl
    | some kind =>
        exact absurd invalid (entries _ (List.mem_append_left _ (mem_of_lookup found)) b rfl)
  · cases found : funcTokens.lookup (b :: rest) with
    | none => rfl
    | some kind =>
        exact absurd invalid (entries _ (List.mem_append_right _ (mem_of_lookup found)) b rfl)

theorem lexWord_invalid {b : UInt8} (invalid : b = 0 ∨ 0x80 ≤ b.toNat) (rest : GoString)
    (lval : LexValue) (lexer : Lexer) :
    lexWord wording lval lexer (b :: rest) =
      (some .identifier, { lval with str := b :: rest }, lexer) := by
  obtain ⟨notToken, notFunction⟩ := lookup_invalid invalid rest
  obtain ⟨notLonger, notLongerFunction⟩ := lookup_invalid invalid (rest ++ peekString lexer.scanner)
  unfold lexWord lexFunction lexKeyword
  dsimp only
  rw [List.cons_append, notLongerFunction, notFunction, notLonger, notToken]

theorem scanToken_invalid (unicode : Unicode) {start : Scanner} {r : Nat}
    (isCh : start.ch = some r) (invalid : r = 0 ∨ r = runeError) :
    ∃ scanned stop, start.scanToken unicode = (some scanned, stop) ∧
      (scanned = .ident ∨ scanned = .rune r) ∧ Scanner.ReadsPast start.next stop := by
  rcases invalid with rfl | rfl
  · refine ⟨.rune 0, start.next, ?_, Or.inr rfl, Scanner.readsPast_refl _⟩
    unfold Scanner.scanToken
    rw [isCh]
    rfl
  · unfold Scanner.scanToken
    rw [isCh]
    dsimp only
    by_cases isIdent : unicode.identStart runeError = true
    · rw [if_pos isIdent]
      exact ⟨_, _, rfl, Or.inl rfl, (Scanner.reads_skipWhile_any _ _).past⟩
    · rw [if_neg isIdent]
      exact ⟨_, _, rfl, Or.inr rfl, Scanner.readsPast_refl _⟩

theorem complaints_cases {b : UInt8} {rest : GoString}
    (invalid : Scanner.complaints (b :: rest) ≠ []) :
    ((decodeRune (b :: rest)).1 = 0 ∨ (decodeRune (b :: rest)).1 = runeError) ∧
      (b = 0 ∨ 0x80 ≤ b.toNat) := by
  by_cases nul : b = 0
  · exact ⟨Or.inl ((Scanner.decodeRune_eq_zero_iff b rest).mpr nul), Or.inl nul⟩
  · rw [Scanner.complaints, if_neg nul] at invalid
    split at invalid
    · rename_i decoded
      rw [decoded]
      refine ⟨Or.inr rfl, Or.inr (Nat.le_of_not_lt fun isAscii => ?_)⟩
      have none := Scanner.complaints_ascii isAscii nul rest
      rw [Scanner.complaints, if_pos decoded] at none
      cases none
    · exact absurd rfl invalid

theorem since_cons {start stop : Scanner} {b : UInt8} {rest : GoString} {r : Nat}
    (isText : start.text = b :: rest) (isCh : start.ch = some r)
    (reads : Scanner.ReadsPast start.next stop) : ∃ more, start.since stop = b :: more := by
  obtain ⟨piece, more, isPiece, isSince⟩ := since_piece isCh reads
  obtain ⟨lead, others, rfl⟩ := List.exists_cons_of_ne_nil isPiece.nonempty
  have whole := Scanner.text_eq_since (reads.text_suffix.trans (Scanner.text_next_suffix start))
  rw [isText, isSince] at whole
  refine ⟨others ++ more, ?_⟩
  rw [isSince, (List.cons.inj whole).1]
  rfl

/-- An input that begins with a character that is not valid begins with an identifier. -/
theorem lex_invalid (lval : LexValue) (lexer : Lexer) {text : GoString}
    (begins : Scanner.Begins (lexer.scanner.skipWhile isWhitespace) text)
    (invalid : Scanner.complaints text ≠ []) :
    ∃ value after, lexer.lex wording library lval = some (some .identifier, value, after) ∧
      (lexer.invalidate.readTo wording [] (lexer.scanner.skipWhile isWhitespace)).errs <+:
        after.errs := by
  cases text with
  | nil => exact absurd rfl invalid
  | cons b rest =>
      have isCh := begins.whole.ch_eq
      rw [begins.text, runes_cons, List.head?_cons] at isCh
      obtain ⟨isRune, isByte⟩ := complaints_cases invalid
      obtain ⟨scanned, stop, isToken, isScanned, reads⟩ :=
        scanToken_invalid library.unicode isCh isRune
      obtain ⟨others, isSince⟩ := since_cons begins.text isCh reads
      let placed :=
        (lexer.invalidate.readTo wording [] (lexer.scanner.skipWhile isWhitespace)).place
      have scans : lexer.scan wording library =
          (scanned, b :: others, placed.readTo wording (b :: others) stop) := by
        unfold scan
        rw [scanRounds]
        dsimp only [scanner_invalidate]
        rw [isToken]
        dsimp only
        rw [isSince]
      have word := lexWord_invalid wording isByte others lval
      refine ⟨{ lval with str := b :: others }, placed.readTo wording (b :: others) stop, ?_, ?_⟩
      · unfold lex
        rw [lexRounds, scans]
        dsimp only
        rcases isScanned with rfl | rfl
        · exact congrArg some (word _)
        · dsimp only
          rw [if_neg, if_neg, if_neg]
          · exact congrArg some (word _)
          all_goals
            intro same
            rw [same] at isRune
            exact absurd isRune (by decide)
      · rw [← errs_place]
        exact List.prefix_append _ _

end

example : Cursor.start.over (ascii "a\nb") = ⟨2, 1, 2⟩ := by
  decide +kernel

end Lexer

end McoaGateway.Logql
