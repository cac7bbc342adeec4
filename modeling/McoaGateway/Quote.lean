/-
Quoting and unquoting of string literals (`strconv.Quote` and Prometheus'
`strutil.Unquote`), and the text of a label matcher.

A quoted text is a sequence of pieces, each of which stands for some bytes of
the original text: a printable rune as it is, or an escape.  `unquote_quote`
says that unquoting gives the original bytes back, whatever they are.
-/

import McoaGateway.Utf8
import McoaGateway.Labels
import Mathlib.Tactic.Ring

namespace McoaGateway

open GoString

/-- The Unicode tables, which are consulted outside ASCII only. -/
structure Unicode where
  isPrint : Nat → Bool
  isLetter : Nat → Bool
  isDigit : Nat → Bool
  isNumber : Nat → Bool

def Unicode.asciiOnly : Unicode :=
  ⟨fun _ => false, fun _ => false, fun _ => false, fun _ => false⟩

/-- `unicode.IsPrint`, or `strconv.IsPrint`. -/
def Unicode.printable (unicode : Unicode) (r : Nat) : Bool :=
  if r < 0x80 then 0x20 ≤ r && r ≤ 0x7E else unicode.isPrint r

/-! ### `strconv.Quote` -/

def lowerHexDigit (n : Nat) : UInt8 :=
  if n < 10 then UInt8.ofNat (0x30 + n) else UInt8.ofNat (0x57 + n)

/-- The last hexadecimal digits of a number, most significant first. -/
def hexDigits : Nat → Nat → GoString
  | 0, _ => []
  | width + 1, n => lowerHexDigit (n / 16 ^ width % 16) :: hexDigits width n

inductive QuotePiece where
  | raw (r : Nat)
  | simple (letter value : UInt8)
  | hexByte (b : UInt8)
  | shortRune (r : Nat)
  | longRune (r : Nat)
deriving DecidableEq, Repr

def QuotePiece.text : QuotePiece → GoString
  | .raw r => encodeRune r
  | .simple letter _ => [byte '\\', letter]
  | .hexByte b => byte '\\' :: byte 'x' :: hexDigits 2 b.toNat
  | .shortRune r => byte '\\' :: byte 'u' :: hexDigits 4 r
  | .longRune r => byte '\\' :: byte 'U' :: hexDigits 8 r

def QuotePiece.source : QuotePiece → GoString
  | .raw r => encodeRune r
  | .simple _ value => [value]
  | .hexByte b => [b]
  | .shortRune r => encodeRune r
  | .longRune r => encodeRune r

/-- The escapes of one letter, with the bytes they stand for. -/
def simpleEscapes : List (UInt8 × UInt8) :=
  [(byte 'a', 7), (byte 'b', 8), (byte 't', 9), (byte 'n', 10), (byte 'v', 11),
    (byte 'f', 12), (byte 'r', 13), (byte '\\', byte '\\'), (byte '"', byte '"')]

/-- The letter of the escape for a control character, if it has one. -/
def controlLetter : Nat → Option UInt8
  | 7 => some (byte 'a')
  | 8 => some (byte 'b')
  | 9 => some (byte 't')
  | 10 => some (byte 'n')
  | 11 => some (byte 'v')
  | 12 => some (byte 'f')
  | 13 => some (byte 'r')
  | _ => none

/-- `appendEscapedRune` for the quote `"`. -/
def appendEscapedRune (unicode : Unicode) (r : Nat) : QuotePiece :=
  if r = 0x22 || r = 0x5C then .simple (UInt8.ofNat r) (UInt8.ofNat r)
  else if unicode.printable r then .raw r
  else
    match controlLetter r with
    | some letter => .simple letter (UInt8.ofNat r)
    | none =>
        if r < 0x20 || r = 0x7F then .hexByte (UInt8.ofNat r)
        else if r < 0x10000 then .shortRune r
        else .longRune r

/-- The loop of `appendQuotedWith`; each round takes at least one byte. -/
def quotePieces (unicode : Unicode) : Nat → GoString → List QuotePiece
  | 0, _ => []
  | _ + 1, [] => []
  | rounds + 1, b :: rest =>
      let (r, width) := decodeRune (b :: rest)
      if width = 1 && r = runeError then
        .hexByte b :: quotePieces unicode rounds rest
      else
        appendEscapedRune unicode r :: quotePieces unicode rounds ((b :: rest).drop width)

def quoteBody (unicode : Unicode) (text : GoString) : GoString :=
  (quotePieces unicode text.length text).flatMap QuotePiece.text

def quote (unicode : Unicode) (text : GoString) : GoString :=
  byte '"' :: (quoteBody unicode text ++ [byte '"'])

/-! ### `strutil.Unquote` -/

def unhex (b : UInt8) : Option Nat :=
  if byte '0' ≤ b && b ≤ byte '9' then some (b.toNat - 0x30)
  else if byte 'a' ≤ b && b ≤ byte 'f' then some (b.toNat - 0x57)
  else if byte 'A' ≤ b && b ≤ byte 'F' then some (b.toNat - 0x37)
  else none

def readHex : Nat → Nat → GoString → Option (Nat × GoString)
  | 0, value, text => some (value, text)
  | _ + 1, _, [] => none
  | width + 1, value, b :: rest =>
      match unhex b with
      | none => none
      | some x => readHex width (value * 16 + x) rest

def readOctal : Nat → Nat → GoString → Option (Nat × GoString)
  | 0, value, text => some (value, text)
  | _ + 1, _, [] => none
  | width + 1, value, b :: rest =>
      if byte '0' ≤ b && b ≤ byte '7' then
        readOctal width (value * 8 + (b.toNat - 0x30)) rest
      else none

/-- A rune is a 32-bit integer, and eight digits can make it negative; the check
against the largest rune lets negative values pass. -/
def runeInRange (value : Nat) : Bool :=
  value ≤ 0x10FFFF || 0x80000000 ≤ value

/-- `UnquoteChar`: the value, whether it is a rune, and the tail. -/
def unquoteChar (quote : UInt8) : GoString → Option (Nat × Bool × GoString)
  | [] => none
  | c :: rest =>
      if c = quote then none
      else if 0x80 ≤ c then
        let (r, size) := decodeRune (c :: rest)
        some (r, true, (c :: rest).drop size)
      else if c ≠ byte '\\' then some (c.toNat, false, rest)
      else
        match rest with
        | [] => none
        | e :: tail =>
            if e = byte 'x' then
              (readHex 2 0 tail).map fun (value, tail) => (value, false, tail)
            else if e = byte 'u' then
              (readHex 4 0 tail).map fun (value, tail) => (value, true, tail)
            else if e = byte 'U' then
              match readHex 8 0 tail with
              | none => none
              | some (value, tail) =>
                  if runeInRange value then some (value, true, tail) else none
            else if byte '0' ≤ e && e ≤ byte '7' then
              match readOctal 2 (e.toNat - 0x30) tail with
              | none => none
              | some (value, tail) =>
                  if value > 255 then none else some (value, false, tail)
            else if e = byte '\'' then
              if quote = byte '\'' then some (0x27, false, tail) else none
            else if e = byte '"' then
              if quote = byte '"' then some (0x22, false, tail) else none
            else
              (List.lookup e simpleEscapes).map fun value => (value.toNat, false, tail)

def unquotedBytes (value : Nat) (multibyte : Bool) : GoString :=
  if value < 0x80 || !multibyte || 0x80000000 ≤ value then [UInt8.ofNat value]
  else encodeRune value

def unquoteLoop (quote : UInt8) : Nat → GoString → Option GoString
  | _, [] => some []
  | 0, _ :: _ => none
  | rounds + 1, text =>
      match unquoteChar quote text with
      | none => none
      | some (value, multibyte, tail) =>
          (unquoteLoop quote rounds tail).map (unquotedBytes value multibyte ++ ·)

def unquote (literal : GoString) : Option GoString :=
  match literal with
  | [] => none
  | [_] => none
  | quote :: rest =>
      if rest.getLast? ≠ some quote then none
      else
        let body := rest.dropLast
        if quote = 0x60 then
          if body.contains 0x60 then none else some body
        else if quote ≠ byte '"' && quote ≠ byte '\'' then none
        else if body.contains 10 then none
        else if !body.contains (byte '\\') && !body.contains quote then some body
        else unquoteLoop quote body.length body

/-! ### Unquoting a quoted text -/

/-- What `strconv.Quote` can emit. -/
def QuotePiece.Valid : QuotePiece → Prop
  | .raw r => ValidRune r ∧ r ≠ 0x22 ∧ r ≠ 0x5C ∧ 0x20 ≤ r ∧ r ≠ 0x7F
  | .simple letter value => List.lookup letter simpleEscapes = some value
  | .hexByte _ => True
  | .shortRune r => ValidRune r ∧ r < 0x10000
  | .longRune r => ValidRune r

private theorem printable_bounds (unicode : Unicode) (r : Nat)
    (printable : unicode.printable r = true) : 0x20 ≤ r ∧ r ≠ 0x7F := by
  unfold Unicode.printable at printable
  split at printable
  · simp only [Bool.and_eq_true, decide_eq_true_eq] at printable
    omega
  · omega

private theorem encodeRune_ascii (r : Nat) (isAscii : r < 0x80) :
    encodeRune r = [UInt8.ofNat r] := by
  simp [encodeRune, isAscii]

private theorem controlLetter_escape (r : Nat) (letter : UInt8)
    (control : controlLetter r = some letter) :
    r < 0x20 ∧ List.lookup letter simpleEscapes = some (UInt8.ofNat r) := by
  unfold controlLetter at control
  split at control <;> cases control <;> exact ⟨by decide, by decide⟩

private theorem appendEscapedRune_spec (unicode : Unicode) (r : Nat)
    (valid : ValidRune r) :
    (appendEscapedRune unicode r).Valid ∧
      (appendEscapedRune unicode r).source = encodeRune r := by
  unfold appendEscapedRune
  by_cases escaped : (r = 0x22 || r = 0x5C) = true
  · rw [if_pos escaped]
    simp only [Bool.or_eq_true, decide_eq_true_eq] at escaped
    rcases escaped with rfl | rfl
    · exact ⟨rfl, rfl⟩
    · exact ⟨rfl, rfl⟩
  rw [if_neg escaped]
  simp only [Bool.or_eq_true, decide_eq_true_eq, not_or] at escaped
  by_cases printable : unicode.printable r = true
  · rw [if_pos printable]
    have bounds := printable_bounds unicode r printable
    exact ⟨⟨valid, escaped.1, escaped.2, bounds.1, bounds.2⟩, rfl⟩
  rw [if_neg printable]
  cases control : controlLetter r with
  | some letter =>
      obtain ⟨small, known⟩ := controlLetter_escape r letter control
      refine ⟨known, ?_⟩
      rw [encodeRune_ascii r (by omega)]
      rfl
  | none =>
      dsimp only
      by_cases hexadecimal : (r < 0x20 || r = 0x7F) = true
      · rw [if_pos hexadecimal]
        simp only [Bool.or_eq_true, decide_eq_true_eq] at hexadecimal
        refine ⟨trivial, ?_⟩
        rw [encodeRune_ascii r (by omega)]
        rfl
      · rw [if_neg hexadecimal]
        by_cases short : r < 0x10000
        · rw [if_pos short]
          exact ⟨⟨valid, short⟩, rfl⟩
        · rw [if_neg short]
          exact ⟨valid, rfl⟩

/-- One round of the quoting loop: the bytes of the first piece, and what is
left for the other rounds. -/
private theorem quotePieces_cons (unicode : Unicode) (rounds : Nat) (b : UInt8)
    (rest : GoString) :
    ∃ piece tail, b :: rest = piece.source ++ tail ∧ piece.source ≠ [] ∧ piece.Valid ∧
      quotePieces unicode (rounds + 1) (b :: rest) =
        piece :: quotePieces unicode rounds tail := by
  rcases decodeRune_cases b rest with
    ⟨isAscii, decoded⟩ | ⟨r, tail, notAscii, valid, shape, decoded⟩ | ⟨-, decoded⟩
  · have notError : b.toNat ≠ runeError := by
      unfold runeError
      omega
    have rune : ValidRune b.toNat := by
      unfold ValidRune
      omega
    obtain ⟨valid, source⟩ := appendEscapedRune_spec unicode b.toNat rune
    refine ⟨appendEscapedRune unicode b.toNat, rest, ?_, ?_, valid, ?_⟩
    · rw [source, encodeRune_ascii _ isAscii, UInt8.ofNat_toNat]
      rfl
    · rw [source]
      exact encodeRune_ne_nil _
    · simp only [quotePieces, decoded, notError, decide_false, Bool.and_false,
        Bool.false_eq_true, if_false, List.drop_one, List.tail_cons]
  · have several : (encodeRune r).length ≠ 1 := by
      unfold encodeRune
      rw [if_neg (by omega)]
      split_ifs <;> simp
    obtain ⟨pieceValid, source⟩ := appendEscapedRune_spec unicode r valid
    refine ⟨appendEscapedRune unicode r, tail, ?_, ?_, pieceValid, ?_⟩
    · rw [source, shape]
    · rw [source]
      exact encodeRune_ne_nil _
    · simp only [quotePieces, decoded, several, decide_false, Bool.false_and,
        Bool.false_eq_true, if_false]
      rw [shape, List.drop_left]
  · refine ⟨.hexByte b, rest, rfl, ?_, trivial, ?_⟩
    · simp [QuotePiece.source]
    · simp [quotePieces, decoded]

theorem quotePieces_source (unicode : Unicode) (rounds : Nat) (text : GoString)
    (enough : text.length ≤ rounds) :
    (quotePieces unicode rounds text).flatMap QuotePiece.source = text ∧
      ∀ piece ∈ quotePieces unicode rounds text, piece.Valid := by
  induction rounds generalizing text with
  | zero =>
      have empty : text = [] := List.length_eq_zero_iff.mp (by omega)
      subst empty
      simp [quotePieces]
  | succ rounds ih =>
      cases text with
      | nil => simp [quotePieces]
      | cons b rest =>
          obtain ⟨piece, tail, shape, nonempty, valid, unfolded⟩ :=
            quotePieces_cons unicode rounds b rest
          have shorter : tail.length ≤ rounds := by
            have lengths := congrArg List.length shape
            have positive := List.length_pos_iff.mpr nonempty
            simp only [List.length_append, List.length_cons] at lengths enough
            omega
          obtain ⟨sources, valids⟩ := ih tail shorter
          rw [unfolded]
          constructor
          · rw [List.flatMap_cons, sources, ← shape]
          · rw [List.forall_mem_cons]
            exact ⟨valid, valids⟩

private theorem unhex_lowerHexDigit (n : Nat) (small : n < 16) :
    unhex (lowerHexDigit n) = some n := by
  have inspected : ∀ digit : Fin 16, unhex (lowerHexDigit digit) = some digit.val := by
    decide
  exact inspected ⟨n, small⟩

theorem readHex_hexDigits (width value n : Nat) (rest : GoString) :
    readHex width value (hexDigits width n ++ rest) =
      some (value * 16 ^ width + n % 16 ^ width, rest) := by
  induction width generalizing value with
  | zero =>
      simp only [readHex, hexDigits, List.nil_append, pow_zero, Nat.mod_one, mul_one,
        add_zero]
  | succ width ih =>
      have digit := unhex_lowerHexDigit (n / 16 ^ width % 16) (Nat.mod_lt _ (by decide))
      have split_digit : n % 16 ^ (width + 1) =
          16 ^ width * (n / 16 ^ width % 16) + n % 16 ^ width := by
        rw [pow_succ, Nat.mod_mul]
        omega
      simp only [hexDigits, List.cons_append, readHex, digit, ih, split_digit]
      congr 2
      ring

private theorem unquoteChar_piece (piece : QuotePiece) (valid : piece.Valid)
    (rest : GoString) :
    ∃ value multibyte,
      unquoteChar (byte '"') (piece.text ++ rest) = some (value, multibyte, rest) ∧
        unquotedBytes value multibyte = piece.source := by
  cases piece with
  | raw r =>
      obtain ⟨rune, notQuote, notBackslash, -, -⟩ := valid
      by_cases isAscii : r < 0x80
      · refine ⟨r, false, ?_, ?_⟩
        · have value : (UInt8.ofNat r).toNat = r := by
            simp [Nat.mod_eq_of_lt (show r < 256 by omega)]
          have notQuoteByte : UInt8.ofNat r ≠ byte '"' := by
            intro same
            rw [same] at value
            exact notQuote value.symm
          have notBackslashByte : UInt8.ofNat r ≠ byte '\\' := by
            intro same
            rw [same] at value
            exact notBackslash value.symm
          have low : ¬ (0x80 : UInt8) ≤ UInt8.ofNat r := by
            rw [UInt8.le_iff_toNat_le, value]
            change ¬ 128 ≤ r
            omega
          rw [QuotePiece.text, encodeRune_ascii r isAscii, List.singleton_append,
            unquoteChar.eq_def]
          simp only [if_neg notQuoteByte, if_neg low, if_pos notBackslashByte, value]
        · simp [unquotedBytes, QuotePiece.source, encodeRune_ascii r isAscii]
      · refine ⟨r, true, ?_, ?_⟩
        · have decoded := decodeRune_encodeRune_append r rune rest
          cases encoded : encodeRune r with
          | nil => exact absurd encoded (encodeRune_ne_nil r)
          | cons first tail =>
              have high := encodeRune_not_ascii r (by omega) first (by simp [encoded])
              have notQuoteByte : first ≠ byte '"' := by
                intro same
                rw [same] at high
                exact absurd high (by decide)
              have highByte : (0x80 : UInt8) ≤ first := by
                rw [UInt8.le_iff_toNat_le]
                exact high
              rw [encoded, List.cons_append] at decoded
              rw [QuotePiece.text, encoded, List.cons_append, unquoteChar.eq_def]
              simp only [if_neg notQuoteByte, if_pos highByte, decoded]
              rw [← List.cons_append, List.drop_left]
        · have small : ¬ 0x80000000 ≤ r := by
            unfold ValidRune at rune
            omega
          simp [unquotedBytes, QuotePiece.source, isAscii, small]
  | simple letter value =>
      change List.lookup letter simpleEscapes = some value at valid
      have listed : (letter, value) ∈ simpleEscapes := by
        obtain ⟨before, after, shape, -⟩ := List.lookup_eq_some_iff.mp valid
        rw [shape]
        simp
      have inspected : ∀ escape ∈ simpleEscapes, ∀ rest,
          unquoteChar (byte '"') (byte '\\' :: escape.1 :: rest) =
            some (escape.2.toNat, false, rest) := by
        intro escape member rest
        simp only [simpleEscapes, List.mem_cons, List.not_mem_nil, or_false] at member
        rcases member with rfl | rfl | rfl | rfl | rfl | rfl | rfl | rfl | rfl <;> rfl
      refine ⟨value.toNat, false, inspected (letter, value) listed rest, ?_⟩
      simp [unquotedBytes, QuotePiece.source]
  | hexByte b =>
      refine ⟨b.toNat, false, ?_, ?_⟩
      · have digits := readHex_hexDigits 2 0 b.toNat rest
        have small : b.toNat % 16 ^ 2 = b.toNat := Nat.mod_eq_of_lt b.toNat_lt
        rw [small, Nat.zero_mul, Nat.zero_add] at digits
        change (readHex 2 0 (hexDigits 2 b.toNat ++ rest)).map _ = _
        rw [digits]
        rfl
      · simp [unquotedBytes, QuotePiece.source]
  | shortRune r =>
      obtain ⟨rune, short⟩ := valid
      refine ⟨r, true, ?_, ?_⟩
      · have digits := readHex_hexDigits 4 0 r rest
        have small : r % 16 ^ 4 = r := Nat.mod_eq_of_lt (by omega)
        rw [small, Nat.zero_mul, Nat.zero_add] at digits
        change (readHex 4 0 (hexDigits 4 r ++ rest)).map _ = _
        rw [digits]
        rfl
      · by_cases isAscii : r < 0x80
        · simp [unquotedBytes, QuotePiece.source, isAscii, encodeRune_ascii r isAscii]
        · have small : ¬ 0x80000000 ≤ r := by omega
          simp [unquotedBytes, QuotePiece.source, isAscii, small]
  | longRune r =>
      have bound : r ≤ 0x10FFFF := by
        change ValidRune r at valid
        unfold ValidRune at valid
        omega
      refine ⟨r, true, ?_, ?_⟩
      · have digits := readHex_hexDigits 8 0 r rest
        have small : r % 16 ^ 8 = r := Nat.mod_eq_of_lt (by omega)
        rw [small, Nat.zero_mul, Nat.zero_add] at digits
        have inRange : runeInRange r = true := by simp [runeInRange, bound]
        change (match readHex 8 0 (hexDigits 8 r ++ rest) with
          | none => none
          | some (value, tail) =>
              if runeInRange value then some (value, true, tail) else none) = _
        rw [digits]
        simp only [inRange, if_true]
      · by_cases isAscii : r < 0x80
        · simp [unquotedBytes, QuotePiece.source, isAscii, encodeRune_ascii r isAscii]
        · have small : ¬ 0x80000000 ≤ r := by omega
          simp [unquotedBytes, QuotePiece.source, isAscii, small]

private theorem unquoteLoop_pieces (pieces : List QuotePiece)
    (valid : ∀ piece ∈ pieces, piece.Valid) (rounds : Nat)
    (enough : (pieces.flatMap QuotePiece.text).length ≤ rounds) :
    unquoteLoop (byte '"') rounds (pieces.flatMap QuotePiece.text) =
      some (pieces.flatMap QuotePiece.source) := by
  induction pieces generalizing rounds with
  | nil => cases rounds <;> rfl
  | cons piece rest ih =>
      rw [List.forall_mem_cons] at valid
      rw [List.flatMap_cons] at enough ⊢
      obtain ⟨value, multibyte, unquoted, bytes⟩ :=
        unquoteChar_piece piece valid.1 (rest.flatMap QuotePiece.text)
      cases text : piece.text ++ rest.flatMap QuotePiece.text with
      | nil =>
          rw [text] at unquoted
          cases unquoted
      | cons first tail =>
          have nonempty : piece.text ≠ [] := by
            cases piece with
            | raw r => exact encodeRune_ne_nil r
            | simple letter value => exact List.cons_ne_nil _ _
            | hexByte b => exact List.cons_ne_nil _ _
            | shortRune r => exact List.cons_ne_nil _ _
            | longRune r => exact List.cons_ne_nil _ _
          have positive := List.length_pos_iff.mpr nonempty
          rw [List.length_append] at enough
          cases rounds with
          | zero => omega
          | succ rounds =>
              rw [text] at unquoted
              have later := ih valid.2 rounds (by omega)
              simp only [unquoteLoop, unquoted, later, Option.map_some, bytes,
                List.flatMap_cons]

private theorem text_eq_source_of_no_backslash (pieces : List QuotePiece)
    (plain : byte '\\' ∉ pieces.flatMap QuotePiece.text) :
    pieces.flatMap QuotePiece.text = pieces.flatMap QuotePiece.source := by
  induction pieces with
  | nil => rfl
  | cons piece rest ih =>
      rw [List.flatMap_cons, List.mem_append, not_or] at plain
      rw [List.flatMap_cons, List.flatMap_cons, ih plain.2]
      cases piece with
      | raw r => rfl
      | simple letter value => exact absurd List.mem_cons_self plain.1
      | hexByte b => exact absurd List.mem_cons_self plain.1
      | shortRune r => exact absurd List.mem_cons_self plain.1
      | longRune r => exact absurd List.mem_cons_self plain.1

private theorem lowerHexDigit_range (n : Nat) (small : n < 16) :
    lowerHexDigit n ≠ 10 := by
  have inspected : ∀ digit : Fin 16, lowerHexDigit digit ≠ 10 := by decide
  exact inspected ⟨n, small⟩

private theorem newline_not_mem_hexDigits (width n : Nat) : (10 : UInt8) ∉ hexDigits width n := by
  induction width with
  | zero => simp [hexDigits]
  | succ width ih =>
      rw [hexDigits, List.mem_cons, not_or]
      exact ⟨Ne.symm (lowerHexDigit_range _ (Nat.mod_lt _ (by decide))), ih⟩

private theorem newline_not_mem_text (piece : QuotePiece) (valid : piece.Valid) :
    (10 : UInt8) ∉ piece.text := by
  cases piece with
  | raw r =>
      obtain ⟨-, -, -, bound, -⟩ := valid
      intro member
      change (10 : UInt8) ∈ encodeRune r at member
      by_cases isAscii : r < 0x80
      · rw [encodeRune_ascii r isAscii, List.mem_singleton] at member
        have value := congrArg UInt8.toNat member
        have small : (UInt8.ofNat r).toNat = r := by
          simp [Nat.mod_eq_of_lt (show r < 256 by omega)]
        rw [small] at value
        change 10 = r at value
        omega
      · have high := encodeRune_not_ascii r (by omega) 10 member
        exact absurd high (by decide)
  | simple letter value =>
      change List.lookup letter simpleEscapes = some value at valid
      intro member
      simp only [QuotePiece.text, List.mem_cons, List.not_mem_nil, or_false] at member
      rcases member with same | same
      · exact absurd same (by decide)
      · have unlisted : List.lookup (10 : UInt8) simpleEscapes = none := by decide
        rw [← same, unlisted] at valid
        cases valid
  | hexByte b =>
      simp [QuotePiece.text, newline_not_mem_hexDigits]
      decide
  | shortRune r =>
      simp [QuotePiece.text, newline_not_mem_hexDigits]
      decide
  | longRune r =>
      simp [QuotePiece.text, newline_not_mem_hexDigits]
      decide

theorem unquote_quote (unicode : Unicode) (text : GoString) :
    unquote (quote unicode text) = some text := by
  obtain ⟨sources, valid⟩ :=
    quotePieces_source unicode text.length text (Nat.le_refl _)
  have noNewline : (10 : UInt8) ∉ quoteBody unicode text := by
    intro member
    obtain ⟨piece, inPieces, inText⟩ := List.mem_flatMap.mp member
    exact newline_not_mem_text piece (valid piece inPieces) inText
  have looped : unquoteLoop (byte '"') (quoteBody unicode text).length
      (quoteBody unicode text) = some text := by
    have result := unquoteLoop_pieces _ valid _ (Nat.le_refl _)
    rw [sources] at result
    exact result
  have ending : (quoteBody unicode text ++ [byte '"']).getLast? = some (byte '"') := by
    simp
  have body : (quoteBody unicode text ++ [byte '"']).dropLast = quoteBody unicode text := by
    simp
  have isQuote : ¬ byte '"' = 0x60 := by decide
  cases shape : quoteBody unicode text ++ [byte '"'] with
  | nil => simp at shape
  | cons first rest =>
      rw [shape] at ending body
      unfold quote
      rw [shape]
      simp only [unquote, ending, ne_eq, not_true_eq_false, if_false, body, if_neg isQuote,
        decide_false, Bool.false_and, Bool.false_eq_true]
      rw [if_neg (by simpa using noNewline)]
      split
      · rename_i plain
        simp only [Bool.and_eq_true, Bool.not_eq_true', List.contains_eq_mem,
          decide_eq_false_iff_not] at plain
        have same := text_eq_source_of_no_backslash _ plain.1
        rw [sources] at same
        exact congrArg some same
      · exact looped

/-! ### Texts without escapes -/

/-- A printable ASCII character that has no escape. -/
def isUnescaped (b : UInt8) : Bool :=
  0x20 ≤ b && b ≤ 0x7E && b ≠ byte '"' && b ≠ byte '\\'

private theorem quotePieces_unescaped (unicode : Unicode) (text : GoString)
    (plain : ∀ b ∈ text, isUnescaped b = true) :
    quotePieces unicode text.length text = text.map fun b => .raw b.toNat := by
  induction text with
  | nil => rfl
  | cons b rest ih =>
      rw [List.forall_mem_cons] at plain
      have own := plain.1
      simp only [isUnescaped, Bool.and_eq_true, decide_eq_true_eq, UInt8.le_iff_toNat_le,
        ne_eq, ← UInt8.toNat_inj] at own
      obtain ⟨⟨⟨low, high⟩, notQuote⟩, notBackslash⟩ := own
      have isAscii : b.toNat < 0x80 := by
        exact Nat.lt_of_le_of_lt high (by decide)
      have decoded : decodeRune (b :: rest) = (b.toNat, 1) := by
        simp [decodeRune, isAscii]
      have notError : b.toNat ≠ runeError := by
        unfold runeError
        omega
      have piece : appendEscapedRune unicode b.toNat = .raw b.toNat := by
        have printable : unicode.printable b.toNat = true := by
          have lower : 0x20 ≤ b.toNat := low
          have upper : b.toNat ≤ 0x7E := high
          simp [Unicode.printable, isAscii, lower, upper]
        have differs : ¬ (b.toNat = 0x22 || b.toNat = 0x5C) = true := by
          simpa using ⟨notQuote, notBackslash⟩
        rw [appendEscapedRune, if_neg differs, if_pos printable]
      simp only [List.length_cons, quotePieces, decoded, notError, decide_false, Bool.and_false,
        Bool.false_eq_true, if_false, List.drop_one, List.tail_cons, piece, ih plain.2,
        List.map_cons]

theorem quote_unescaped (unicode : Unicode) (text : GoString)
    (plain : ∀ b ∈ text, isUnescaped b = true) :
    quote unicode text = byte '"' :: (text ++ [byte '"']) := by
  have body : quoteBody unicode text = text := by
    rw [quoteBody, quotePieces_unescaped unicode text plain, List.flatMap_map]
    have same : ∀ b ∈ text, (QuotePiece.raw b.toNat).text = [b] := by
      intro b member
      have own := plain b member
      simp only [isUnescaped, Bool.and_eq_true, decide_eq_true_eq,
        UInt8.le_iff_toNat_le] at own
      have isAscii : b.toNat < 0x80 := Nat.lt_of_le_of_lt own.1.1.2 (by decide)
      rw [QuotePiece.text, encodeRune_ascii b.toNat isAscii, UInt8.ofNat_toNat]
    rw [List.flatMap_congr same, List.flatMap_singleton']
  rw [quote, body]

/-! ### `labels.Matcher.String` -/

def MatchType.text : MatchType → GoString
  | .equal => ascii "="
  | .notEqual => ascii "!="
  | .regexp => ascii "=~"
  | .notRegexp => ascii "!~"

def isNameStart (b : UInt8) : Bool :=
  b = byte '_' || (byte 'a' ≤ b && b ≤ byte 'z') || (byte 'A' ≤ b && b ≤ byte 'Z')

def isNameByte (b : UInt8) : Bool :=
  isNameStart b || (byte '0' ≤ b && b ≤ byte '9')

/-- The negation of `shouldQuoteName`. -/
def isPlainName : GoString → Bool
  | [] => false
  | first :: rest => isNameStart first && rest.all isNameByte

def Matcher.string (unicode : Unicode) (m : Matcher) : GoString :=
  (if isPlainName m.name then m.name else quote unicode m.name) ++
    (m.type.text ++ quote unicode m.value)

/-! ### Bytes that no escape has -/

/-- A printable ASCII character that is not written in another way, and that is not
a part of an escape either. -/
def isBystander (b : UInt8) : Bool :=
  isUnescaped b && !isNameByte b

private theorem isNameByte_hexDigits (width n : Nat) (b : UInt8) (member : b ∈ hexDigits width n) :
    isNameByte b = true := by
  have inspected : ∀ digit : Fin 16, isNameByte (lowerHexDigit digit) = true := by decide
  induction width with
  | zero => cases member
  | succ width ih =>
      rw [hexDigits, List.mem_cons] at member
      rcases member with rfl | later
      · exact inspected ⟨_, Nat.mod_lt _ (by decide)⟩
      · exact ih later

private theorem not_mem_escape {b letter : UInt8} {digits : GoString}
    (bystander : isBystander b = true)
    (isLetter : isNameByte letter = true ∨ letter = byte '"' ∨ letter = byte '\\')
    (areDigits : ∀ b ∈ digits, isNameByte b = true) : b ∉ byte '\\' :: letter :: digits := by
  simp only [isBystander, isUnescaped, Bool.and_eq_true, decide_eq_true_eq,
    Bool.not_eq_true'] at bystander
  obtain ⟨⟨⟨-, notQuote⟩, notBackslash⟩, notName⟩ := bystander
  intro member
  rcases List.mem_cons.mp member with isBackslash | member
  · exact notBackslash isBackslash
  rcases List.mem_cons.mp member with rfl | inDigits
  · rcases isLetter with isName | isQuote | isBackslash
    · rw [isName] at notName
      cases notName
    · exact notQuote isQuote
    · exact notBackslash isBackslash
  · rw [areDigits b inDigits] at notName
    cases notName

private theorem toNat_of_bystander {b : UInt8} (bystander : isBystander b = true) :
    0x20 ≤ b.toNat ∧ b.toNat ≤ 0x7E ∧ b.toNat ≠ 0x22 ∧ b.toNat ≠ 0x5C := by
  simp only [isBystander, isUnescaped, Bool.and_eq_true, decide_eq_true_eq,
    UInt8.le_iff_toNat_le, ne_eq, ← UInt8.toNat_inj] at bystander
  exact ⟨bystander.1.1.1.1, bystander.1.1.1.2, bystander.1.1.2, bystander.1.2⟩

/-- A byte that stands for a control character, or for a part of a longer rune. -/
private theorem not_mem_singleton_of_control {b : UInt8} (bystander : isBystander b = true)
    (r : Nat)
    (small : r < 256) (control : r < 0x20 ∨ 0x7F ≤ r ∨ r = 0x22 ∨ r = 0x5C) :
    b ∉ [UInt8.ofNat r] := by
  intro member
  have value := congrArg UInt8.toNat (List.mem_singleton.mp member)
  rw [UInt8.toNat_ofNat', Nat.mod_eq_of_lt small] at value
  have bounds := toNat_of_bystander bystander
  omega

private theorem mem_appendEscapedRune (unicode : Unicode) (r : Nat) {b : UInt8}
    (bystander : isBystander b = true) :
    b ∈ (appendEscapedRune unicode r).text ↔ b ∈ (appendEscapedRune unicode r).source := by
  have digits : ∀ width n, ∀ b ∈ hexDigits width n, isNameByte b = true := isNameByte_hexDigits
  have high : 0x80 ≤ r → b ∉ encodeRune r := by
    intro notAscii member
    have large := encodeRune_not_ascii r notAscii b member
    have bounds := toNat_of_bystander bystander
    omega
  unfold appendEscapedRune
  by_cases escaped : (r = 0x22 || r = 0x5C) = true
  · rw [if_pos escaped]
    simp only [Bool.or_eq_true, decide_eq_true_eq] at escaped
    refine iff_of_false ?_ (not_mem_singleton_of_control bystander r (by omega) (by omega))
    rcases escaped with rfl | rfl
    · exact not_mem_escape bystander (Or.inr (Or.inl rfl)) (List.forall_mem_nil _)
    · exact not_mem_escape bystander (Or.inr (Or.inr rfl)) (List.forall_mem_nil _)
  rw [if_neg escaped]
  by_cases printable : unicode.printable r = true
  · rw [if_pos printable]
    exact Iff.rfl
  rw [if_neg printable]
  cases control : controlLetter r with
  | some letter =>
      obtain ⟨small, known⟩ := controlLetter_escape r letter control
      have isLetter : isNameByte letter = true := by
        unfold controlLetter at control
        split at control <;> cases control <;> decide
      exact iff_of_false (not_mem_escape bystander (Or.inl isLetter) (List.forall_mem_nil _))
        (not_mem_singleton_of_control bystander r (by omega) (Or.inl small))
  | none =>
      dsimp only
      by_cases hexadecimal : (r < 0x20 || r = 0x7F) = true
      · rw [if_pos hexadecimal]
        simp only [Bool.or_eq_true, decide_eq_true_eq] at hexadecimal
        exact iff_of_false (not_mem_escape bystander (Or.inl (by decide)) (digits _ _))
          (not_mem_singleton_of_control bystander r (by omega) (by omega))
      · rw [if_neg hexadecimal]
        simp only [Bool.or_eq_true, decide_eq_true_eq, not_or] at hexadecimal
        have notAscii : 0x80 ≤ r := by
          by_contra isAscii
          apply printable
          rw [Unicode.printable, if_pos (by omega), Bool.and_eq_true, decide_eq_true_eq,
            decide_eq_true_eq]
          omega
        split
        · exact iff_of_false (not_mem_escape bystander (Or.inl (by decide)) (digits _ _))
            (high notAscii)
        · exact iff_of_false (not_mem_escape bystander (Or.inl (by decide)) (digits _ _))
            (high notAscii)

/-- A byte of an invalid encoding is written in hexadecimal digits, every rune by
`appendEscapedRune`. -/
private theorem mem_quotePieces (unicode : Unicode) (rounds : Nat) (text : GoString)
    (piece : QuotePiece) (member : piece ∈ quotePieces unicode rounds text) :
    (∃ b : UInt8, 0x80 ≤ b.toNat ∧ piece = .hexByte b) ∨
      ∃ r, piece = appendEscapedRune unicode r := by
  induction rounds generalizing text with
  | zero => cases member
  | succ rounds ih =>
      cases text with
      | nil => cases member
      | cons b rest =>
          rw [quotePieces] at member
          split at member
          rename_i r width decoded
          split at member
          · rename_i invalid
            simp only [Bool.and_eq_true, decide_eq_true_eq] at invalid
            rcases List.mem_cons.mp member with rfl | later
            · refine Or.inl ⟨b, ?_, rfl⟩
              by_contra isAscii
              rcases decodeRune_cases b rest with
                ⟨-, own⟩ | ⟨other, tail, notAscii, -, shape, -⟩ | ⟨notAscii, -⟩
              · rw [decoded] at own
                have same := congrArg Prod.fst own
                rw [invalid.2, runeError] at same
                dsimp only at same
                omega
              · have first : b ∈ encodeRune other := by
                  cases encoded : encodeRune other with
                  | nil => exact absurd encoded (encodeRune_ne_nil other)
                  | cons own others =>
                      rw [encoded, List.cons_append] at shape
                      rw [(List.cons.inj shape).1]
                      exact List.mem_cons_self
                exact isAscii (encodeRune_not_ascii other notAscii b first)
              · exact isAscii notAscii
            · exact ih rest later
          · rcases List.mem_cons.mp member with rfl | later
            · exact Or.inr ⟨r, rfl⟩
            · exact ih _ later

theorem mem_quote_iff (unicode : Unicode) (text : GoString) {b : UInt8}
    (bystander : isBystander b = true) : b ∈ quote unicode text ↔ b ∈ text := by
  obtain ⟨sources, -⟩ := quotePieces_source unicode text.length text (Nat.le_refl _)
  have piecewise : ∀ piece ∈ quotePieces unicode text.length text,
      (b ∈ piece.text ↔ b ∈ piece.source) := by
    intro piece member
    rcases mem_quotePieces unicode _ _ piece member with ⟨invalid, large, rfl⟩ | ⟨r, rfl⟩
    · refine iff_of_false
        (not_mem_escape bystander (Or.inl (by decide)) (isNameByte_hexDigits _ _)) ?_
      have outside := not_mem_singleton_of_control bystander invalid.toNat invalid.toNat_lt
        (by omega)
      rw [UInt8.ofNat_toNat] at outside
      exact outside
    · exact mem_appendEscapedRune unicode r bystander
  have notQuote : b ≠ byte '"' := by
    rintro rfl
    cases bystander
  have inBody : b ∈ quote unicode text ↔ b ∈ quoteBody unicode text := by
    rw [quote, List.mem_cons, List.mem_append, List.mem_singleton]
    exact ⟨fun member => (member.resolve_left notQuote).resolve_right notQuote,
      fun member => Or.inr (Or.inl member)⟩
  conv_rhs => rw [← sources]
  rw [inBody, quoteBody, List.mem_flatMap, List.mem_flatMap]
  exact exists_congr fun piece => and_congr_right fun member => piecewise piece member

end McoaGateway
