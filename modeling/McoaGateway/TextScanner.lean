/-
Package `text/scanner`, in the mode that `Init` sets.

A scanner owns a buffer and refills it from a reader.  Copies of a scanner have
buffers of their own, but share the reader and the list of errors; what a copy
reads from the reader is lost for the original (`Scanner.after`).

The character read ahead is the first rune of what the scanner holds.  `Init`
leaves it unread until the first call, and nothing else happens in between, so
`Scanner.ofText` reads it at once.  Positions are not modelled.  The scanner
counts the characters that it reads, which the source does not.
-/

import McoaGateway.Quote

namespace McoaGateway

open GoString

inductive ScanError where
  | invalidEncoding
  | characterNul
  | literalNotTerminated
  | illegalCharLiteral
  | invalidCharEscape
  | commentNotTerminated
  | invalidRadixPoint
  | noDigits
  | exponentMantissa
  | exponentNoDigits
  | hexadecimalExponent
  | invalidDigit
  | separatorPlace
  /-- A message of the user of the scanner, in the same list. -/
  | reported (message : GoString)
deriving DecidableEq, Repr

structure Scanner where
  /-- `bufLen`, which is 1024. -/
  capacity : Nat
  /-- The bytes of the character read ahead, and of the buffer behind it. -/
  held : GoString
  reader : GoString
  errors : List ScanError
  /-- How often a character has been read, by this scanner or by a copy of it. -/
  steps : Nat
deriving DecidableEq, Repr

namespace Scanner

def text (s : Scanner) : GoString :=
  s.held ++ s.reader

def error (s : Scanner) (e : ScanError) : Scanner :=
  { s with errors := s.errors ++ [e] }

/-- The character read ahead, or `none` at the end. -/
def ch (s : Scanner) : Option Nat :=
  match s.held with
  | [] => none
  | _ => some (decodeRune s.held).1

/-! ### Reading characters -/

/-- The length of an encoding, by its first byte; invalid ones count as 1. -/
def encodedLength (lead : UInt8) : Nat :=
  if lead.toNat < 0xC2 then 1
  else if lead.toNat < 0xE0 then 2
  else if lead.toNat < 0xF0 then 3
  else if lead.toNat < 0xF5 then 4
  else 1

/-- `utf8.FullRune` -/
def fullRune : GoString → Bool
  | [] => false
  | lead :: rest =>
      if encodedLength lead ≤ rest.length + 1 then true
      else
        match rest with
        | [] => false
        | [second] => !isSecondByte lead second
        | second :: third :: _ => !isSecondByte lead second || !isTailByte third

def fill (s : Scanner) : Scanner :=
  if s.held.length < 4 && !fullRune s.held then
    { s with
      held := s.held ++ s.reader.take (s.capacity - s.held.length)
      reader := s.reader.drop (s.capacity - s.held.length) }
  else s

/-- The complaints about a character, made when it is read. -/
def checkRune (s : Scanner) : Scanner :=
  match s.held with
  | [] => s
  | _ =>
      if decodeRune s.held = (runeError, 1) then s.error .invalidEncoding
      else if s.ch = some 0 then s.error .characterNul
      else s

/-- `next`: read the character after the one read ahead. -/
def next (s : Scanner) : Scanner :=
  { s with
    held := s.held.drop (decodeRune s.held).2
    steps := s.steps + 1 }.fill.checkRune

/-- A byte order mark at the beginning is ignored. -/
def ofText (capacity : Nat) (input : GoString) : Scanner :=
  let s := (Scanner.mk capacity [] input [] 1).fill.checkRune
  if s.ch = some 0xFEFF then s.next else s

/-- The original, after a copy of it has been used. -/
def after (s copy : Scanner) : Scanner :=
  { s with reader := copy.reader, errors := copy.errors, steps := copy.steps }

def since (start stop : Scanner) : GoString :=
  start.text.take (start.text.length - stop.text.length)

def skipRounds (skips : Nat → Bool) : Nat → Scanner → Scanner
  | 0, s => s
  | rounds + 1, s =>
      match s.ch with
      | none => s
      | some r => if skips r then skipRounds skips rounds s.next else s

def skipWhile (skips : Nat → Bool) (s : Scanner) : Scanner :=
  skipRounds skips s.text.length s

end Scanner

/-! ### Classes of characters -/

def isWhitespace (r : Nat) : Bool :=
  r = 9 || r = 10 || r = 13 || r = 32

/-- `unicode.IsSpace` -/
def isSpaceRune (r : Nat) : Bool :=
  spaceRunes.contains (encodeRune r)

def isAsciiLetter (r : Nat) : Bool :=
  0x41 ≤ r && r ≤ 0x5A || 0x61 ≤ r && r ≤ 0x7A

def isDecimal (r : Nat) : Bool :=
  0x30 ≤ r && r ≤ 0x39

def isHex (r : Nat) : Bool :=
  isDecimal r || 0x41 ≤ r && r ≤ 0x46 || 0x61 ≤ r && r ≤ 0x66

/-- `lower` for a letter. -/
def lower (r : Nat) : Nat :=
  if 0x41 ≤ r && r ≤ 0x5A then r + 0x20 else r

def digitVal (r : Nat) : Nat :=
  if isDecimal r then r - 0x30
  else if isHex r then lower r - 0x61 + 10
  else 16

namespace Unicode

variable (unicode : Unicode)

def letter (r : Nat) : Bool :=
  if r < 0x80 then isAsciiLetter r else unicode.isLetter r

def digit (r : Nat) : Bool :=
  if r < 0x80 then isDecimal r else unicode.isDigit r

def number (r : Nat) : Bool :=
  if r < 0x80 then isDecimal r else unicode.isNumber r

def identStart (r : Nat) : Bool :=
  r = 0x5F || unicode.letter r

def identPart (r : Nat) : Bool :=
  r = 0x5F || unicode.letter r || unicode.digit r

end Unicode

namespace Scanner

/-! ### Numbers -/

/-- What `digits` tells of the characters it read. -/
structure Digits where
  present : Bool
  separated : Bool
  invalid : Bool
deriving DecidableEq, Repr

def Digits.or (a b : Digits) : Digits :=
  ⟨a.present || b.present, a.separated || b.separated, a.invalid || b.invalid⟩

def isSeparator (r : Nat) : Bool :=
  r = 0x5F

def digits (base : Nat) (s : Scanner) : Digits × Scanner :=
  let stop :=
    if base ≤ 10 then s.skipWhile fun r => isDecimal r || isSeparator r
    else s.skipWhile fun r => isHex r || isSeparator r
  let codes := (s.since stop).map UInt8.toNat
  (⟨codes.any fun r => !isSeparator r, codes.any isSeparator,
    base ≤ 10 && codes.any fun r => !isSeparator r && 0x30 + base ≤ r⟩, stop)

inductive DigitClass where
  | separator
  | digit
  | other
deriving DecidableEq, Repr

def digitClass (hexadecimal : Bool) (code : Nat) : DigitClass :=
  if isSeparator code then .separator
  else if isDecimal code || hexadecimal && isHex code then .digit
  else .other

/-- The loop of `invalidSep`; a separator stands between digits. -/
def invalidSepFrom (hexadecimal : Bool) : DigitClass → List Nat → Bool
  | previous, [] => previous == .separator
  | previous, code :: rest =>
      match digitClass hexadecimal code with
      | .separator => previous != .digit || invalidSepFrom hexadecimal .separator rest
      | .digit => invalidSepFrom hexadecimal .digit rest
      | .other => previous == .separator || invalidSepFrom hexadecimal .other rest

def invalidSep (codes : List Nat) : Bool :=
  match codes with
  | 0x30 :: second :: rest =>
      if lower second = 0x78 then invalidSepFrom true .digit rest
      else if lower second = 0x6F || lower second = 0x62 then invalidSepFrom false .digit rest
      else invalidSepFrom false .other codes
  | _ => invalidSepFrom false .other codes

/-- The kind of a literal, by what follows a leading zero. -/
inductive Radix where
  | decimal
  | legacyOctal
  | hexadecimal
  | octal
  | binary
deriving DecidableEq, Repr

def Radix.base : Radix → Nat
  | .decimal => 10
  | .legacyOctal => 8
  | .hexadecimal => 16
  | .octal => 8
  | .binary => 2

/-- The radix, with the leading zero and the letter behind it read. -/
def scanRadix (s : Scanner) : Radix × Scanner :=
  if s.ch = some 0x30 then
    let s := s.next
    match s.ch.map lower with
    | some 0x78 => (.hexadecimal, s.next)
    | some 0x6F => (.octal, s.next)
    | some 0x62 => (.binary, s.next)
    | _ => (.legacyOctal, s)
  else (.decimal, s)

def errorIf (condition : Bool) (e : ScanError) (s : Scanner) : Scanner :=
  if condition then s.error e else s

/-- The sign and the digits of an exponent, at its letter. -/
def exponentDigits (s : Scanner) : Digits × Scanner :=
  let s := s.next
  let s := if s.ch = some 0x2B ∨ s.ch = some 0x2D then s.next else s
  let (found, s) := digits 10 s
  (found, s.errorIf (!found.present) .exponentNoDigits)

def scanExponent (radix : Radix) (s : Scanner) : Option Digits × Scanner :=
  match s.ch.map lower with
  | some 0x65 =>
      let (found, s) := exponentDigits
        (s.errorIf (radix != .decimal && radix != .legacyOctal) .exponentMantissa)
      (some found, s)
  | some 0x70 =>
      let (found, s) := exponentDigits (s.errorIf (radix != .hexadecimal) .exponentMantissa)
      (some found, s)
  | _ => (none, s)

/-- The digits before the point; a leading zero is one of them. -/
def scanWhole (s : Scanner) : Radix × Digits × Scanner :=
  let (radix, s) := scanRadix s
  let (found, s) := digits radix.base s
  (radix, (Digits.mk (radix == .legacyOctal) false false).or found, s)

def scanFraction (radix : Radix) (s : Scanner) : Digits × Scanner :=
  digits radix.base (s.errorIf (radix == .octal || radix == .binary) .invalidRadixPoint)

/-- The digits of the mantissa, and whether there is a point. -/
def scanMantissa (s : Scanner) (seenDot : Bool) : Radix × Bool × Digits × Scanner :=
  if seenDot then
    let (fraction, s) := scanFraction .decimal s
    (.decimal, true, fraction, s)
  else
    let (radix, whole, s) := scanWhole s
    if s.ch = some 0x2E then
      let (fraction, s) := scanFraction radix s.next
      (radix, true, whole.or fraction, s)
    else (radix, false, whole, s)

/-- `scanNumber`: whether the literal is a `Float`.  The token begins at `start`. -/
def scanNumber (start s : Scanner) (seenDot : Bool) : Bool × Scanner :=
  let (radix, hasDot, mantissa, s) := scanMantissa s seenDot
  let (exponent, s) := scanExponent radix (s.errorIf (!mantissa.present) .noDigits)
  let isFloat := hasDot || exponent.isSome
  let s := s.errorIf (exponent.isNone && radix == .hexadecimal && isFloat) .hexadecimalExponent
  let s := s.errorIf (!isFloat && mantissa.invalid) .invalidDigit
  let separated := mantissa.separated || exponent.elim false Digits.separated
  (isFloat,
    s.errorIf (separated && invalidSep ((start.since s).map UInt8.toNat)) .separatorPlace)

/-! ### Literals and comments -/

def scanDigits (base : Nat) : Nat → Scanner → Scanner
  | 0, s => s
  | rounds + 1, s =>
      if s.ch.elim false fun r => digitVal r < base then scanDigits base rounds s.next
      else s.error .invalidCharEscape

/-- The letters of the escapes that have no digits. -/
def escapeLetters : List Nat :=
  [0x61, 0x62, 0x66, 0x6E, 0x72, 0x74, 0x76, 0x5C]

/-- `scanEscape`, at the backslash. -/
def scanEscape (quote : Nat) (s : Scanner) : Scanner :=
  let s := s.next
  match s.ch with
  | none => s.error .invalidCharEscape
  | some r =>
      if escapeLetters.contains r || r = quote then s.next
      else if 0x30 ≤ r && r ≤ 0x37 then scanDigits 8 3 s
      else if r = 0x78 then scanDigits 16 2 s.next
      else if r = 0x75 then scanDigits 16 4 s.next
      else if r = 0x55 then scanDigits 16 8 s.next
      else s.error .invalidCharEscape

/-- The loop of `scanString`, with the number of characters so far. -/
def scanStringRounds (quote : Nat) : Nat → Nat → Scanner → Nat × Scanner
  | 0, count, s => (count, s)
  | rounds + 1, count, s =>
      match s.ch with
      | none => (count, s.error .literalNotTerminated)
      | some r =>
          if r = quote then (count, s)
          else if r = 10 then (count, s.error .literalNotTerminated)
          else if r = 0x5C then scanStringRounds quote rounds (count + 1) (scanEscape quote s)
          else scanStringRounds quote rounds (count + 1) s.next

/-- `scanString`, at the opening quote. -/
def scanString (quote : Nat) (s : Scanner) : Nat × Scanner :=
  scanStringRounds quote (s.text.length + 1) 0 s.next

def scanRawString (s : Scanner) : Scanner :=
  let s := s.next.skipWhile fun r => r != 0x60
  if s.ch = none then s.error .literalNotTerminated else s

def scanChar (s : Scanner) : Scanner :=
  let (count, s) := scanString 0x27 s
  if count = 1 then s else s.error .illegalCharLiteral

def scanGeneralComment : Nat → Scanner → Scanner
  | 0, s => s
  | rounds + 1, s =>
      match s.ch with
      | none => s.error .commentNotTerminated
      | some r =>
          if r = 0x2A ∧ s.next.ch = some 0x2F then s.next.next
          else scanGeneralComment rounds s.next

/-! ### `Scan` -/

inductive Scanned where
  | eof
  | ident
  | int
  | float
  | char
  | string
  | rawString
  | rune (r : Nat)
deriving DecidableEq, Repr

section

variable (unicode : Unicode)

/-- The token at this point, or `none` for a comment. -/
def scanToken (s : Scanner) : Option Scanned × Scanner :=
  match s.ch with
  | none => (some .eof, s)
  | some r =>
      if unicode.identStart r then (some .ident, s.next.skipWhile unicode.identPart)
      else if isDecimal r then
        let (isFloat, stop) := scanNumber s s false
        (some (if isFloat then .float else .int), stop)
      else if r = 0x22 then (some .string, (scanString 0x22 s).2.next)
      else if r = 0x27 then (some .char, (scanChar s).next)
      else if r = 0x2E then
        if s.next.ch.elim false isDecimal then (some .float, (scanNumber s s.next true).2)
        else (some (.rune r), s.next)
      else if r = 0x2F then
        if s.next.ch = some 0x2F then (none, s.next.next.skipWhile fun r => r != 10)
        else if s.next.ch = some 0x2A then
          (none, scanGeneralComment (s.text.length + 1) s.next.next)
        else (some (.rune r), s.next)
      else if r = 0x60 then (some .rawString, s.scanRawString.next)
      else (some (.rune r), s.next)

def scanRounds : Nat → Scanner → Scanned × Scanner × Scanner
  | 0, s => (.eof, s, s)
  | rounds + 1, s =>
      let start := s.skipWhile isWhitespace
      match scanToken unicode start with
      | (some scanned, stop) => (scanned, start, stop)
      | (none, stop) => scanRounds rounds stop

/-- `Scan`: the token, and where it begins and ends. -/
def scan (s : Scanner) : Scanned × Scanner × Scanner :=
  scanRounds unicode (s.text.length + 1) s

end

end Scanner

end McoaGateway
