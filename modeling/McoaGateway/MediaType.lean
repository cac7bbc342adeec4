/-
Media types (`mime.ParseMediaType`).

A `Content-Type` field is a type and a list of parameters.  Of the result, the type
and the error are kept: a parameter that cannot be read leaves the type and gives
an error, so that the same field can name a form and be malformed.
-/

import McoaGateway.GoString

namespace McoaGateway

open GoString

inductive MediaTypeError where
  | noMediaType
  | noSlash
  | noSubtype
  | unexpectedContent
  | invalidParameter
  | duplicateParameter
deriving DecidableEq, Repr

def MediaTypeError.text : MediaTypeError → GoString
  | .noMediaType => ascii "mime: no media type"
  | .noSlash => ascii "mime: expected slash after first token"
  | .noSubtype => ascii "mime: expected token after slash"
  | .unexpectedContent => ascii "mime: unexpected content after media subtype"
  | .invalidParameter => ascii "mime: invalid media parameter"
  | .duplicateParameter => ascii "mime: duplicate parameter name"

namespace MediaType

def isTSpecial (b : UInt8) : Bool :=
  (ascii "()<>@,;:\\\"/[]?=").contains b

def isTokenChar (b : UInt8) : Bool :=
  0x20 < b && b < 0x7F && !isTSpecial b

/-- `strings.ToLower`, as far as its result can be a token.  Outside of ASCII, the
dotted capital I and the Kelvin sign have a lower case in ASCII. -/
def toLower : GoString → GoString
  | [] => []
  | b :: rest =>
      match b, rest with
      | 0xC4, 0xB0 :: rest => byte 'i' :: toLower rest
      | 0xE2, 0x84 :: 0xAA :: rest => byte 'k' :: toLower rest
      | b, rest => toLowerByte b :: toLower rest

/-- `strings.TrimLeftFunc` with `unicode.IsSpace`. -/
def trimLeftSpace (v : GoString) : GoString :=
  dropRunes spaceRunes v.length v

def consumeToken (v : GoString) : GoString × GoString :=
  (v.takeWhile isTokenChar, v.dropWhile isTokenChar)

def checkMediaTypeDisposition (s : GoString) : Option MediaTypeError :=
  match consumeToken s with
  | ([], _) => some .noMediaType
  | (_, []) => none
  | (_, b :: rest) =>
      if b ≠ byte '/' then some .noSlash
      else
        match consumeToken rest with
        | ([], _) => some .noSubtype
        | (_, []) => none
        | (_, _ :: _) => some .unexpectedContent

/-- The value of a quoted string and what stands behind it, from behind the first
quote on.  A backslash counts before a special character only. -/
def consumeQuoted : GoString → Option (GoString × GoString)
  | [] => none
  | [b] => if b = byte '"' then some ([], []) else none
  | b :: c :: rest =>
      if b = byte '"' then some ([], c :: rest)
      else if b = byte '\\' ∧ isTSpecial c = true then
        (consumeQuoted rest).map fun (value, behind) => (c :: value, behind)
      else if b = 0x0D ∨ b = 0x0A then none
      else (consumeQuoted (c :: rest)).map fun (value, behind) => (b :: value, behind)

/-- The value at the beginning, and the rest; `none` if nothing can be taken. -/
def consumeValue (v : GoString) : Option (GoString × GoString) :=
  match v with
  | [] => none
  | b :: rest =>
      if b = byte '"' then consumeQuoted rest
      else if (consumeToken v).1 = [] then none
      else some (consumeToken v)

/-- The parameter at the beginning: its name, its value and the rest. -/
def consumeMediaParam (v : GoString) : Option (GoString × GoString × GoString) :=
  match trimLeftSpace v with
  | [] => none
  | b :: rest =>
      if b ≠ byte ';' then none
      else
        let (param, rest) := consumeToken (trimLeftSpace rest)
        if param = [] then none
        else
          match trimLeftSpace rest with
          | [] => none
          | b :: rest =>
              if b ≠ byte '=' then none
              else
                (consumeValue (trimLeftSpace rest)).map fun (value, rest) =>
                  (param.map toLowerByte, value, rest)

/-- The loop over the parameters, with those that were read.  Every parameter takes
its semicolon, so the length of the text bounds the number of rounds. -/
def paramsError (seen : List (GoString × GoString)) : Nat → GoString → Option MediaTypeError
  | 0, _ => none
  | rounds + 1, v =>
      let v := trimLeftSpace v
      if v = [] then none
      else
        match consumeMediaParam v with
        | none => if trimSpace v = [byte ';'] then none else some .invalidParameter
        | some (key, value, rest) =>
            if (List.lookup key seen).getD value ≠ value then some .duplicateParameter
            else paramsError ((key, value) :: seen) rounds rest

end MediaType

open MediaType in
/-- The type, which is empty after most errors, and the error. -/
def parseMediaType (v : GoString) : GoString × Option MediaTypeError :=
  let base := v.takeWhile fun b => b ≠ byte ';'
  let mediatype := trimSpace (toLower base)
  match checkMediaTypeDisposition mediatype with
  | some error => ([], some error)
  | none =>
      let params := v.drop base.length
      match paramsError [] params.length params with
      | none => (mediatype, none)
      | some .invalidParameter => (mediatype, some .invalidParameter)
      | some error => ([], some error)

end McoaGateway
