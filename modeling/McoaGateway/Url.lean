/-
Query strings and forms (`url.Values`, `url.ParseQuery`, `Values.Encode`,
`http.Request.ParseForm`).

`url.Values` is a map from keys to lists of values.  It is kept here as the
list of its key-value pairs, in which the values of one key have the order of
their list; a key with an empty list has no pair, and no function below can
tell it from an absent key.  The main result is that parsing undoes encoding
for the values of every key.
-/

import McoaGateway.Http
import McoaGateway.MediaType
import Mathlib.Data.List.Sort

namespace McoaGateway

open GoString

/-! ### `url.QueryEscape` and `url.QueryUnescape` -/

def upperHexDigit (n : UInt8) : UInt8 :=
  if n < 10 then byte '0' + n else byte 'A' + (n - 10)

def hexDigitValue (b : UInt8) : Option UInt8 :=
  if byte '0' ≤ b && b ≤ byte '9' then some (b - byte '0')
  else if byte 'a' ≤ b && b ≤ byte 'f' then some (b - byte 'a' + 10)
  else if byte 'A' ≤ b && b ≤ byte 'F' then some (b - byte 'A' + 10)
  else none

/-- The bytes which stand for themselves in a query component. -/
def isUnreserved (b : UInt8) : Bool :=
  (byte 'a' ≤ b && b ≤ byte 'z') || (byte 'A' ≤ b && b ≤ byte 'Z') ||
    (byte '0' ≤ b && b ≤ byte '9') || (ascii "-_.~").contains b

def queryEscapeByte (b : UInt8) : GoString :=
  if isUnreserved b then [b]
  else if b = byte ' ' then [byte '+']
  else [byte '%', upperHexDigit (b / 16), upperHexDigit (b % 16)]

def queryEscape (text : GoString) : GoString :=
  text.flatMap queryEscapeByte

inductive QueryError where
  | semicolon
  | escape (text : GoString)
deriving DecidableEq, Repr

/-- The text of the error; the quoting of a bad escape is left out. -/
def QueryError.text : QueryError → GoString
  | .semicolon => ascii "invalid semicolon separator in query"
  | .escape text => ascii "invalid URL escape " ++ text

def queryUnescape : GoString → Except QueryError GoString
  | [] => .ok []
  | b :: rest =>
      if b = byte '%' then
        match rest with
        | high :: low :: rest =>
            match hexDigitValue high, hexDigitValue low with
            | some high, some low =>
                (queryUnescape rest).map fun text => (16 * high + low) :: text
            | _, _ => .error (.escape [b, high, low])
        | _ => .error (.escape (b :: rest))
      else if b = byte '+' then
        (queryUnescape rest).map fun text => byte ' ' :: text
      else
        (queryUnescape rest).map fun text => b :: text

/-! ### `url.PathUnescape` -/

def pathUnescape : GoString → Option GoString
  | [] => some []
  | b :: rest =>
      if b = byte '%' then
        match rest with
        | high :: low :: rest =>
            match hexDigitValue high, hexDigitValue low with
            | some high, some low =>
                (pathUnescape rest).map fun text => (16 * high + low) :: text
            | _, _ => none
        | _ => none
      else
        (pathUnescape rest).map fun text => b :: text

/-- The two views of a path that `url.Parse` can give. -/
def Url.Valid (url : Url) : Prop :=
  url.rawPath = [] ∨ pathUnescape url.rawPath = some url.path

theorem pathUnescape_cons_of_ne (b : UInt8) (rest : GoString) (plain : b ≠ byte '%') :
    pathUnescape (b :: rest) = (pathUnescape rest).map (b :: ·) := by
  rw [pathUnescape.eq_def]
  exact if_neg plain

theorem pathUnescape_escape (high low : UInt8) (rest : GoString) :
    pathUnescape (byte '%' :: high :: low :: rest) =
      match hexDigitValue high, hexDigitValue low with
      | some high, some low => (pathUnescape rest).map ((16 * high + low) :: ·)
      | _, _ => none := by
  rw [pathUnescape.eq_def]
  exact if_pos rfl

theorem pathUnescape_plain_append (plain rest : GoString) (noEscape : byte '%' ∉ plain) :
    pathUnescape (plain ++ rest) = (pathUnescape rest).map (plain ++ ·) := by
  induction plain with
  | nil =>
      cases unescaped : pathUnescape rest <;> simp [unescaped]
  | cons b plain ih =>
      rw [List.mem_cons, not_or] at noEscape
      rw [List.cons_append, pathUnescape_cons_of_ne b _ (fun same => noEscape.1 same.symm),
        ih noEscape.2, Option.map_map]
      rfl

theorem pathUnescape_append_slash (first second decoded : GoString)
    (unescaped : pathUnescape (first ++ byte '/' :: second) = some decoded) :
    ∃ left right, pathUnescape first = some left ∧ pathUnescape second = some right ∧
      decoded = left ++ byte '/' :: right := by
  fun_induction pathUnescape first generalizing decoded with
  | case1 =>
      rw [List.nil_append, pathUnescape_cons_of_ne _ _ (by decide)] at unescaped
      obtain ⟨right, isRight, rfl⟩ := Option.map_eq_some_iff.mp unescaped
      exact ⟨[], right, rfl, isRight, rfl⟩
  | case2 high low rest highValue lowValue readHigh readLow ih =>
      rw [List.cons_append, List.cons_append, List.cons_append, pathUnescape_escape]
        at unescaped
      simp only [readHigh, readLow] at unescaped
      obtain ⟨tail, isTail, rfl⟩ := Option.map_eq_some_iff.mp unescaped
      obtain ⟨left, right, isLeft, isRight, rfl⟩ := ih tail isTail
      exact ⟨_, right, by rw [isLeft]; rfl, isRight, rfl⟩
  | case3 high low rest bad =>
      rw [List.cons_append, List.cons_append, List.cons_append, pathUnescape_escape]
        at unescaped
      split at unescaped
      · rename_i highValue lowValue readHigh readLow
        exact (bad highValue lowValue readHigh readLow).elim
      · cases unescaped
  | case4 rest short =>
      -- The slash would have to be a hexadecimal digit.
      have notDigit : hexDigitValue (byte '/') = none := by decide
      cases rest with
      | nil =>
          cases second with
          | nil => cases unescaped
          | cons next second =>
              rw [List.cons_append, List.nil_append, pathUnescape_escape, notDigit]
                at unescaped
              cases unescaped
      | cons high rest =>
          cases rest with
          | nil =>
              rw [List.cons_append, List.cons_append, List.nil_append,
                pathUnescape_escape, notDigit] at unescaped
              split at unescaped
              · rename_i readLow
                cases readLow
              · cases unescaped
          | cons low rest => exact (short high low rest rfl).elim
  | case5 b rest notEscape ih =>
      rw [List.cons_append, pathUnescape_cons_of_ne b _ notEscape] at unescaped
      obtain ⟨tail, isTail, rfl⟩ := Option.map_eq_some_iff.mp unescaped
      obtain ⟨left, right, isLeft, isRight, rfl⟩ := ih tail isTail
      exact ⟨_, right, by rw [isLeft]; rfl, isRight, rfl⟩

/-! ### `url.Values` -/

abbrev Values := List (GoString × GoString)

def Values.all (values : Values) (key : GoString) : List GoString :=
  (values.filter fun pair => pair.1 = key).map Prod.snd

def Values.get (values : Values) (key : GoString) : GoString :=
  (values.all key).headD []

def Values.del (values : Values) (key : GoString) : Values :=
  values.filter fun pair => pair.1 ≠ key

def Values.addAll (values : Values) (key : GoString) (added : List GoString) : Values :=
  values ++ added.map fun value => (key, value)

def Values.set (values : Values) (key value : GoString) : Values :=
  values.del key ++ [(key, value)]

/-- Sort by key; the values of one key keep their order. -/
def Values.sorted (values : Values) : Values :=
  values.insertionSort fun left right => stringLe left.1 right.1 = true

def encodePair (pair : GoString × GoString) : GoString :=
  queryEscape pair.1 ++ byte '=' :: queryEscape pair.2

def Values.encode (values : Values) : GoString :=
  join (byte '&') (values.sorted.map encodePair)

/-- `strings.Cut` at the first occurrence of a byte. -/
def cut (separator : UInt8) : GoString → GoString × GoString
  | [] => ([], [])
  | b :: rest =>
      if b = separator then ([], rest)
      else ((b :: (cut separator rest).1), (cut separator rest).2)

/-- One round of the loop of `parseQuery`. -/
def parsePair (segment : GoString) : Except QueryError Values :=
  if segment.contains (byte ';') then .error .semicolon
  else if segment = [] then .ok []
  else
    match queryUnescape (cut (byte '=') segment).1 with
    | .error error => .error error
    | .ok key =>
        match queryUnescape (cut (byte '=') segment).2 with
        | .error error => .error error
        | .ok value => .ok [(key, value)]

/-- The loop of `parseQuery`: the pairs that could be read, and an error if
there was one.  A bad pair does not stop the loop, and a semicolon replaces an
earlier error. -/
def parseSegments (query : Values × Option QueryError) (segment : GoString) :
    Values × Option QueryError :=
  match parsePair segment with
  | .ok pairs => (query.1 ++ pairs, query.2)
  | .error .semicolon => (query.1, some .semicolon)
  | .error error => (query.1, some (query.2.getD error))

def parseQuery (query : GoString) : Values × Option QueryError :=
  (split (byte '&') query).foldl parseSegments ([], none)

/-- `url.URL.Query`. -/
def Url.query (url : Url) : Values :=
  (parseQuery url.rawQuery).1

/-! ### `http.Request.ParseForm` -/

def formMediaType : GoString :=
  ascii "application/x-www-form-urlencoded"

/-- A request without the field is taken to have the type of an unknown body. -/
def Request.contentType (request : Request) : GoString :=
  if request.header.get (ascii "Content-Type") = [] then ascii "application/octet-stream"
  else request.header.get (ascii "Content-Type")

def Request.isForm (request : Request) : Bool :=
  parseMediaType request.contentType = (formMediaType, none)

/-- The methods for which `ParseForm` reads the body. -/
def Request.sendsForm (request : Request) : Bool :=
  request.method = methodPost || request.method = methodPut || request.method = methodPatch

def maxFormSize : Nat := 10485760

inductive FormError where
  | media (error : MediaTypeError)
  | tooLarge
  | query (error : QueryError)
deriving DecidableEq, Repr

def FormError.text : FormError → GoString
  | .media error => error.text
  | .tooLarge => ascii "http: POST too large"
  | .query error => error.text

/-- The form of the body, and the request with the body read. -/
def Request.parsePostForm (request : Request) : Except FormError (Values × Request) :=
  match parseMediaType request.contentType with
  | (mediatype, error) =>
      if mediatype = formMediaType then
        if request.body.length > maxFormSize then .error .tooLarge
        else
          match error, parseQuery request.body with
          | some error, _ => .error (.media error)
          | none, (form, none) => .ok (form, { request with body := [] })
          | none, (_, some error) => .error (.query error)
      else
        match error with
        | some error => .error (.media error)
        | none => .ok ([], request)

def Request.parseForm (request : Request) : Except FormError (Values × Request) :=
  match if request.sendsForm then request.parsePostForm else .ok ([], request) with
  | .error error => .error error
  | .ok result =>
      -- The URL query is parsed too, and its errors are reported.
      match (parseQuery request.url.rawQuery).2 with
      | some error => .error (.query error)
      | none => .ok result

/-- The parameters that a server reads from the body.  A malformed parameter of the
media type, or a malformed pair, does not hide the others from a server that goes on
after the error. -/
def Request.bodyForm (request : Request) : Values :=
  if request.sendsForm = true ∧ (parseMediaType request.contentType).1 = formMediaType then
    (parseQuery request.body).1
  else []

theorem Request.bodyForm_of_isForm (request : Request) (sends : request.sendsForm = true)
    (isForm : request.isForm = true) : request.bodyForm = (parseQuery request.body).1 := by
  have isMedia := of_decide_eq_true isForm
  rw [Request.bodyForm, if_pos ⟨sends, by rw [isMedia]⟩]

theorem Request.bodyForm_of_not_sendsForm (request : Request)
    (silent : request.sendsForm = false) : request.bodyForm = [] := by
  rw [Request.bodyForm, if_neg]
  rintro ⟨sends, -⟩
  rw [silent] at sends
  cases sends

/-- A form that could be parsed has the pairs that a server reads from the body.
Parsing it leaves everything but the body alone. -/
theorem Request.parseForm_ok (request : Request) (form : Values) (consumed : Request)
    (parsed : request.parseForm = .ok (form, consumed)) :
    form = request.bodyForm ∧ consumed = { request with body := consumed.body } := by
  unfold Request.parseForm at parsed
  split at parsed
  · cases parsed
  rename_i result isResult
  split at parsed
  · cases parsed
  cases parsed
  cases sends : request.sendsForm with
  | false =>
      rw [sends, if_neg Bool.false_ne_true] at isResult
      cases isResult
      exact ⟨(request.bodyForm_of_not_sendsForm sends).symm, rfl⟩
  | true =>
      rw [sends, if_pos rfl, Request.parsePostForm] at isResult
      unfold Request.bodyForm
      cases isMedia : parseMediaType request.contentType with
      | mk mediatype error =>
          rw [isMedia] at isResult
          dsimp only at isResult
          by_cases isForm : mediatype = formMediaType
          · rw [if_pos isForm] at isResult
            split at isResult
            · cases isResult
            split at isResult
            · cases isResult
            · rename_i readForm isRead
              cases isResult
              rw [if_pos ⟨sends, isForm⟩, isRead]
              exact ⟨rfl, rfl⟩
            · cases isResult
          · rw [if_neg isForm] at isResult
            split at isResult
            · cases isResult
            · cases isResult
              rw [if_neg (fun both => isForm both.2)]
              exact ⟨rfl, rfl⟩

/-! ### Parsing undoes encoding -/

private theorem hexDigitValue_upperHexDigit (b : UInt8) :
    ∃ high low, hexDigitValue (upperHexDigit (b / 16)) = some high ∧
      hexDigitValue (upperHexDigit (b % 16)) = some low ∧ 16 * high + low = b := by
  have inspected := forall_byte
    (fun b => decide (hexDigitValue (upperHexDigit (b / 16)) = some (b / 16) ∧
      hexDigitValue (upperHexDigit (b % 16)) = some (b % 16) ∧
      16 * (b / 16) + b % 16 = b))
    (by decide +kernel) b
  exact ⟨b / 16, b % 16, of_decide_eq_true inspected⟩

private theorem isUnreserved_plain (b : UInt8) (unreserved : isUnreserved b = true) :
    b ≠ byte '%' ∧ b ≠ byte '+' := by
  constructor
  · intro same
    rw [same] at unreserved
    exact absurd unreserved (by decide)
  · intro same
    rw [same] at unreserved
    exact absurd unreserved (by decide)

private theorem queryUnescape_escapeByte_append (b : UInt8) (rest : GoString) :
    queryUnescape (queryEscapeByte b ++ rest) =
      (queryUnescape rest).map fun text => b :: text := by
  unfold queryEscapeByte
  by_cases unreserved : isUnreserved b = true
  · obtain ⟨notPercent, notPlus⟩ := isUnreserved_plain b unreserved
    rw [if_pos unreserved, List.singleton_append, queryUnescape.eq_def]
    simp [notPercent, notPlus]
  · rw [if_neg unreserved]
    by_cases space : b = byte ' '
    · have notPercent : byte '+' ≠ byte '%' := by decide
      rw [if_pos space, List.singleton_append, queryUnescape.eq_def]
      simp [notPercent, space]
    · obtain ⟨high, low, highValue, lowValue, same⟩ := hexDigitValue_upperHexDigit b
      rw [if_neg space, queryUnescape.eq_def]
      simp [highValue, lowValue, same]

theorem queryUnescape_queryEscape (text : GoString) :
    queryUnescape (queryEscape text) = .ok text := by
  induction text with
  | nil => rfl
  | cons b rest ih =>
      have unfolded : queryEscape (b :: rest) = queryEscapeByte b ++ queryEscape rest := by
        simp [queryEscape]
      rw [unfolded, queryUnescape_escapeByte_append, ih]
      rfl

private theorem queryEscape_separators (text : GoString) :
    byte '&' ∉ queryEscape text ∧ byte '=' ∉ queryEscape text ∧
      byte ';' ∉ queryEscape text := by
  have inspected := forall_byte
    (fun b => decide (byte '&' ∉ queryEscapeByte b ∧ byte '=' ∉ queryEscapeByte b ∧
      byte ';' ∉ queryEscapeByte b))
    (by decide +kernel)
  simp only [decide_eq_true_eq] at inspected
  simp only [queryEscape, List.mem_flatMap, not_exists, not_and]
  exact ⟨fun b _ => (inspected b).1, fun b _ => (inspected b).2.1,
    fun b _ => (inspected b).2.2⟩

private theorem cut_append (separator : UInt8) (before after : GoString)
    (absent : separator ∉ before) :
    cut separator (before ++ separator :: after) = (before, after) := by
  induction before with
  | nil => simp [cut]
  | cons b before ih =>
      rw [List.mem_cons, not_or] at absent
      rw [List.cons_append, cut, if_neg (Ne.symm absent.1), ih absent.2]

private theorem parsePair_encodePair (pair : GoString × GoString) :
    parsePair (encodePair pair) = .ok [pair] := by
  obtain ⟨key, value⟩ := pair
  have keySeparators := queryEscape_separators key
  have valueSeparators := queryEscape_separators value
  have noSemicolon : (encodePair (key, value)).contains (byte ';') = false := by
    have different : byte ';' ≠ byte '=' := by decide
    simp [encodePair, keySeparators.2.2, valueSeparators.2.2, different]
  have nonempty : encodePair (key, value) ≠ [] := by simp [encodePair]
  unfold parsePair
  rw [if_neg (by simp only [noSemicolon]; decide), if_neg nonempty]
  simp only [encodePair, cut_append _ _ _ keySeparators.2.1, queryUnescape_queryEscape]

private theorem foldl_parseSegments (pairs : Values) (start : Values) :
    (pairs.map encodePair).foldl parseSegments (start, none) = (start ++ pairs, none) := by
  induction pairs generalizing start with
  | nil => simp
  | cons pair rest ih =>
      have first : parseSegments (start, none) (encodePair pair) =
          (start ++ [pair], none) := by
        simp [parseSegments, parsePair_encodePair]
      rw [List.map_cons, List.foldl_cons, first, ih]
      simp

theorem parseQuery_encode (values : Values) :
    parseQuery values.encode = (values.sorted, none) := by
  unfold parseQuery Values.encode
  cases empty : values.sorted with
  | nil => rfl
  | cons pair rest =>
      rw [split_join, foldl_parseSegments, List.nil_append]
      · simp
      · intro segment member ampersand
        obtain ⟨encoded, -, rfl⟩ := List.mem_map.mp member
        have different : byte '&' ≠ byte '=' := by decide
        simp [encodePair, queryEscape_separators, different] at ampersand

private theorem stringLe_refl (text : GoString) : stringLe text text = true := by
  induction text with
  | nil => rfl
  | cons b rest ih => simp [stringLe, ih]

private theorem all_orderedInsert (pair : GoString × GoString) (values : Values)
    (key : GoString) :
    Values.all (values.orderedInsert
        (fun left right => stringLe left.1 right.1 = true) pair) key =
      Values.all (pair :: values) key := by
  induction values with
  | nil => rfl
  | cons first rest ih =>
      rw [List.orderedInsert]
      split
      · rfl
      · -- The insertion passes `first`, so its key differs from that of `pair`.
        rename_i larger
        have different : first.1 ≠ pair.1 := by
          intro same
          rw [same, stringLe_refl] at larger
          exact larger rfl
        unfold Values.all at ih ⊢
        simp only [List.filter_cons] at ih ⊢
        by_cases here : first.1 = key
        · have elsewhere : pair.1 ≠ key := by
            intro same
            exact different (here.trans same.symm)
          simp [here, elsewhere] at ih ⊢
          exact ih
        · simp [here] at ih ⊢
          exact ih

@[simp] theorem Values.all_sorted (values : Values) (key : GoString) :
    values.sorted.all key = values.all key := by
  induction values with
  | nil => rfl
  | cons pair rest ih =>
      unfold Values.sorted at ih ⊢
      rw [List.insertionSort_cons, all_orderedInsert]
      unfold Values.all at ih ⊢
      simp only [List.filter_cons]
      split
      · rw [List.map_cons, List.map_cons, ih]
      · exact ih

/-- The values that a receiver reads under a key are those that were encoded. -/
@[simp] theorem Values.all_parseQuery_encode (values : Values) (key : GoString) :
    (parseQuery values.encode).1.all key = values.all key := by
  rw [parseQuery_encode, Values.all_sorted]

/-! ### The values of one key after an update -/

@[simp] theorem Values.all_del_self (values : Values) (key : GoString) :
    (values.del key).all key = [] := by
  simp [Values.all, Values.del, List.filter_filter]

theorem Values.all_del_of_ne (values : Values) (key other : GoString)
    (different : other ≠ key) : (values.del key).all other = values.all other := by
  unfold Values.all Values.del
  rw [List.filter_filter]
  congr 1
  apply List.filter_congr
  intro pair _
  by_cases here : pair.1 = other
  · simp [here, different]
  · simp [here]

@[simp] theorem Values.all_append (left right : Values) (key : GoString) :
    Values.all (left ++ right) key = left.all key ++ right.all key := by
  simp [Values.all]

@[simp] theorem Values.all_addAll_self (values : Values) (key : GoString)
    (added : List GoString) :
    (values.addAll key added).all key = values.all key ++ added := by
  simp [Values.addAll, Values.all, List.filter_map, Function.comp_def]

theorem Values.all_addAll_of_ne (values : Values) (key other : GoString)
    (added : List GoString) (different : other ≠ key) :
    (values.addAll key added).all other = values.all other := by
  simp [Values.addAll, Values.all, List.filter_map, Function.comp_def, Ne.symm different]

@[simp] theorem Values.all_set_self (values : Values) (key value : GoString) :
    (values.set key value).all key = [value] := by
  rw [Values.set, Values.all_append, Values.all_del_self]
  simp [Values.all]

theorem Values.all_set_of_ne (values : Values) (key value other : GoString)
    (different : other ≠ key) : (values.set key value).all other = values.all other := by
  rw [Values.set, Values.all_append, values.all_del_of_ne key other different]
  simp [Values.all, Ne.symm different]

end McoaGateway
