/-
JSON texts (package `encoding/json`): `json.Unmarshal` and `json.Marshal`.

A map is the list of its members in the order of the keys.  Decoding into an
`interface{}` puts every member in its place, so that of two members with one
key the later one stays, and writing goes through the list as it is.  A number
is a `float64`, given by the text that is written for it.  The main results are
that reading undoes writing for the documents that come from reading, and that
these are all documents that come from reading.
-/

import McoaGateway.Json
import McoaGateway.JsonText.Strings

namespace McoaGateway

open GoString

namespace JsonText

/-! ### Numbers -/

def isDigit (b : UInt8) : Bool :=
  byte '0' ≤ b && b ≤ byte '9'

def isExponent : GoString → Bool
  | [] => true
  | e :: rest =>
      let digits := if rest.head? = some (byte '+') ∨ rest.head? = some (byte '-') then rest.tail
        else rest
      (e = byte 'e' || e = byte 'E') && !digits.isEmpty && digits.all isDigit

def isFraction : GoString → Bool
  | [] => true
  | b :: rest =>
      if b = byte '.' then
        match rest with
        | [] => false
        | digit :: rest => isDigit digit && isExponent (rest.dropWhile isDigit)
      else isExponent (b :: rest)

def isMagnitude : GoString → Bool
  | [] => false
  | b :: rest =>
      if b = byte '0' then isFraction rest
      else isDigit b && isFraction (rest.dropWhile isDigit)

def isNumber : GoString → Bool
  | [] => false
  | b :: rest => if b = byte '-' then isMagnitude rest else isMagnitude (b :: rest)

def isNumberByte (b : UInt8) : Bool :=
  isDigit b || b = byte '+' || b = byte '-' || b = byte '.' || b = byte 'e' || b = byte 'E'

/-- The conversion to a `float64`, which may be out of range, and back to the
shortest text that gives it. -/
structure Numbers where
  normalize : GoString → Option GoString
  written : ∀ text number, normalize text = some number → isNumber number = true
  stable : ∀ text number, normalize text = some number → normalize number = some number

/-! ### Writing -/

mutual

def encode : Json → GoString
  | .null => ascii "null"
  | .bool b => if b then ascii "true" else ascii "false"
  | .number text => text
  | .string text => encodeString text
  | .array elements => byte '[' :: (encodeElements elements ++ [byte ']'])
  | .object members => byte '\x7b' :: (encodeMembers members ++ [byte '\x7d'])

def encodeElements : List Json → GoString
  | [] => []
  | element :: rest =>
      match rest with
      | [] => encode element
      | _ :: _ => encode element ++ byte ',' :: encodeElements rest

def encodeMembers : List (GoString × Json) → GoString
  | [] => []
  | (key, value) :: rest =>
      match rest with
      | [] => encodeString key ++ byte ':' :: encode value
      | _ :: _ => encodeString key ++ byte ':' :: encode value ++ byte ',' :: encodeMembers rest

end

/-! ### Reading -/

/-- What a text is decoded into: the values of its numbers, and what becomes of the
members of an object. -/
structure Target where
  numbers : Numbers
  collect : List (GoString × Json) → List (GoString × Json)
  mem_collect : ∀ members, ∀ m ∈ collect members, m ∈ members
  collect_collect : ∀ members, collect (collect members) = collect members

def isSpace (b : UInt8) : Bool :=
  b = 0x20 || b = 0x09 || b = 0x0D || b = 0x0A

def skipSpace (text : GoString) : GoString :=
  text.dropWhile isSpace

/-- `maxNestingDepth` -/
def maxDepth : Nat := 10000

def readNumber (numbers : Numbers) (text : GoString) : Option (Json × GoString) :=
  let number := text.takeWhile isNumberByte
  if isNumber number then
    (numbers.normalize number).map fun value => (.number value, text.drop number.length)
  else none

def readLiteral (literal : GoString) (value : Json) (text : GoString) :
    Option (Json × GoString) :=
  if hasPrefix text literal then some (value, text.drop literal.length) else none

mutual

/-- A value at the beginning of a text, nested at most so deep, and the text
behind it. -/
def readValue (target : Target) : Nat → Nat → GoString → Option (Json × GoString)
  | 0, _, _ => none
  | _ + 1, _, [] => none
  | rounds + 1, depth, b :: rest =>
      if b = byte '"' then
        (readString rest.length rest).map (Prod.map .string id)
      else if b = byte '\x7b' then
        match depth with
        | 0 => none
        | depth + 1 =>
            if (skipSpace rest).head? = some (byte '\x7d') then
              some (.object [], (skipSpace rest).tail)
            else
              (readMembers target rounds depth (skipSpace rest)).map
                (Prod.map (fun members => .object (target.collect members)) id)
      else if b = byte '[' then
        match depth with
        | 0 => none
        | depth + 1 =>
            if (skipSpace rest).head? = some (byte ']') then
              some (.array [], (skipSpace rest).tail)
            else
              (readElements target rounds depth (skipSpace rest)).map (Prod.map .array id)
      else if b = byte 't' then readLiteral (ascii "true") (.bool true) (b :: rest)
      else if b = byte 'f' then readLiteral (ascii "false") (.bool false) (b :: rest)
      else if b = byte 'n' then readLiteral (ascii "null") .null (b :: rest)
      else readNumber target.numbers (b :: rest)

def readElements (target : Target) : Nat → Nat → GoString → Option (List Json × GoString)
  | 0, _, _ => none
  | rounds + 1, depth, text =>
      match readValue target rounds depth text with
      | none => none
      | some (element, rest) =>
          match skipSpace rest with
          | [] => none
          | b :: rest =>
              if b = byte ',' then
                (readElements target rounds depth (skipSpace rest)).map
                  (Prod.map (element :: ·) id)
              else if b = byte ']' then some ([element], rest)
              else none

def readMembers (target : Target) :
    Nat → Nat → GoString → Option (List (GoString × Json) × GoString)
  | 0, _, _ => none
  | _ + 1, _, [] => none
  | rounds + 1, depth, quote :: text =>
      if quote = byte '"' then
        match readString text.length text with
        | none => none
        | some (key, rest) =>
            match skipSpace rest with
            | [] => none
            | colon :: rest =>
                if colon = byte ':' then
                  match readValue target rounds depth (skipSpace rest) with
                  | none => none
                  | some (value, rest) =>
                      match skipSpace rest with
                      | [] => none
                      | b :: rest =>
                          if b = byte ',' then
                            (readMembers target rounds depth (skipSpace rest)).map
                              (Prod.map ((key, value) :: ·) id)
                          else if b = byte '\x7d' then some ([(key, value)], rest)
                          else none
                else none
      else none

end

/-- `json.Unmarshal` of a text. -/
def decode (target : Target) (text : GoString) : Option Json :=
  match readValue target (text.length + 1) maxDepth (skipSpace text) with
  | none => none
  | some (value, rest) => if skipSpace rest = [] then some value else none

/-! ### Numbers -/

private theorem isNumberByte_of_isDigit (b : UInt8) (digit : isDigit b = true) :
    isNumberByte b = true := by
  simp [isNumberByte, digit]

private theorem isNumberByte_dropWhile (text : GoString)
    (each : ∀ b ∈ text.dropWhile isDigit, isNumberByte b = true) :
    ∀ b ∈ text, isNumberByte b = true := by
  intro b member
  rw [← List.takeWhile_append_dropWhile (p := isDigit) (l := text), List.mem_append] at member
  rcases member with inDigits | later
  · exact isNumberByte_of_isDigit b (List.mem_takeWhile_imp inDigits)
  · exact each b later

private theorem isExponent_bytes (text : GoString) (exponent : isExponent text = true) :
    ∀ b ∈ text, isNumberByte b = true := by
  cases text with
  | nil =>
      intro b member
      cases member
  | cons e rest =>
      simp only [isExponent, Bool.and_eq_true, Bool.or_eq_true, decide_eq_true_eq,
        List.all_eq_true] at exponent
      obtain ⟨⟨isE, -⟩, digits⟩ := exponent
      rw [List.forall_mem_cons]
      constructor
      · rcases isE with rfl | rfl <;> decide
      · cases rest with
        | nil =>
            intro b member
            cases member
        | cons sign rest =>
            rw [List.head?_cons, List.tail_cons] at digits
            by_cases signed : some sign = some (byte '+') ∨ some sign = some (byte '-')
            · rw [if_pos signed] at digits
              rw [List.forall_mem_cons]
              constructor
              · rcases signed with plus | minus
                · cases plus
                  decide
                · cases minus
                  decide
              · intro b member
                exact isNumberByte_of_isDigit b (digits b member)
            · rw [if_neg signed] at digits
              intro b member
              exact isNumberByte_of_isDigit b (digits b member)

private theorem isFraction_bytes (text : GoString) (fraction : isFraction text = true) :
    ∀ b ∈ text, isNumberByte b = true := by
  cases text with
  | nil =>
      intro b member
      cases member
  | cons point rest =>
      rw [isFraction.eq_def] at fraction
      dsimp only at fraction
      by_cases isPoint : point = byte '.'
      · rw [if_pos isPoint] at fraction
        cases rest with
        | nil => cases fraction
        | cons digit rest =>
            rw [Bool.and_eq_true] at fraction
            rw [List.forall_mem_cons, List.forall_mem_cons]
            refine ⟨by rw [isPoint]; decide, isNumberByte_of_isDigit digit fraction.1, ?_⟩
            exact isNumberByte_dropWhile rest (isExponent_bytes _ fraction.2)
      · rw [if_neg isPoint] at fraction
        exact isExponent_bytes _ fraction

private theorem isMagnitude_bytes (text : GoString) (magnitude : isMagnitude text = true) :
    ∀ b ∈ text, isNumberByte b = true := by
  cases text with
  | nil => cases magnitude
  | cons first rest =>
      rw [isMagnitude] at magnitude
      rw [List.forall_mem_cons]
      by_cases zero : first = byte '0'
      · rw [if_pos zero] at magnitude
        exact ⟨by rw [zero]; decide, isFraction_bytes rest magnitude⟩
      · rw [if_neg zero, Bool.and_eq_true] at magnitude
        exact ⟨isNumberByte_of_isDigit first magnitude.1,
          isNumberByte_dropWhile rest (isFraction_bytes _ magnitude.2)⟩

theorem isNumber_bytes (text : GoString) (number : isNumber text = true) :
    ∀ b ∈ text, isNumberByte b = true := by
  cases text with
  | nil => cases number
  | cons sign rest =>
      rw [isNumber] at number
      by_cases minus : sign = byte '-'
      · rw [if_pos minus] at number
        rw [List.forall_mem_cons]
        exact ⟨by rw [minus]; decide, isMagnitude_bytes rest number⟩
      · rw [if_neg minus] at number
        exact isMagnitude_bytes _ number

/-- The bytes with which values other than numbers begin, and those which may
stand between values. -/
def structural : GoString :=
  [byte '"', byte '\x7b', byte '[', byte 't', byte 'f', byte 'n', byte '\x7d', byte ']',
    byte ',', 0x20, 0x09, 0x0D, 0x0A]

private theorem structural_not_isNumberByte : ∀ b ∈ structural, isNumberByte b = false :=
  List.forall_iff_forall_mem.mp (by decide)

theorem isNumber_head (text : GoString) (number : isNumber text = true) :
    ∃ b rest, text = b :: rest ∧ b ∉ structural := by
  cases text with
  | nil => cases number
  | cons b rest =>
      refine ⟨b, rest, rfl, ?_⟩
      intro isStructural
      have byte := isNumber_bytes _ number b List.mem_cons_self
      rw [structural_not_isNumberByte b isStructural] at byte
      cases byte

/-- No byte that could belong to a number comes next. -/
def Delimited (rest : GoString) : Prop :=
  ∀ b, rest.head? = some b → isNumberByte b = false

theorem readNumber_append (numbers : Numbers) (text rest : GoString)
    (normal : numbers.normalize text = some text) (delimited : Delimited rest) :
    readNumber numbers (text ++ rest) = some (.number text, rest) := by
  have number := numbers.written _ _ normal
  have taken : (text ++ rest).takeWhile isNumberByte = text := by
    rw [List.takeWhile_append_of_pos (isNumber_bytes text number)]
    cases rest with
    | nil => simp
    | cons b rest =>
        rw [List.takeWhile_cons_of_neg (by rw [delimited b rfl]; exact Bool.false_ne_true),
          List.append_nil]
  unfold readNumber
  rw [taken]
  dsimp only
  rw [if_pos number, normal, List.drop_left]
  rfl

/-! ### Maps -/

/-- The members of a map in the order of their keys. -/
def insert (key : GoString) (value : Json) : List (GoString × Json) → List (GoString × Json)
  | [] => [(key, value)]
  | m :: rest =>
      if m.1 = key then (key, value) :: rest
      else if stringLe key m.1 then (key, value) :: m :: rest
      else m :: insert key value rest

def collect (members : List (GoString × Json)) : List (GoString × Json) :=
  members.foldl (fun map m => insert m.1 m.2 map) []

def Before (a b : GoString) : Prop :=
  stringLe b a = false

theorem stringLe_antisymm (a b : GoString) (left : stringLe a b = true)
    (right : stringLe b a = true) : a = b := by
  induction a generalizing b with
  | nil =>
      cases b with
      | nil => rfl
      | cons y b => cases right
  | cons x a ih =>
      cases b with
      | nil => cases left
      | cons y b =>
          simp only [stringLe, Bool.or_eq_true, Bool.and_eq_true, decide_eq_true_eq,
            UInt8.lt_iff_toNat_lt] at left right
          have same : x = y := by
            apply UInt8.toNat_inj.mp
            rcases left with less | ⟨rfl, -⟩
            · rcases right with more | ⟨rfl, -⟩
              · omega
              · rfl
            · rfl
          subst same
          rw [ih b (left.resolve_left (by omega)).2 (right.resolve_left (by omega)).2]

theorem stringLe_total (a b : GoString) : stringLe a b = true ∨ stringLe b a = true := by
  induction a generalizing b with
  | nil => exact Or.inl rfl
  | cons x a ih =>
      cases b with
      | nil => exact Or.inr rfl
      | cons y b =>
          simp only [stringLe, Bool.or_eq_true, Bool.and_eq_true, decide_eq_true_eq,
            UInt8.lt_iff_toNat_lt]
          rcases Nat.lt_trichotomy x.toNat y.toNat with less | same | more
          · exact Or.inl (Or.inl less)
          · have same := UInt8.toNat_inj.mp same
            rcases ih b with left | right
            · exact Or.inl (Or.inr ⟨same, left⟩)
            · exact Or.inr (Or.inr ⟨same.symm, right⟩)
          · exact Or.inr (Or.inl more)

theorem stringLe_trans (a b c : GoString) (left : stringLe a b = true)
    (right : stringLe b c = true) : stringLe a c = true := by
  induction a generalizing b c with
  | nil => rfl
  | cons x a ih =>
      cases b with
      | nil => cases left
      | cons y b =>
          cases c with
          | nil => cases right
          | cons z c =>
              simp only [stringLe, Bool.or_eq_true, Bool.and_eq_true, decide_eq_true_eq,
                UInt8.lt_iff_toNat_lt] at left right ⊢
              rcases left with less | ⟨rfl, left⟩
              · apply Or.inl
                rcases right with more | ⟨rfl, -⟩ <;> omega
              · rcases right with more | ⟨rfl, right⟩
                · exact Or.inl more
                · exact Or.inr ⟨rfl, ih b c left right⟩

theorem Before.ne {a b : GoString} (before : Before a b) : a ≠ b := by
  rintro rfl
  rcases stringLe_total a a with same | same <;> exact Bool.noConfusion (before.symm.trans same)

theorem before_of_le {a b : GoString} (le : stringLe a b = true) (different : a ≠ b) :
    Before a b := by
  apply Bool.eq_false_iff.mpr
  intro ge
  exact different (stringLe_antisymm a b le ge)

theorem Before.trans {a b c : GoString} (left : Before a b) (right : Before b c) : Before a c := by
  apply Bool.eq_false_iff.mpr
  intro ge
  have le : stringLe a b = true := (stringLe_total a b).resolve_right (by rw [left]; simp)
  have contradiction := stringLe_trans c a b ge le
  rw [right] at contradiction
  cases contradiction

def Sorted (members : List (GoString × Json)) : Prop :=
  members.Pairwise fun a b => Before a.1 b.1

theorem mem_insert (key : GoString) (value : Json) (members : List (GoString × Json))
    (m : GoString × Json) (member : m ∈ insert key value members) :
    m = (key, value) ∨ m ∈ members := by
  induction members with
  | nil => exact Or.inl (List.mem_singleton.mp member)
  | cons first rest ih =>
      rw [insert] at member
      split_ifs at member
      · rcases List.mem_cons.mp member with isNew | old
        · exact Or.inl isNew
        · exact Or.inr (List.mem_cons_of_mem _ old)
      · rcases List.mem_cons.mp member with isNew | old
        · exact Or.inl isNew
        · exact Or.inr old
      · rcases List.mem_cons.mp member with isFirst | later
        · exact Or.inr (isFirst ▸ List.mem_cons_self)
        · exact (ih later).imp_right (List.mem_cons_of_mem _)

theorem insert_sorted (key : GoString) (value : Json) (members : List (GoString × Json))
    (sorted : Sorted members) : Sorted (insert key value members) := by
  unfold Sorted at sorted ⊢
  induction members with
  | nil => exact List.pairwise_singleton _ _
  | cons first rest ih =>
      rw [List.pairwise_cons] at sorted
      rw [insert]
      split_ifs with same le
      · rw [List.pairwise_cons]
        exact ⟨fun m later => same ▸ sorted.1 m later, sorted.2⟩
      · have new : Before key first.1 := before_of_le le (Ne.symm same)
        rw [List.pairwise_cons, List.forall_mem_cons]
        exact ⟨⟨new, fun m later => new.trans (sorted.1 m later)⟩,
          List.pairwise_cons.mpr sorted⟩
      · rw [List.pairwise_cons]
        refine ⟨?_, ih sorted.2⟩
        intro m later
        rcases mem_insert key value rest m later with rfl | old
        · exact Bool.eq_false_iff.mpr le
        · exact sorted.1 m old

theorem lookup_insert (key : GoString) (value : Json) (members : List (GoString × Json))
    (other : GoString) :
    (insert key value members).lookup other =
      if other = key then some value else members.lookup other := by
  induction members with
  | nil =>
      by_cases isKey : other = key
      · simp [insert, isKey]
      · simp [insert, isKey]
  | cons first rest ih =>
      rw [insert]
      by_cases isKey : other = key
      · subst isKey
        rw [if_pos rfl] at ih ⊢
        split_ifs with same le
        · simp
        · simp
        · have notFirst : (other == first.1) = false := by
            simpa using fun same' : other = first.1 => same same'.symm
          rw [List.lookup_cons, notFirst, ih]
      · have notKey : (other == key) = false := by simpa using isKey
        rw [if_neg isKey] at ih ⊢
        split_ifs with same le
        · rw [List.lookup_cons, notKey, List.lookup_cons, same, notKey]
        · rw [List.lookup_cons, notKey]
        · rw [List.lookup_cons, ih, List.lookup_cons]

theorem insert_last (key : GoString) (value : Json) (members : List (GoString × Json))
    (last : ∀ m ∈ members, Before m.1 key) :
    insert key value members = members ++ [(key, value)] := by
  induction members with
  | nil => rfl
  | cons first rest ih =>
      rw [List.forall_mem_cons] at last
      rw [insert, if_neg last.1.ne, if_neg (by rw [last.1]; exact Bool.false_ne_true),
        ih last.2, List.cons_append]

theorem collect_sorted (members : List (GoString × Json)) : Sorted (collect members) := by
  have fold (map : List (GoString × Json)) (sorted : Sorted map) :
      Sorted (members.foldl (fun map m => insert m.1 m.2 map) map) := by
    induction members generalizing map with
    | nil => exact sorted
    | cons m rest ih => exact ih _ (insert_sorted _ _ _ sorted)
  exact fold [] List.Pairwise.nil

private theorem mem_foldl_insert (members map : List (GoString × Json)) (m : GoString × Json)
    (inFold : m ∈ members.foldl (fun map m => insert m.1 m.2 map) map) :
    m ∈ map ∨ m ∈ members := by
  induction members generalizing map with
  | nil => exact Or.inl inFold
  | cons first rest ih =>
      rcases ih _ inFold with inserted | later
      · rcases mem_insert _ _ _ _ inserted with isFirst | old
        · exact Or.inr (isFirst ▸ List.mem_cons_self)
        · exact Or.inl old
      · exact Or.inr (List.mem_cons_of_mem _ later)

theorem mem_collect (members : List (GoString × Json)) (m : GoString × Json)
    (member : m ∈ collect members) : m ∈ members :=
  (mem_foldl_insert members [] m member).resolve_left (List.not_mem_nil)

theorem collect_of_sorted (members : List (GoString × Json)) (sorted : Sorted members) :
    collect members = members := by
  have fold (map rest : List (GoString × Json)) (all : Sorted (map ++ rest)) :
      rest.foldl (fun map m => insert m.1 m.2 map) map = map ++ rest := by
    induction rest generalizing map with
    | nil => simp
    | cons m rest ih =>
        have last : ∀ old ∈ map, Before old.1 m.1 := by
          intro old member
          exact (List.pairwise_append.mp all).2.2 old member m List.mem_cons_self
        rw [List.foldl_cons, insert_last _ _ _ last, ih _ (by simpa using all)]
        simp
  exact fold [] members sorted

/-- Decoding into an `interface{}`: objects become maps. -/
def Target.value (numbers : Numbers) : Target where
  numbers := numbers
  collect := JsonText.collect
  mem_collect := JsonText.mem_collect
  collect_collect members := collect_of_sorted _ (collect_sorted members)

def verbatim : Numbers where
  normalize text := if isNumber text then some text else none
  written := by
    intro text number normalized
    split_ifs at normalized with isNumber
    cases normalized
    exact isNumber
  stable := by
    intro text number normalized
    split_ifs at normalized with isNumber
    cases normalized
    exact if_pos isNumber

/-- The document itself, with its members in their order. -/
def Target.document : Target where
  numbers := verbatim
  collect := id
  mem_collect _ _ member := member
  collect_collect _ := rfl

/-! ### Reading undoes writing -/

/-- The documents that come from reading a text, nested at most so deep. -/
inductive Canonical (target : Target) : Nat → Json → Prop where
  | null (depth : Nat) : Canonical target depth .null
  | bool (depth : Nat) (b : Bool) : Canonical target depth (.bool b)
  | number (depth : Nat) (text : GoString) (normal : target.numbers.normalize text = some text) :
      Canonical target depth (.number text)
  | string (depth : Nat) (text : GoString) (valid : ValidUtf8 text) :
      Canonical target depth (.string text)
  | array (depth : Nat) (elements : List Json)
      (each : ∀ element ∈ elements, Canonical target depth element) :
      Canonical target (depth + 1) (.array elements)
  | object (depth : Nat) (members : List (GoString × Json))
      (kept : target.collect members = members)
      (keys : ∀ m ∈ members, ValidUtf8 m.1)
      (each : ∀ m ∈ members, Canonical target depth m.2) :
      Canonical target (depth + 1) (.object members)

variable {target : Target}

theorem skipSpace_of_head (b : UInt8) (rest : GoString) (notSpace : isSpace b = false) :
    skipSpace (b :: rest) = b :: rest := by
  unfold skipSpace
  rw [List.dropWhile_cons_of_neg (by rw [notSpace]; exact Bool.false_ne_true)]

theorem Canonical.head {depth : Nat} {value : Json} (canonical : Canonical target depth value) :
    ∃ b rest, encode value = b :: rest ∧ isSpace b = false ∧ b ≠ byte ']' := by
  cases canonical with
  | null => exact ⟨_, _, by rw [encode]; rfl, by decide, by decide⟩
  | bool _ b =>
      cases b with
      | false => exact ⟨_, _, by rw [encode]; rfl, by decide, by decide⟩
      | true => exact ⟨_, _, by rw [encode]; rfl, by decide, by decide⟩
  | number _ text normal =>
      obtain ⟨b, rest, shape, notStructural⟩ :=
        isNumber_head text (target.numbers.written _ _ normal)
      refine ⟨b, rest, by rw [encode, shape], ?_, ?_⟩
      · simp only [structural, List.mem_cons, not_or] at notStructural
        simp only [isSpace, Bool.or_eq_false_iff, decide_eq_false_iff_not]
        tauto
      · simp only [structural, List.mem_cons, not_or] at notStructural
        tauto
  | string _ text valid => exact ⟨_, _, by rw [encode, encodeString], by decide, by decide⟩
  | array depth elements each => exact ⟨_, _, by rw [encode], by decide, by decide⟩
  | object depth members kept keys each => exact ⟨_, _, by rw [encode], by decide, by decide⟩

def ReadsBack (target : Target) (depth : Nat) (value : Json) : Prop :=
  ∀ rounds rest, (encode value).length ≤ rounds → Delimited rest →
    readValue target rounds depth (encode value ++ rest) = some (value, rest)

theorem delimited_cons (b : UInt8) (rest : GoString) (notNumber : isNumberByte b = false) :
    Delimited (b :: rest) := by
  intro first isFirst
  cases isFirst
  exact notNumber

theorem skipSpace_encode {depth : Nat} {value : Json} (canonical : Canonical target depth value)
    (rest : GoString) : skipSpace (encode value ++ rest) = encode value ++ rest := by
  obtain ⟨b, text, shape, notSpace, -⟩ := canonical.head
  rw [shape, List.cons_append, skipSpace_of_head _ _ notSpace]

theorem encodeElements_head {depth : Nat} (element : Json) (others : List Json)
    (canonical : Canonical target depth element) :
    ∃ b text, encodeElements (element :: others) = b :: text ∧ isSpace b = false ∧
      b ≠ byte ']' := by
  obtain ⟨b, text, shape, notSpace, notClosing⟩ := canonical.head
  cases others with
  | nil => exact ⟨b, text, by rw [encodeElements, shape], notSpace, notClosing⟩
  | cons second others =>
      exact ⟨b, _, by rw [encodeElements, shape, List.cons_append], notSpace, notClosing⟩

theorem readElements_encode {depth : Nat} (elements : List Json) (nonempty : elements ≠ [])
    (each : ∀ element ∈ elements, Canonical target depth element)
    (back : ∀ element ∈ elements, ReadsBack target depth element) (rounds : Nat)
    (enough : (encodeElements elements).length < rounds) (rest : GoString) :
    readElements target rounds depth (encodeElements elements ++ byte ']' :: rest) =
      some (elements, rest) := by
  induction elements generalizing rounds with
  | nil => exact (nonempty rfl).elim
  | cons element others ih =>
      rw [List.forall_mem_cons] at each back
      cases rounds with
      | zero => simp at enough
      | succ rounds =>
          cases others with
          | nil =>
              rw [encodeElements] at enough ⊢
              rw [readElements, back.1 rounds _ (by omega) (delimited_cons _ _ (by decide))]
              rfl
          | cons second others =>
              rw [encodeElements] at enough ⊢
              rw [List.length_append, List.length_cons] at enough
              rw [List.append_assoc, List.cons_append, readElements,
                back.1 rounds _ (by omega) (delimited_cons _ _ (by decide))]
              dsimp only
              rw [skipSpace_of_head _ _ (by decide)]
              dsimp only
              have start : skipSpace (encodeElements (second :: others) ++ byte ']' :: rest) =
                  encodeElements (second :: others) ++ byte ']' :: rest := by
                obtain ⟨b, text, begins, notSpace, -⟩ :=
                  encodeElements_head second others (each.2 second List.mem_cons_self)
                rw [begins, List.cons_append, skipSpace_of_head _ _ notSpace]
              rw [if_pos rfl, start,
                ih (by simp) each.2 back.2 rounds (by omega)]
              rfl

theorem encodeMembers_head (m : GoString × Json) (rest : List (GoString × Json)) :
    ∃ text, encodeMembers (m :: rest) = byte '"' :: text := by
  obtain ⟨key, value⟩ := m
  cases rest with
  | nil => exact ⟨_, by rw [encodeMembers, encodeString, List.cons_append]⟩
  | cons second rest =>
      exact ⟨_, by rw [encodeMembers, encodeString, List.cons_append, List.cons_append]⟩

theorem readMembers_encode {depth : Nat} (members : List (GoString × Json))
    (nonempty : members ≠ []) (keys : ∀ m ∈ members, ValidUtf8 m.1)
    (each : ∀ m ∈ members, Canonical target depth m.2)
    (back : ∀ m ∈ members, ReadsBack target depth m.2) (rounds : Nat)
    (enough : (encodeMembers members).length < rounds) (rest : GoString) :
    readMembers target rounds depth (encodeMembers members ++ byte '\x7d' :: rest) =
      some (members, rest) := by
  induction members generalizing rounds with
  | nil => exact (nonempty rfl).elim
  | cons m others ih =>
      obtain ⟨key, value⟩ := m
      rw [List.forall_mem_cons] at keys each back
      -- One member, with its key and its value, and the text that follows it.
      have first (rounds : Nat) (text : GoString) (delimited : Delimited text)
          (enough : (encode value).length ≤ rounds) :
          readMembers target (rounds + 1) depth
              (encodeString key ++ byte ':' :: encode value ++ text) =
            match skipSpace text with
            | [] => none
            | b :: rest =>
                if b = byte ',' then
                  (readMembers target rounds depth (skipSpace rest)).map
                    (Prod.map ((key, value) :: ·) id)
                else if b = byte '\x7d' then some ([(key, value)], rest)
                else none := by
        obtain ⟨body, shape, isKey⟩ :=
          readString_encodeString key (byte ':' :: (encode value ++ text)) keys.1
        rw [List.append_assoc, List.cons_append, shape, readMembers, if_pos rfl, isKey]
        dsimp only
        rw [skipSpace_of_head _ _ (by decide)]
        dsimp only
        rw [if_pos rfl, skipSpace_encode each.1, back.1 rounds text enough delimited]
      cases rounds with
      | zero => simp at enough
      | succ rounds =>
          cases others with
          | nil =>
              rw [encodeMembers] at enough ⊢
              rw [List.length_append, List.length_cons] at enough
              rw [first rounds _ (delimited_cons _ _ (by decide)) (by omega),
                skipSpace_of_head _ _ (by decide)]
              rfl
          | cons second others =>
              rw [encodeMembers] at enough ⊢
              rw [List.length_append, List.length_append, List.length_cons,
                List.length_cons] at enough
              rw [List.append_assoc, List.cons_append,
                first rounds _ (delimited_cons _ _ (by decide)) (by omega),
                skipSpace_of_head _ _ (by decide)]
              dsimp only
              have start : skipSpace (encodeMembers (second :: others) ++ byte '\x7d' :: rest) =
                  encodeMembers (second :: others) ++ byte '\x7d' :: rest := by
                obtain ⟨text, begins⟩ := encodeMembers_head second others
                rw [begins, List.cons_append, skipSpace_of_head _ _ (by decide)]
              rw [if_pos rfl, start,
                ih (by simp) keys.2 each.2 back.2 rounds (by omega)]
              rfl

theorem Canonical.readsBack {depth : Nat} {value : Json}
    (canonical : Canonical target depth value) : ReadsBack target depth value := by
  induction canonical with
  | null depth =>
      intro rounds rest enough delimited
      rw [encode] at enough ⊢
      cases rounds with
      | zero => simp [ascii] at enough
      | succ rounds => rfl
  | bool depth b =>
      intro rounds rest enough delimited
      rw [encode] at enough ⊢
      cases rounds with
      | zero => cases b <;> simp [ascii] at enough
      | succ rounds => cases b <;> rfl
  | number depth text normal =>
      intro rounds rest enough delimited
      rw [encode] at enough ⊢
      obtain ⟨b, tail, shape, notStructural⟩ :=
        isNumber_head text (target.numbers.written _ _ normal)
      simp only [structural, List.mem_cons, not_or] at notStructural
      cases rounds with
      | zero => simp [shape] at enough
      | succ rounds =>
          have isNumber := readNumber_append target.numbers text rest normal delimited
          rw [shape, List.cons_append] at isNumber ⊢
          rw [readValue.eq_def]
          dsimp only
          rw [if_neg notStructural.1, if_neg notStructural.2.1, if_neg notStructural.2.2.1,
            if_neg notStructural.2.2.2.1, if_neg notStructural.2.2.2.2.1,
            if_neg notStructural.2.2.2.2.2.1, isNumber]
  | string depth text valid =>
      intro rounds rest enough delimited
      rw [encode] at enough ⊢
      obtain ⟨body, shape, isText⟩ := readString_encodeString text rest valid
      cases rounds with
      | zero => simp [encodeString] at enough
      | succ rounds =>
          rw [shape, readValue.eq_def]
          dsimp only
          rw [if_pos rfl, isText]
          rfl
  | array depth elements each ih =>
      intro rounds rest enough delimited
      rw [encode] at enough ⊢
      rw [List.length_cons, List.length_append, List.length_singleton] at enough
      cases rounds with
      | zero => omega
      | succ rounds =>
          rw [List.cons_append, List.append_assoc, List.singleton_append, readValue.eq_def]
          dsimp only
          rw [if_neg (by decide), if_neg (by decide), if_pos rfl]
          cases elements with
          | nil =>
              rw [encodeElements, List.nil_append, skipSpace_of_head _ _ (by decide)]
              rfl
          | cons element others =>
              obtain ⟨b, text, begins, notSpace, notClosing⟩ :=
                encodeElements_head element others (each element List.mem_cons_self)
              have start : skipSpace (encodeElements (element :: others) ++ byte ']' :: rest) =
                  encodeElements (element :: others) ++ byte ']' :: rest := by
                rw [begins, List.cons_append, skipSpace_of_head _ _ notSpace]
              have notEmpty : (encodeElements (element :: others) ++ byte ']' :: rest).head? ≠
                  some (byte ']') := by
                rw [begins, List.cons_append, List.head?_cons]
                exact fun same => notClosing (Option.some.inj same)
              rw [start, if_neg notEmpty, readElements_encode _ (by simp) each ih _ (by omega)]
              rfl
  | object depth members kept keys each ih =>
      intro rounds rest enough delimited
      rw [encode] at enough ⊢
      rw [List.length_cons, List.length_append, List.length_singleton] at enough
      cases rounds with
      | zero => omega
      | succ rounds =>
          rw [List.cons_append, List.append_assoc, List.singleton_append, readValue.eq_def]
          dsimp only
          rw [if_neg (by decide), if_pos rfl]
          cases members with
          | nil =>
              rw [encodeMembers, List.nil_append, skipSpace_of_head _ _ (by decide)]
              rfl
          | cons m others =>
              obtain ⟨text, begins⟩ := encodeMembers_head m others
              have start : skipSpace (encodeMembers (m :: others) ++ byte '\x7d' :: rest) =
                  encodeMembers (m :: others) ++ byte '\x7d' :: rest := by
                rw [begins, List.cons_append, skipSpace_of_head _ _ (by decide)]
              have notEmpty : (encodeMembers (m :: others) ++ byte '\x7d' :: rest).head? ≠
                  some (byte '\x7d') := by
                rw [begins, List.cons_append, List.head?_cons]
                decide
              rw [start, if_neg notEmpty,
                readMembers_encode _ (by simp) keys each ih _ (by omega)]
              rw [Option.map_some, Prod.map, kept]
              rfl

theorem Canonical.decode_encode {value : Json} (canonical : Canonical target maxDepth value) :
    decode target (encode value) = some value := by
  have start := skipSpace_encode canonical []
  have back := canonical.readsBack ((encode value).length + 1) [] (by omega)
    (by intro b isFirst; cases isFirst)
  rw [List.append_nil] at start back
  unfold decode
  rw [start, back]
  rfl

/-! ### What is read is canonical -/

theorem Target.collect_nil (target : Target) : target.collect [] = [] := by
  apply List.eq_nil_iff_forall_not_mem.mpr
  intro m member
  exact List.not_mem_nil (target.mem_collect [] m member)

theorem readNumber_canonical (depth : Nat) (text : GoString) (read : Json × GoString)
    (isNumber : readNumber target.numbers text = some read) : Canonical target depth read.1 := by
  unfold readNumber at isNumber
  dsimp only at isNumber
  split_ifs at isNumber
  obtain ⟨value, normalized, rfl⟩ := Option.map_eq_some_iff.mp isNumber
  exact .number depth value (target.numbers.stable _ _ normalized)

theorem readLiteral_canonical (depth : Nat) (literal : GoString) (value : Json) (text : GoString)
    (read : Json × GoString) (isLiteral : readLiteral literal value text = some read)
    (canonical : Canonical target depth value) : Canonical target depth read.1 := by
  unfold readLiteral at isLiteral
  split_ifs at isLiteral
  cases isLiteral
  exact canonical

/-- What the three functions give in so many rounds. -/
structure ReadsCanonical (target : Target) (rounds : Nat) : Prop where
  value : ∀ depth text read, readValue target rounds depth text = some read →
    Canonical target depth read.1
  elements : ∀ depth text read, readElements target rounds depth text = some read →
    ∀ element ∈ read.1, Canonical target depth element
  members : ∀ depth text read, readMembers target rounds depth text = some read →
    ∀ m ∈ read.1, ValidUtf8 m.1 ∧ Canonical target depth m.2

theorem ReadsCanonical.readValue_succ {rounds : Nat} (before : ReadsCanonical target rounds)
    (depth : Nat) (text : GoString) (read : Json × GoString)
    (isValue : readValue target (rounds + 1) depth text = some read) :
    Canonical target depth read.1 := by
  cases text with
  | nil => cases isValue
  | cons b rest =>
      rw [readValue.eq_def] at isValue
      dsimp only at isValue
      by_cases string : b = byte '"'
      · rw [if_pos string] at isValue
        obtain ⟨text, isText, rfl⟩ := Option.map_eq_some_iff.mp isValue
        exact .string depth text.1 (readString_valid _ _ _ isText)
      rw [if_neg string] at isValue
      by_cases object : b = byte '\x7b'
      · rw [if_pos object] at isValue
        cases depth with
        | zero => cases isValue
        | succ depth =>
            dsimp only at isValue
            split_ifs at isValue
            · cases isValue
              exact .object depth [] target.collect_nil (by simp) (by simp)
            · obtain ⟨members, areMembers, rfl⟩ := Option.map_eq_some_iff.mp isValue
              have each := before.members _ _ _ areMembers
              exact .object depth _ (target.collect_collect _)
                (fun m member => (each m (target.mem_collect _ _ member)).1)
                (fun m member => (each m (target.mem_collect _ _ member)).2)
      rw [if_neg object] at isValue
      by_cases array : b = byte '['
      · rw [if_pos array] at isValue
        cases depth with
        | zero => cases isValue
        | succ depth =>
            dsimp only at isValue
            split_ifs at isValue
            · cases isValue
              exact .array depth [] (by simp)
            · obtain ⟨elements, areElements, rfl⟩ := Option.map_eq_some_iff.mp isValue
              exact .array depth _ (before.elements _ _ _ areElements)
      rw [if_neg array] at isValue
      split_ifs at isValue
      · exact readLiteral_canonical depth _ _ _ _ isValue (.bool depth true)
      · exact readLiteral_canonical depth _ _ _ _ isValue (.bool depth false)
      · exact readLiteral_canonical depth _ _ _ _ isValue (.null depth)
      · exact readNumber_canonical depth _ _ isValue

theorem ReadsCanonical.readElements_succ {rounds : Nat} (before : ReadsCanonical target rounds)
    (depth : Nat) (text : GoString) (read : List Json × GoString)
    (areElements : readElements target (rounds + 1) depth text = some read) :
    ∀ element ∈ read.1, Canonical target depth element := by
  rw [readElements.eq_def] at areElements
  dsimp only at areElements
  cases first : readValue target rounds depth text with
  | none =>
      rw [first] at areElements
      cases areElements
  | some value =>
      have canonical := before.value _ _ _ first
      rw [first] at areElements
      dsimp only at areElements
      cases next : skipSpace value.2 with
      | nil =>
          rw [next] at areElements
          cases areElements
      | cons b rest =>
          rw [next] at areElements
          dsimp only at areElements
          split_ifs at areElements
          · obtain ⟨others, areOthers, rfl⟩ := Option.map_eq_some_iff.mp areElements
            rw [Prod.map_fst, List.forall_mem_cons]
            exact ⟨canonical, before.elements _ _ _ areOthers⟩
          · cases areElements
            rw [List.forall_mem_singleton]
            exact canonical

theorem ReadsCanonical.readMembers_succ {rounds : Nat} (before : ReadsCanonical target rounds)
    (depth : Nat) (text : GoString) (read : List (GoString × Json) × GoString)
    (areMembers : readMembers target (rounds + 1) depth text = some read) :
    ∀ m ∈ read.1, ValidUtf8 m.1 ∧ Canonical target depth m.2 := by
  cases text with
  | nil => cases areMembers
  | cons quote text =>
      rw [readMembers.eq_def] at areMembers
      dsimp only at areMembers
      split_ifs at areMembers
      cases first : readString text.length text with
      | none =>
          rw [first] at areMembers
          cases areMembers
      | some key =>
          have valid := readString_valid _ _ _ first
          rw [first] at areMembers
          dsimp only at areMembers
          cases afterKey : skipSpace key.2 with
          | nil =>
              rw [afterKey] at areMembers
              cases areMembers
          | cons colon rest =>
              rw [afterKey] at areMembers
              dsimp only at areMembers
              split_ifs at areMembers
              cases second : readValue target rounds depth (skipSpace rest) with
              | none =>
                  rw [second] at areMembers
                  cases areMembers
              | some value =>
                  have canonical := before.value _ _ _ second
                  rw [second] at areMembers
                  dsimp only at areMembers
                  cases next : skipSpace value.2 with
                  | nil =>
                      rw [next] at areMembers
                      cases areMembers
                  | cons b rest =>
                      rw [next] at areMembers
                      dsimp only at areMembers
                      split_ifs at areMembers
                      · obtain ⟨others, areOthers, rfl⟩ := Option.map_eq_some_iff.mp areMembers
                        rw [Prod.map_fst, List.forall_mem_cons]
                        exact ⟨⟨valid, canonical⟩, before.members _ _ _ areOthers⟩
                      · cases areMembers
                        rw [List.forall_mem_singleton]
                        exact ⟨valid, canonical⟩

theorem readsCanonical (rounds : Nat) : ReadsCanonical target rounds := by
  induction rounds with
  | zero =>
      constructor
      · intro depth text read impossible
        cases impossible
      · intro depth text read impossible
        cases impossible
      · intro depth text read impossible
        cases impossible
  | succ rounds before =>
      exact ⟨before.readValue_succ, before.readElements_succ, before.readMembers_succ⟩

theorem decode_canonical (text : GoString) (value : Json)
    (decoded : decode target text = some value) : Canonical target maxDepth value := by
  unfold decode at decoded
  cases read : readValue target (text.length + 1) maxDepth (skipSpace text) with
  | none =>
      rw [read] at decoded
      cases decoded
  | some found =>
      rw [read] at decoded
      dsimp only at decoded
      split_ifs at decoded
      cases decoded
      exact (readsCanonical _).value _ _ _ read

end JsonText

end McoaGateway
