/-
JSON documents, and their decoding into Go values (`encoding/json`).

An object is the list of its members; the order of the members means nothing,
and a document that was read has no key twice (`Json.Distinct`).  A value is
decoded into a variable that may have been set before: a member with the name of
a field in other letter case is decoded into the same field.
-/

import McoaGateway.Loops
import McoaGateway.Url

namespace McoaGateway

open GoString

inductive Json where
  | null
  | bool (b : Bool)
  | number (text : GoString)
  | string (text : GoString)
  | array (elements : List Json)
  | object (members : List (GoString × Json))
deriving Repr

namespace Json

def members : Json → List (GoString × Json)
  | .object members => members
  | _ => []

def member (doc : Json) (key : GoString) : Option Json :=
  doc.members.lookup key

inductive Distinct : Json → Prop where
  | null : Distinct .null
  | bool (b : Bool) : Distinct (.bool b)
  | number (text : GoString) : Distinct (.number text)
  | string (text : GoString) : Distinct (.string text)
  | array (elements : List Json) (each : ∀ element ∈ elements, Distinct element) :
      Distinct (.array elements)
  | object (members : List (GoString × Json)) (keys : (members.map Prod.fst).Nodup)
      (each : ∀ m ∈ members, Distinct m.2) : Distinct (.object members)

/-! ### Fields of structs -/

/-- Whether a key names a field.  The name has small letters only; apart from
the capital letters there are the Kelvin sign and the long s. -/
def equalFold : GoString → GoString → Bool
  | [], key => key.isEmpty
  | c :: name, key =>
      match key with
      | [] => false
      | b :: rest =>
          (toLowerByte b = c && equalFold name rest) ||
            (c = byte 's' && hasPrefix (b :: rest) [0xC5, 0xBF] && equalFold name (rest.drop 1)) ||
            (c = byte 'k' && hasPrefix (b :: rest) [0xE2, 0x84, 0xAA] &&
              equalFold name (rest.drop 2))

/-- Decode the members that name a field, one after the other. -/
def field {α : Type} (name : GoString) (into : α → Json → Option α) (prior : α) :
    Json → Option α
  | .null => some prior
  | .object members =>
      (members.filter fun m => equalFold name m.1).foldlM (fun value m => into value m.2) prior
  | _ => none

/-- Field names: small letters, for which other letters must not be taken. -/
def IsName (name : GoString) : Prop :=
  ∀ b ∈ name, toLowerByte b = b

theorem equalFold_self (name : GoString) (isName : IsName name) : equalFold name name = true := by
  induction name with
  | nil => rfl
  | cons c rest ih =>
      have isRest : IsName rest := fun b member => isName b (List.mem_cons_of_mem _ member)
      rw [equalFold]
      simp [isName c List.mem_cons_self, ih isRest]

/-- When the keys that name a field are the name itself, the field is its member. -/
theorem field_eq {α : Type} (name : GoString) (into : α → Json → Option α) (prior : α)
    (members : List (GoString × Json)) (isName : IsName name)
    (keys : (members.map Prod.fst).Nodup)
    (exact : ∀ m ∈ members, equalFold name m.1 = true → m.1 = name) :
    field name into prior (.object members) =
      match members.lookup name with
      | none => some prior
      | some value => into prior value := by
  have named : members.filter (fun m => equalFold name m.1) =
      ((members.lookup name).map fun value => (name, value)).toList := by
    induction members with
    | nil => rfl
    | cons m rest ih =>
        rw [List.map_cons, List.nodup_cons] at keys
        rw [List.forall_mem_cons] at exact
        by_cases isNamed : m.1 = name
        · have notLater : rest.filter (fun m => equalFold name m.1) = [] := by
            rw [List.filter_eq_nil_iff]
            intro other member sameName
            apply keys.1
            rw [isNamed, ← exact.2 other member sameName]
            exact List.mem_map_of_mem member
          rw [List.filter_cons_of_pos (by rw [isNamed]; exact equalFold_self name isName), notLater,
            List.lookup_cons, ← isNamed]
          simp
        · have other : (name == m.1) = false := by
            simpa using fun same : name = m.1 => isNamed same.symm
          have notNamed : ¬ equalFold name m.1 = true := fun sameName => isNamed (exact.1 sameName)
          rw [List.filter_cons, if_neg notNamed, ih keys.2 exact.2, List.lookup_cons, other]
  rw [field, named]
  cases members.lookup name with
  | none => rfl
  | some value =>
      simp only [Option.map_some, Option.toList_some, List.foldlM_cons, List.foldlM_nil]
      exact bind_pure _

/-! ### Strings, maps and slices -/

/-- A variable of type `string`. -/
def decodeString (prior : GoString) : Json → Option GoString
  | .string text => some text
  | .null => some prior
  | _ => none

/-- A map from strings to strings, with every key once. -/
abbrev StringMap := List (GoString × GoString)

def StringMap.set (key value : GoString) : StringMap → StringMap
  | [] => [(key, value)]
  | entry :: rest =>
      if entry.1 = key then (key, value) :: rest else entry :: StringMap.set key value rest

/-- A variable of type `map[string]string`; `null` makes it `nil`. -/
def decodeMap (prior : Option StringMap) : Json → Option (Option StringMap)
  | .null => some none
  | .object members =>
      (members.foldlM (fun (map : StringMap) m =>
        (decodeString [] m.2).map fun value => map.set m.1 value) (prior.getD [])).map some
  | _ => none

/-- A slice: its elements, and what is left in the memory behind them. -/
structure Slice (α : Type) where
  elements : List α
  spare : List α

/-- A variable that is a slice.  Elements are decoded into the memory that the
slice has already. -/
def decodeSlice {α : Type} (zero : α) (into : α → Json → Option α) (prior : Option (Slice α)) :
    Json → Option (Option (Slice α))
  | .null => some none
  | .array elements =>
      let memory := prior.elim [] fun slice => slice.elements ++ slice.spare
      (elements.zipIdx.mapM fun (element, i) => into (memory.getD i zero) element).map
        fun decoded => some ⟨decoded, memory.drop elements.length⟩
  | _ => none

def encodeMap (map : StringMap) : Json :=
  .object (map.map fun (key, value) => (key, .string value))

/-- A field with the option `omitempty`. -/
def encodeOptional (key : GoString) (map : Option StringMap) : List (GoString × Json) :=
  if map.getD [] = [] then [] else [(key, encodeMap (map.getD []))]

/-! ### Maps -/

namespace StringMap

theorem lookup_set_self (key value : GoString) (map : StringMap) :
    (map.set key value).lookup key = some value := by
  induction map with
  | nil => simp [StringMap.set]
  | cons entry rest ih =>
      rw [StringMap.set]
      split
      · simp
      · rename_i other
        have notHere : (key == entry.1) = false := by
          simpa using fun same : key = entry.1 => other same.symm
        rw [List.lookup_cons, notHere, ih]

theorem lookup_set_of_ne (key other value : GoString) (map : StringMap) (different : other ≠ key) :
    (map.set key value).lookup other = map.lookup other := by
  have notHere : (other == key) = false := by simpa using different
  induction map with
  | nil => simp [StringMap.set, notHere]
  | cons entry rest ih =>
      rw [StringMap.set]
      split
      · rename_i same
        rw [List.lookup_cons, List.lookup_cons, same, notHere]
      · rw [List.lookup_cons, List.lookup_cons, ih]

theorem keys_set (key value : GoString) (map : StringMap) :
    (map.set key value).map Prod.fst =
      if key ∈ map.map Prod.fst then map.map Prod.fst else map.map Prod.fst ++ [key] := by
  induction map with
  | nil => rfl
  | cons entry rest ih =>
      rw [StringMap.set]
      by_cases same : entry.1 = key
      · simp [same]
      · rw [if_neg same, List.map_cons, ih, List.map_cons]
        have notHere : ¬ key = entry.1 := fun equal => same equal.symm
        by_cases later : key ∈ rest.map Prod.fst
        · simp [later]
        · simp [later, notHere]

theorem nodup_set (key value : GoString) (map : StringMap) (keys : (map.map Prod.fst).Nodup) :
    ((map.set key value).map Prod.fst).Nodup := by
  rw [keys_set]
  split
  · exact keys
  · rename_i absent
    rw [List.nodup_append]
    refine ⟨keys, List.nodup_singleton key, ?_⟩
    rintro a inMap b isKey rfl
    rw [List.mem_singleton] at isKey
    exact absent (isKey ▸ inMap)

theorem set_of_not_mem (key value : GoString) (map : StringMap)
    (absent : key ∉ map.map Prod.fst) : map.set key value = map ++ [(key, value)] := by
  induction map with
  | nil => rfl
  | cons entry rest ih =>
      rw [List.map_cons, List.mem_cons, not_or] at absent
      rw [StringMap.set, if_neg (fun same => absent.1 same.symm), ih absent.2, List.cons_append]

theorem set_ne_nil (key value : GoString) (map : StringMap) : map.set key value ≠ [] := by
  cases map with
  | nil => exact List.cons_ne_nil _ _
  | cons entry rest =>
      rw [StringMap.set]
      split
      · exact List.cons_ne_nil _ _
      · exact List.cons_ne_nil _ _

end StringMap

def decodeEntry (m : GoString × Json) : Option (GoString × GoString) :=
  (decodeString [] m.2).map fun value => (m.1, value)

/-- Where no key comes twice, the entries of a map are decoded on their own. -/
theorem decodeMap_object (prior : Option StringMap) (members : List (GoString × Json))
    (keys : ((prior.getD []).map Prod.fst ++ members.map Prod.fst).Nodup) :
    decodeMap prior (.object members) =
      (members.mapM decodeEntry).map fun entries => some (prior.getD [] ++ entries) := by
  rw [decodeMap]
  have general : ∀ map : StringMap, (map.map Prod.fst ++ members.map Prod.fst).Nodup →
      members.foldlM (fun (map : StringMap) m =>
          (decodeString [] m.2).map fun value => map.set m.1 value) map =
        (members.mapM decodeEntry).map fun entries => map ++ entries := by
    clear keys
    induction members with
    | nil =>
        intro map _
        simp
    | cons m rest ih =>
        intro map distinct
        rw [List.foldlM_cons, List.mapM_cons, decodeEntry]
        cases decodeString [] m.2 with
        | none => rfl
        | some value =>
            have absent : m.1 ∉ map.map Prod.fst := by
              intro member
              rw [List.nodup_append] at distinct
              exact distinct.2.2 m.1 member m.1 (by simp) rfl
            have stillDistinct : ((map ++ [(m.1, value)]).map Prod.fst ++
                rest.map Prod.fst).Nodup := by
              simpa using distinct
            simp only [Option.map_some, Option.bind_eq_bind, Option.bind_some]
            rw [StringMap.set_of_not_mem _ _ _ absent, ih _ stillDistinct]
            cases rest.mapM decodeEntry with
            | none => rfl
            | some entries => simp
  rw [general _ keys, Option.map_map]
  rfl

theorem mapM_decodeEntry_encode (map : StringMap) :
    (map.map fun (key, value) => (key, Json.string value)).mapM decodeEntry = some map := by
  induction map with
  | nil => rfl
  | cons entry rest ih =>
      rw [List.map_cons, List.mapM_cons, ih]
      rfl

theorem decodeMap_encodeMap (map : StringMap) (keys : (map.map Prod.fst).Nodup) :
    decodeMap none (encodeMap map) = some (some map) := by
  have ownKeys : (map.map fun (key, value) => (key, Json.string value)).map Prod.fst =
      map.map Prod.fst := by
    rw [List.map_map]
    rfl
  rw [encodeMap, decodeMap_object, mapM_decodeEntry_encode]
  · rfl
  · rw [ownKeys]
    exact keys

theorem decodeMap_nodup (prior decoded : Option StringMap) (doc : Json)
    (priorKeys : ((prior.getD []).map Prod.fst).Nodup)
    (isDecoded : decodeMap prior doc = some decoded) :
    ((decoded.getD []).map Prod.fst).Nodup := by
  cases doc with
  | null =>
      cases isDecoded
      exact List.nodup_nil
  | object members =>
      obtain ⟨map, folded, rfl⟩ := Option.map_eq_some_iff.mp isDecoded
      rw [Option.getD_some]
      clear isDecoded
      generalize prior.getD [] = start at priorKeys folded
      induction members generalizing start with
      | nil =>
          cases folded
          exact priorKeys
      | cons m rest ih =>
          rw [List.foldlM_cons] at folded
          obtain ⟨next, isNext, folded⟩ := Option.bind_eq_some_iff.mp folded
          obtain ⟨value, _, rfl⟩ := Option.map_eq_some_iff.mp isNext
          exact ih _ (StringMap.nodup_set _ _ _ priorKeys) folded
  | bool b => cases isDecoded
  | number text => cases isDecoded
  | string text => cases isDecoded
  | array elements => cases isDecoded

theorem field_decodeMap_nodup (name : GoString) (doc : Json) (decoded : Option StringMap)
    (isDecoded : field name decodeMap none doc = some decoded) :
    ((decoded.getD []).map Prod.fst).Nodup := by
  cases doc with
  | null =>
      cases isDecoded
      exact List.nodup_nil
  | object members =>
      rw [field] at isDecoded
      have general : ∀ (named : List (GoString × Json)) (prior : Option StringMap),
          ((prior.getD []).map Prod.fst).Nodup →
          named.foldlM (fun value m => decodeMap value m.2) prior = some decoded →
          ((decoded.getD []).map Prod.fst).Nodup := by
        intro named
        induction named with
        | nil =>
            intro prior priorKeys folded
            cases folded
            exact priorKeys
        | cons m rest ih =>
            intro prior priorKeys folded
            rw [List.foldlM_cons] at folded
            obtain ⟨next, isNext, folded⟩ := Option.bind_eq_some_iff.mp folded
            exact ih next (decodeMap_nodup prior next m.2 priorKeys isNext) folded
      exact general _ none List.nodup_nil isDecoded
  | bool b => cases isDecoded
  | number text => cases isDecoded
  | string text => cases isDecoded
  | array elements => cases isDecoded

theorem decodeSlice_none {α : Type} (zero : α) (into : α → Json → Option α)
    (elements : List Json) :
    decodeSlice zero into none (.array elements) =
      (elements.mapM (into zero)).map fun decoded => some ⟨decoded, []⟩ := by
  have general : ∀ start, (elements.zipIdx start).mapM
      (fun (element, i) => into (([] : List α).getD i zero) element) =
        elements.mapM (into zero) := by
    induction elements with
    | nil =>
        intro start
        rfl
    | cons element rest ih =>
        intro start
        rw [List.zipIdx_cons, List.mapM_cons, List.mapM_cons, ih]
        rfl
  rw [decodeSlice]
  simp only [Option.elim_none, List.drop_nil]
  rw [general 0]

/-! ### Documents as trees -/

inductive Same : Json → Json → Prop where
  | null : Same .null .null
  | bool (b : Bool) : Same (.bool b) (.bool b)
  | number (text : GoString) : Same (.number text) (.number text)
  | string (text : GoString) : Same (.string text) (.string text)
  | array (elements others : List Json) (lengths : elements.length = others.length)
      (each : ∀ (i : Nat) (a b : Json), elements[i]? = some a → others[i]? = some b → Same a b) :
      Same (.array elements) (.array others)
  | object (members others : List (GoString × Json))
      (keys : ∀ key, (members.lookup key).isSome = (others.lookup key).isSome)
      (each : ∀ key a b, members.lookup key = some a → others.lookup key = some b → Same a b) :
      Same (.object members) (.object others)

theorem Distinct.same {doc : Json} (distinct : doc.Distinct) : Same doc doc := by
  induction distinct with
  | null => exact .null
  | bool b => exact .bool b
  | number text => exact .number text
  | string text => exact .string text
  | array elements each ih =>
      refine .array elements elements rfl ?_
      intro i a b isA isB
      cases isA.symm.trans isB
      exact ih a (List.mem_of_getElem? isA)
  | object members keys each ih =>
      refine .object members members (fun _ => rfl) ?_
      intro key a b isA isB
      cases isA.symm.trans isB
      exact ih (key, a) (mem_of_lookup isA)

theorem Distinct.member {doc value : Json} (distinct : doc.Distinct) {key : GoString}
    (found : doc.member key = some value) : value.Distinct := by
  cases distinct with
  | object members keys each => exact each (key, value) (mem_of_lookup found)
  | _ => cases found

end Json

end McoaGateway
