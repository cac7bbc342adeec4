/-
Documents of rules (`rules/rules.go`, `rules/custom_types.go`).

A document is read from YAML through its JSON form.  A rule is kept as it was
read, and is decoded as a recording rule or as an alerting rule whenever the
code asks for one; members that the types do not have are ignored.
-/

import McoaGateway.Json

namespace McoaGateway.Rules

open GoString Json

/-- The conversions between YAML and JSON (`ghodss/yaml`), and how they write a
number that is wanted as a text. -/
structure Yaml where
  toJson : GoString → Option Json
  ofJson : Json → GoString
  numberText : GoString → GoString
  distinct : ∀ text doc, toJson text = some doc → doc.Distinct

/-! ### Types -/

structure RecordingRule where
  expr : GoString
  labels : Option StringMap
  record : GoString

structure AlertingRule where
  alert : GoString
  annotations : Option StringMap
  expr : GoString
  forDuration : GoString
  labels : Option StringMap

structure RuleGroup where
  interval : GoString
  name : GoString
  rules : Option (List Json)

structure Document where
  groups : Option (List RuleGroup)

/-! ### Decoding -/

def asRecordingRule (item : Json) : Option RecordingRule := do
  let expr ← field (ascii "expr") decodeString [] item
  let labels ← field (ascii "labels") decodeMap none item
  let record ← field (ascii "record") decodeString [] item
  pure ⟨expr, labels, record⟩

def isRecordingRule (item : Json) : Bool :=
  match asRecordingRule item with
  | none => false
  | some rule => rule.record ≠ []

def asAlertingRule (item : Json) : Option AlertingRule := do
  let alert ← field (ascii "alert") decodeString [] item
  let annotations ← field (ascii "annotations") decodeMap none item
  let expr ← field (ascii "expr") decodeString [] item
  let forDuration ← field (ascii "for") decodeString [] item
  let labels ← field (ascii "labels") decodeMap none item
  pure ⟨alert, annotations, expr, forDuration, labels⟩

def isAlertingRule (item : Json) : Bool :=
  match asAlertingRule item with
  | none => false
  | some rule => rule.alert ≠ []

/-- The items of a group; an item takes nothing from the memory that it is
decoded into. -/
def decodeItems (_ : Option (List Json)) : Json → Option (Option (List Json))
  | .null => some none
  | .array items => some (some items)
  | _ => none

section Decoding

variable (yaml : Yaml)

/-- A text outside of the items: numbers and truth values are written out. -/
def decodeText (prior : GoString) : Json → Option GoString
  | .number text => some (yaml.numberText text)
  | .bool b => some (ascii (if b then "true" else "false"))
  | doc => decodeString prior doc

def decodeGroup (prior : RuleGroup) (doc : Json) : Option RuleGroup := do
  let interval ← field (ascii "interval") (decodeText yaml) prior.interval doc
  let name ← field (ascii "name") (decodeText yaml) prior.name doc
  let rules ← field (ascii "rules") decodeItems prior.rules doc
  pure ⟨interval, name, rules⟩

def RuleGroup.zero : RuleGroup :=
  ⟨[], [], none⟩

def decodeRules (doc : Json) : Option Document :=
  (field (ascii "groups") (decodeSlice .zero (decodeGroup yaml)) none doc).map
    fun groups => ⟨groups.map Slice.elements⟩

def unmarshalRules (body : GoString) : Option Document :=
  (yaml.toJson body).bind (decodeRules yaml)

def unmarshalRuleGroup (body : GoString) : Option RuleGroup :=
  (yaml.toJson body).bind (decodeGroup yaml .zero)

end Decoding

/-! ### Encoding -/

def RecordingRule.encode (rule : RecordingRule) : Json :=
  .object ([(ascii "expr", .string rule.expr)] ++ encodeOptional (ascii "labels") rule.labels ++
    [(ascii "record", .string rule.record)])

def AlertingRule.encode (rule : AlertingRule) : Json :=
  .object ([(ascii "alert", .string rule.alert)] ++
    encodeOptional (ascii "annotations") rule.annotations ++
    [(ascii "expr", .string rule.expr), (ascii "for", .string rule.forDuration)] ++
    encodeOptional (ascii "labels") rule.labels)

def encodeList (list : Option (List Json)) : Json :=
  match list with
  | none => .null
  | some elements => .array elements

def RuleGroup.encode (group : RuleGroup) : Json :=
  .object [(ascii "interval", .string group.interval), (ascii "name", .string group.name),
    (ascii "rules", encodeList group.rules)]

def Document.encode (rules : Document) : Json :=
  .object [(ascii "groups", encodeList (rules.groups.map fun groups =>
    groups.map RuleGroup.encode))]

/-! ### Fields -/

def fieldNames : List GoString :=
  ["alert", "annotations", "expr", "for", "groups", "interval", "labels", "name", "record",
    "rules"].map ascii

theorem fieldNames_exact : ∀ name ∈ fieldNames, IsName name ∧
    ∀ key ∈ fieldNames, equalFold name key = true → key = name := by
  have isNames : ∀ name ∈ fieldNames, ∀ b ∈ name, toLowerByte b = b := by decide +kernel
  have differ : ∀ name ∈ fieldNames, ∀ key ∈ fieldNames,
      equalFold name key = true → key = name := by decide
  exact fun name member => ⟨isNames name member, differ name member⟩

structure Fields (doc : Json) : Prop where
  isObject : doc = .object doc.members
  known : ∀ key ∈ doc.members.map Prod.fst, key ∈ fieldNames
  keys : (doc.members.map Prod.fst).Nodup

theorem Fields.field {doc : Json} (fields : Fields doc) {α : Type} (name : GoString)
    (isField : name ∈ fieldNames) (into : α → Json → Option α) (prior : α) :
    Json.field name into prior doc = (doc.member name).elim (some prior) (into prior) := by
  obtain ⟨isName, differ⟩ := fieldNames_exact name isField
  have isMember := field_eq name into prior doc.members isName fields.keys
    fun m member => differ m.1 (fields.known m.1 (List.mem_map_of_mem member))
  rw [← fields.isObject] at isMember
  rw [isMember, Json.member]
  cases doc.members.lookup name with
  | none => rfl
  | some value => rfl

theorem asRecordingRule_eq_some (item : Json) (rule : RecordingRule) :
    asRecordingRule item = some rule ↔
      field (ascii "expr") decodeString [] item = some rule.expr ∧
        field (ascii "labels") decodeMap none item = some rule.labels ∧
        field (ascii "record") decodeString [] item = some rule.record := by
  unfold asRecordingRule
  constructor
  · intro decoded
    obtain ⟨expr, isExpr, decoded⟩ := Option.bind_eq_some_iff.mp decoded
    obtain ⟨labels, isLabels, decoded⟩ := Option.bind_eq_some_iff.mp decoded
    obtain ⟨record, isRecord, decoded⟩ := Option.bind_eq_some_iff.mp decoded
    cases decoded
    exact ⟨isExpr, isLabels, isRecord⟩
  · rintro ⟨isExpr, isLabels, isRecord⟩
    rw [isExpr, isLabels, isRecord]
    rfl

theorem asAlertingRule_eq_some (item : Json) (rule : AlertingRule) :
    asAlertingRule item = some rule ↔
      field (ascii "alert") decodeString [] item = some rule.alert ∧
        field (ascii "annotations") decodeMap none item = some rule.annotations ∧
        field (ascii "expr") decodeString [] item = some rule.expr ∧
        field (ascii "for") decodeString [] item = some rule.forDuration ∧
        field (ascii "labels") decodeMap none item = some rule.labels := by
  unfold asAlertingRule
  constructor
  · intro decoded
    obtain ⟨alert, isAlert, decoded⟩ := Option.bind_eq_some_iff.mp decoded
    obtain ⟨annotations, isAnnotations, decoded⟩ := Option.bind_eq_some_iff.mp decoded
    obtain ⟨expr, isExpr, decoded⟩ := Option.bind_eq_some_iff.mp decoded
    obtain ⟨forDuration, isFor, decoded⟩ := Option.bind_eq_some_iff.mp decoded
    obtain ⟨labels, isLabels, decoded⟩ := Option.bind_eq_some_iff.mp decoded
    cases decoded
    exact ⟨isAlert, isAnnotations, isExpr, isFor, isLabels⟩
  · rintro ⟨isAlert, isAnnotations, isExpr, isFor, isLabels⟩
    rw [isAlert, isAnnotations, isExpr, isFor, isLabels]
    rfl

theorem decodeGroup_eq_some (yaml : Yaml) (prior : RuleGroup) (doc : Json) (group : RuleGroup) :
    decodeGroup yaml prior doc = some group ↔
      field (ascii "interval") (decodeText yaml) prior.interval doc = some group.interval ∧
        field (ascii "name") (decodeText yaml) prior.name doc = some group.name ∧
        field (ascii "rules") decodeItems prior.rules doc = some group.rules := by
  unfold decodeGroup
  constructor
  · intro decoded
    obtain ⟨interval, isInterval, decoded⟩ := Option.bind_eq_some_iff.mp decoded
    obtain ⟨name, isName, decoded⟩ := Option.bind_eq_some_iff.mp decoded
    obtain ⟨rules, isRules, decoded⟩ := Option.bind_eq_some_iff.mp decoded
    cases decoded
    exact ⟨isInterval, isName, isRules⟩
  · rintro ⟨isInterval, isName, isRules⟩
    rw [isInterval, isName, isRules]
    rfl

theorem isRecordingRule_iff (item : Json) :
    isRecordingRule item = true ↔
      ∃ rule, asRecordingRule item = some rule ∧ rule.record ≠ [] := by
  unfold isRecordingRule
  cases asRecordingRule item with
  | none => simp
  | some rule => simp

theorem isAlertingRule_iff (item : Json) :
    isAlertingRule item = true ↔
      ∃ rule, asAlertingRule item = some rule ∧ rule.alert ≠ [] := by
  unfold isAlertingRule
  cases asAlertingRule item with
  | none => simp
  | some rule => simp

/-! ### Reading back what was encoded -/

def written (map : Option StringMap) : Option StringMap :=
  if map.getD [] = [] then none else map

theorem lookup_encodeOptional (key other : GoString) (map : Option StringMap) :
    (encodeOptional key map).lookup other =
      if other = key then (written map).map encodeMap else none := by
  unfold encodeOptional written
  cases map with
  | none => simp
  | some entries =>
      rw [Option.getD_some]
      split
      · simp
      · by_cases same : other = key
        · simp [same]
        · have notHere : (other == key) = false := by simpa using same
          simp [List.lookup_cons, notHere, same]

theorem keys_encodeOptional (key : GoString) (map : Option StringMap) :
    (encodeOptional key map).map Prod.fst = if map.getD [] = [] then [] else [key] := by
  unfold encodeOptional
  split
  · rfl
  · rfl

theorem lookup_cons_ite {α : Type} (key other : GoString) (value : α)
    (rest : List (GoString × α)) :
    ((key, value) :: rest).lookup other =
      if other = key then some value else rest.lookup other := by
  rw [List.lookup_cons]
  by_cases same : other = key
  · simp [same]
  · have notHere : (other == key) = false := by simpa using same
    rw [notHere, if_neg same]

theorem decodeMap_written (map : Option StringMap) (keys : ((map.getD []).map Prod.fst).Nodup) :
    ((written map).map encodeMap).elim (some none) (decodeMap none) = some (written map) := by
  by_cases empty : map.getD [] = []
  · rw [written, if_pos empty]
    rfl
  · rw [written, if_neg empty]
    cases map with
    | none => rfl
    | some entries => exact decodeMap_encodeMap entries keys

section RecordingRules

variable (rule : RecordingRule)

theorem RecordingRule.keys_encode :
    rule.encode.members.map Prod.fst =
      if rule.labels.getD [] = [] then [ascii "expr", ascii "record"]
      else [ascii "expr", ascii "labels", ascii "record"] := by
  unfold RecordingRule.encode Json.members
  rw [List.map_append, List.map_append, keys_encodeOptional]
  split
  · rfl
  · rfl

theorem RecordingRule.fields_encode : Fields rule.encode where
  isObject := rfl
  known := by
    rw [rule.keys_encode]
    split
    · decide
    · decide
  keys := by
    rw [rule.keys_encode]
    split
    · decide
    · decide

theorem RecordingRule.member_encode (key : GoString) :
    rule.encode.member key =
      if key = ascii "expr" then some (.string rule.expr)
      else if key = ascii "labels" then (written rule.labels).map encodeMap
      else if key = ascii "record" then some (.string rule.record)
      else none := by
  unfold RecordingRule.encode Json.member Json.members
  rw [List.append_assoc, List.cons_append, List.nil_append, lookup_cons_ite, List.lookup_append,
    lookup_encodeOptional, lookup_cons_ite]
  by_cases isLabels : key = ascii "labels"
  · have notRecord : ¬ key = ascii "record" := by
      rw [isLabels]
      decide
    rw [if_pos isLabels, if_pos isLabels, if_neg notRecord]
    simp
  · rw [if_neg isLabels, if_neg isLabels, Option.none_or]
    rfl

theorem asRecordingRule_encode (keys : ((rule.labels.getD []).map Prod.fst).Nodup) :
    asRecordingRule rule.encode = some { rule with labels := written rule.labels } := by
  have read := @(rule.fields_encode).field
  rw [asRecordingRule_eq_some]
  refine ⟨?_, ?_, ?_⟩
  · rw [read _ (by decide), rule.member_encode]
    rfl
  · rw [read _ (by decide), rule.member_encode]
    exact decodeMap_written rule.labels keys
  · rw [read _ (by decide), rule.member_encode]
    rfl

theorem isAlertingRule_recording : isAlertingRule rule.encode = false := by
  rw [← Bool.not_eq_true, isAlertingRule_iff]
  rintro ⟨alerting, decoded, isAlert⟩
  rw [asAlertingRule_eq_some, rule.fields_encode.field _ (by decide), rule.member_encode] at decoded
  have noAlert : some ([] : GoString) = some alerting.alert := decoded.1
  exact isAlert (Option.some.inj noAlert).symm

end RecordingRules

section AlertingRules

variable (rule : AlertingRule)

theorem AlertingRule.keys_encode :
    rule.encode.members.map Prod.fst =
      [ascii "alert"] ++ (if rule.annotations.getD [] = [] then [] else [ascii "annotations"]) ++
        [ascii "expr", ascii "for"] ++
        (if rule.labels.getD [] = [] then [] else [ascii "labels"]) := by
  unfold AlertingRule.encode Json.members
  rw [List.map_append, List.map_append, List.map_append, keys_encodeOptional, keys_encodeOptional]
  rfl

theorem AlertingRule.fields_encode : Fields rule.encode where
  isObject := rfl
  known := by
    rw [rule.keys_encode]
    split
    all_goals
      split
      · decide
      · decide
  keys := by
    rw [rule.keys_encode]
    split
    all_goals
      split
      · decide
      · decide

theorem AlertingRule.member_encode (key : GoString) :
    rule.encode.member key =
      if key = ascii "alert" then some (.string rule.alert)
      else if key = ascii "annotations" then (written rule.annotations).map encodeMap
      else if key = ascii "expr" then some (.string rule.expr)
      else if key = ascii "for" then some (.string rule.forDuration)
      else if key = ascii "labels" then (written rule.labels).map encodeMap
      else none := by
  unfold AlertingRule.encode Json.member Json.members
  rw [List.append_assoc, List.append_assoc, List.cons_append, List.nil_append, lookup_cons_ite,
    List.lookup_append, lookup_encodeOptional, List.cons_append, List.cons_append, List.nil_append,
    lookup_cons_ite, lookup_cons_ite, lookup_encodeOptional]
  by_cases isAnnotations : key = ascii "annotations"
  · rw [if_pos isAnnotations, if_pos isAnnotations, isAnnotations]
    exact congrArg _ (Option.or_none ..)
  · rw [if_neg isAnnotations, if_neg isAnnotations, Option.none_or]

theorem asAlertingRule_encode (keys : ((rule.labels.getD []).map Prod.fst).Nodup)
    (annotationKeys : ((rule.annotations.getD []).map Prod.fst).Nodup) :
    asAlertingRule rule.encode = some { rule with
      annotations := written rule.annotations
      labels := written rule.labels } := by
  have read := @(rule.fields_encode).field
  rw [asAlertingRule_eq_some]
  refine ⟨?_, ?_, ?_, ?_, ?_⟩
  · rw [read _ (by decide), rule.member_encode]
    rfl
  · rw [read _ (by decide), rule.member_encode]
    exact decodeMap_written rule.annotations annotationKeys
  · rw [read _ (by decide), rule.member_encode]
    rfl
  · rw [read _ (by decide), rule.member_encode]
    rfl
  · rw [read _ (by decide), rule.member_encode]
    exact decodeMap_written rule.labels keys

theorem isRecordingRule_alerting : isRecordingRule rule.encode = false := by
  rw [← Bool.not_eq_true, isRecordingRule_iff]
  rintro ⟨recording, decoded, isRecord⟩
  have noRecord := ((asRecordingRule_eq_some _ _).mp decoded).2.2
  rw [rule.fields_encode.field _ (by decide), rule.member_encode] at noRecord
  have empty : some ([] : GoString) = some recording.record := noRecord
  exact isRecord (Option.some.inj empty).symm

end AlertingRules

section Groups

variable (yaml : Yaml)

theorem RuleGroup.fields_encode (group : RuleGroup) : Fields group.encode where
  isObject := rfl
  known := by
    have keys : group.encode.members.map Prod.fst =
        [ascii "interval", ascii "name", ascii "rules"] :=
      rfl
    rw [keys]
    decide
  keys := by
    have keys : group.encode.members.map Prod.fst =
        [ascii "interval", ascii "name", ascii "rules"] :=
      rfl
    rw [keys]
    decide

theorem RuleGroup.member_encode (group : RuleGroup) (key : GoString) :
    group.encode.member key =
      if key = ascii "interval" then some (.string group.interval)
      else if key = ascii "name" then some (.string group.name)
      else if key = ascii "rules" then some (encodeList group.rules)
      else none := by
  unfold RuleGroup.encode Json.member Json.members
  rw [lookup_cons_ite, lookup_cons_ite, lookup_cons_ite]
  rfl

theorem decodeItems_encodeList (prior list : Option (List Json)) :
    decodeItems prior (encodeList list) = some list := by
  cases list with
  | none => rfl
  | some items => rfl

theorem decodeGroup_encode (prior group : RuleGroup) :
    decodeGroup yaml prior group.encode = some group := by
  have read := @(group.fields_encode).field
  rw [decodeGroup_eq_some]
  refine ⟨?_, ?_, ?_⟩
  · rw [read _ (by decide), group.member_encode]
    rfl
  · rw [read _ (by decide), group.member_encode]
    rfl
  · rw [read _ (by decide), group.member_encode]
    exact decodeItems_encodeList prior.rules group.rules

theorem mapM_decodeGroup_encode (groups : List RuleGroup) :
    (groups.map RuleGroup.encode).mapM (decodeGroup yaml .zero) = some groups := by
  induction groups with
  | nil => rfl
  | cons group rest ih =>
      rw [List.map_cons, List.mapM_cons, ih, decodeGroup_encode]
      rfl

theorem Document.fields_encode (rules : Document) : Fields rules.encode where
  isObject := rfl
  known := by
    have keys : rules.encode.members.map Prod.fst = [ascii "groups"] := rfl
    rw [keys]
    decide
  keys := List.nodup_singleton _

theorem Document.member_encode (rules : Document) (key : GoString) :
    rules.encode.member key =
      if key = ascii "groups" then
        some (encodeList (rules.groups.map fun groups => groups.map RuleGroup.encode))
      else none := by
  unfold Document.encode Json.member Json.members
  rw [lookup_cons_ite]
  rfl

theorem decodeRules_encode (rules : Document) : decodeRules yaml rules.encode = some rules := by
  rw [decodeRules, rules.fields_encode.field _ (by decide), rules.member_encode, if_pos rfl,
    Option.elim_some]
  obtain ⟨groups⟩ := rules
  cases groups with
  | none => rfl
  | some groups =>
      rw [Option.map_some, encodeList, decodeSlice_none, mapM_decodeGroup_encode]
      rfl

end Groups

end McoaGateway.Rules
