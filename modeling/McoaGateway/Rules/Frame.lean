/-
What the enforcement of rules leaves alone.

The received and the forwarded document are compared as trees.  Between them
stand the types of the source: members that the types do not have are dropped,
and fields that are not optional are written although they were not there.
-/

import McoaGateway.Rules.Enforcement

namespace McoaGateway.Rules

open GoString Json

/-! ### Frames -/

def label (rule : Json) (key : GoString) : Option Json :=
  (rule.member (ascii "labels")).bind fun labels => labels.member key

section Frames

variable (tenantLabel : GoString) (keepsExpr : Bool)

/-- Everything but the tenant label, and the expression unless it is kept. -/
structure RuleFrame (received sent : Json) : Prop where
  members : ∀ key, key ≠ ascii "labels" → (key = ascii "expr" → keepsExpr = true) →
    Option.Rel Same (received.member key) (sent.member key)
  labels : ∀ key, key ≠ tenantLabel → Option.Rel Same (label received key) (label sent key)

/-- Two lists are compared by their elements, everything else as it stands. -/
inductive ListFrame (frame : Json → Json → Prop) : Json → Json → Prop where
  | null : ListFrame frame .null .null
  | array (received sent : List Json) (each : List.Forall₂ frame received sent) :
      ListFrame frame (.array received) (.array sent)

structure GroupFrame (received sent : Json) : Prop where
  members : ∀ key, key ≠ ascii "rules" → Option.Rel Same (received.member key) (sent.member key)
  rules : Option.Rel (ListFrame (RuleFrame tenantLabel keepsExpr))
    (received.member (ascii "rules")) (sent.member (ascii "rules"))

structure RulesFrame (received sent : Json) : Prop where
  members : ∀ key, key ≠ ascii "groups" → Option.Rel Same (received.member key) (sent.member key)
  groups : Option.Rel (ListFrame (GroupFrame tenantLabel keepsExpr))
    (received.member (ascii "groups")) (sent.member (ascii "groups"))

/-! ### Documents that the types have room for -/

def IsText (value : Option Json) : Prop :=
  ∃ text, value = some (.string text)

def PlainLabels (rule : Json) : Prop :=
  ∀ key, key ≠ tenantLabel → label rule key = none ∨ IsText (label rule key)

/-- There are annotations if the member is there, and all are texts. -/
def PlainAnnotations (rule : Json) : Prop :=
  rule.member (ascii "annotations") = none ∨
    ∃ entries, rule.member (ascii "annotations") = some (.object entries) ∧ entries ≠ [] ∧
      ∀ key, entries.lookup key = none ∨ IsText (entries.lookup key)

def Within (keys : List GoString) (doc : Json) : Prop :=
  ∀ key, key ∉ keys → doc.member key = none

def recordingKeys : List GoString :=
  [ascii "expr", ascii "labels", ascii "record"]

def alertingKeys : List GoString :=
  [ascii "alert", ascii "annotations", ascii "expr", ascii "for", ascii "labels"]

def groupKeys : List GoString :=
  [ascii "interval", ascii "name", ascii "rules"]

structure PlainRule (rule : Json) : Prop where
  expr : keepsExpr = true → IsText (rule.member (ascii "expr"))
  labels : PlainLabels tenantLabel rule
  kind : Within recordingKeys rule ∨
    Within alertingKeys rule ∧ IsText (rule.member (ascii "for")) ∧ PlainAnnotations rule

inductive PlainList (plain : Json → Prop) : Option Json → Prop where
  | null : PlainList plain (some .null)
  | array (elements : List Json) (each : ∀ element ∈ elements, plain element) :
      PlainList plain (some (.array elements))

structure PlainGroup (group : Json) : Prop where
  within : Within groupKeys group
  interval : IsText (group.member (ascii "interval"))
  name : IsText (group.member (ascii "name"))
  rules : PlainList (PlainRule tenantLabel keepsExpr) (group.member (ascii "rules"))

structure PlainRules (doc : Json) : Prop where
  within : Within [ascii "groups"] doc
  groups : PlainList (PlainGroup tenantLabel keepsExpr) (doc.member (ascii "groups"))

end Frames

/-! ### Trees -/

theorem same_string_iff (doc : Json) (text : GoString) :
    Same doc (.string text) ↔ doc = .string text := by
  constructor
  · intro same
    cases same
    rfl
  · rintro rfl
    exact .string text

theorem rel_string_iff (value : Option Json) (text : GoString) :
    Option.Rel Same value (some (.string text)) ↔ value = some (.string text) := by
  constructor
  · intro related
    cases related with
    | some same => rw [(same_string_iff _ _).mp same]
  · rintro rfl
    exact .some (.string text)

theorem rel_none_iff (relation : Json → Json → Prop) (value : Option Json) :
    Option.Rel relation value none ↔ value = none := by
  constructor
  · intro related
    cases related
    rfl
  · rintro rfl
    exact .none

theorem rel_some_iff (relation : Json → Json → Prop) (value other : Json) :
    Option.Rel relation (some value) (some other) ↔ relation value other := by
  constructor
  · intro related
    cases related with
    | some holds => exact holds
  · exact .some

theorem Within.fields {keys : List GoString} {doc : Json} (within : Within keys doc)
    (isObject : doc = .object doc.members) (distinct : doc.Distinct)
    (known : ∀ key ∈ keys, key ∈ fieldNames) : Fields doc where
  isObject := isObject
  known := by
    intro key member
    by_contra unknown
    have absent := within key fun inKeys => unknown (known key inKeys)
    rw [Json.member, List.lookup_eq_none_iff] at absent
    obtain ⟨m, isMember, rfl⟩ := List.mem_map.mp member
    have differs := absent m isMember
    rw [bne_self_eq_false] at differs
    cases differs
  keys := by
    cases distinct with
    | object members keys each => exact keys
    | _ => exact List.nodup_nil

theorem isObject_of_member {doc value : Json} {key : GoString}
    (found : doc.member key = some value) : doc = .object doc.members := by
  cases doc with
  | object members => rfl
  | _ => cases found

theorem member_encodeMap (map : StringMap) (key : GoString) :
    (encodeMap map).member key = (map.lookup key).map Json.string := by
  unfold encodeMap Json.member Json.members
  induction map with
  | nil => rfl
  | cons entry rest ih =>
      rw [List.map_cons, lookup_cons_ite, ih]
      obtain ⟨own, value⟩ := entry
      rw [lookup_cons_ite]
      split
      · rfl
      · rfl

theorem lookup_mapM_decodeEntry (members : List (GoString × Json)) (map : StringMap)
    (decoded : members.mapM decodeEntry = some map) (key : GoString) :
    map.lookup key = (members.lookup key).bind (decodeString []) := by
  induction members generalizing map with
  | nil =>
      cases decoded
      rfl
  | cons m rest ih =>
      rw [List.mapM_cons] at decoded
      obtain ⟨entry, isEntry, decoded⟩ := Option.bind_eq_some_iff.mp decoded
      obtain ⟨others, isOthers, same⟩ := Option.bind_eq_some_iff.mp decoded
      obtain ⟨value, isValue, rfl⟩ := Option.map_eq_some_iff.mp isEntry
      cases same
      obtain ⟨own, doc⟩ := m
      rw [lookup_cons_ite, lookup_cons_ite, ih others isOthers]
      split
      · exact isValue.symm
      · rfl

theorem same_object_iff (doc : Json) (others : List (GoString × Json)) :
    Same doc (.object others) ↔ ∃ members, doc = .object members ∧
      ∀ key, Option.Rel Same (members.lookup key) (others.lookup key) := by
  constructor
  · intro same
    cases same with
    | object members _ keys each =>
        refine ⟨members, rfl, ?_⟩
        intro key
        have present := keys key
        cases isMember : members.lookup key with
        | none =>
            cases isOther : others.lookup key with
            | none => exact .none
            | some other =>
                rw [isMember, isOther] at present
                cases present
        | some value =>
            cases isOther : others.lookup key with
            | none =>
                rw [isMember, isOther] at present
                cases present
            | some other => exact .some (each key value other isMember isOther)
  · rintro ⟨members, rfl, related⟩
    refine .object members others ?_ ?_
    · intro key
      have own := related key
      generalize members.lookup key = member, others.lookup key = other at own ⊢
      cases own with
      | none => rfl
      | some same => rfl
    · intro key a b isA isB
      have own := related key
      rw [isA, isB] at own
      cases own with
      | some same => exact same

theorem same_encodeMap_iff (doc : Json) (map : StringMap) :
    Same doc (encodeMap map) ↔ ∃ members, doc = .object members ∧
      ∀ key, Option.Rel Same (members.lookup key) ((map.lookup key).map Json.string) := by
  simp only [← member_encodeMap]
  exact same_object_iff doc _

theorem lookup_decodeMap (doc : Json) (distinct : doc.Distinct) (map : Option StringMap)
    (decoded : decodeMap none doc = some map) (key : GoString) :
    (map.getD []).lookup key = (doc.member key).bind (decodeString []) := by
  cases distinct with
  | null =>
      cases decoded
      rfl
  | object members keys each =>
      rw [decodeMap_object none members (by simpa using keys)] at decoded
      obtain ⟨entries, isEntries, rfl⟩ := Option.map_eq_some_iff.mp decoded
      exact lookup_mapM_decodeEntry members entries isEntries key
  | _ => cases decoded

theorem eq_text_of_decode {value : Option Json} {text : GoString}
    (decoded : value.elim (some []) (decodeString []) = some text)
    (isText : IsText value ∨ text ≠ []) : value = some (.string text) := by
  rcases isText with ⟨own, rfl⟩ | nonempty
  · have same : some own = some text := decoded
    rw [Option.some.inj same]
  · cases value with
    | none => exact (nonempty (Option.some.inj decoded).symm).elim
    | some doc =>
        cases doc with
        | null => exact (nonempty (Option.some.inj decoded).symm).elim
        | string own =>
            have same : some own = some text := decoded
            rw [Option.some.inj same]
        | _ => cases decoded

/-! ### Rules -/

section Rules

variable (tenantLabel tenantID : GoString)

theorem lookup_labels (rule : Json) (fields : Fields rule) (distinct : rule.Distinct)
    (labels : Option StringMap)
    (decoded : field (ascii "labels") decodeMap none rule = some labels) (key : GoString) :
    (labels.getD []).lookup key = (label rule key).bind (decodeString []) := by
  rw [fields.field _ (by decide)] at decoded
  unfold label
  cases found : rule.member (ascii "labels") with
  | none =>
      rw [found] at decoded
      cases decoded
      rfl
  | some doc =>
      rw [found] at decoded
      exact lookup_decodeMap doc (distinct.member found) labels decoded key

theorem label_setTenant (sent : Json) (labels : Option StringMap)
    (isSent : sent.member (ascii "labels") =
      (written (setTenant tenantLabel tenantID labels)).map encodeMap)
    (key : GoString) (other : key ≠ tenantLabel) :
    label sent key = ((labels.getD []).lookup key).map Json.string := by
  rw [written_setTenant] at isSent
  rw [label, isSent, setTenant, Option.map_some, Option.bind_some, member_encodeMap,
    StringMap.lookup_set_of_ne _ _ _ _ other]

theorem plain_of_rel {value : Option Json} {text : Option GoString}
    (related : Option.Rel Same value (text.map Json.string)) : value = none ∨ IsText value := by
  cases text with
  | none => exact Or.inl ((rel_none_iff _ _).mp related)
  | some text => exact Or.inr ⟨text, (rel_string_iff _ _).mp related⟩

theorem rel_of_plain {value : Option Json} (plain : value = none ∨ IsText value) :
    Option.Rel Same value ((value.bind (decodeString [])).map Json.string) := by
  rcases plain with rfl | ⟨text, rfl⟩
  · exact .none
  · exact .some (.string text)

theorem plainLabels_of_frame (rule sent : Json) (labels : Option StringMap)
    (isSent : sent.member (ascii "labels") =
      (written (setTenant tenantLabel tenantID labels)).map encodeMap)
    (related : ∀ key, key ≠ tenantLabel → Option.Rel Same (label rule key) (label sent key)) :
    PlainLabels tenantLabel rule := by
  intro key other
  have own := related key other
  rw [label_setTenant tenantLabel tenantID sent labels isSent key other] at own
  exact plain_of_rel own

theorem labels_frame (rule sent : Json) (fields : Fields rule) (distinct : rule.Distinct)
    (labels : Option StringMap)
    (decoded : field (ascii "labels") decodeMap none rule = some labels)
    (isSent : sent.member (ascii "labels") =
      (written (setTenant tenantLabel tenantID labels)).map encodeMap)
    (plain : PlainLabels tenantLabel rule) (key : GoString) (other : key ≠ tenantLabel) :
    Option.Rel Same (label rule key) (label sent key) := by
  rw [label_setTenant tenantLabel tenantID sent labels isSent key other,
    lookup_labels rule fields distinct labels decoded]
  exact rel_of_plain (plain key other)

theorem annotations_frame_iff (rule : Json) (fields : Fields rule) (distinct : rule.Distinct)
    (annotations : Option StringMap)
    (decoded : field (ascii "annotations") decodeMap none rule = some annotations) :
    Option.Rel Same (rule.member (ascii "annotations")) ((written annotations).map encodeMap) ↔
      PlainAnnotations rule := by
  rw [fields.field _ (by decide)] at decoded
  unfold PlainAnnotations
  cases found : rule.member (ascii "annotations") with
  | none =>
      rw [found] at decoded
      cases decoded
      exact iff_of_true .none (Or.inl rfl)
  | some doc =>
      rw [found, Option.elim_some] at decoded
      have lookups := lookup_decodeMap doc (distinct.member found) annotations decoded
      constructor
      · intro related
        right
        unfold written at related
        split at related
        · cases related
        · rename_i nonempty
          cases annotations with
          | none => exact (nonempty rfl).elim
          | some map =>
              cases related with
              | some same =>
                  obtain ⟨members, rfl, texts⟩ := (same_encodeMap_iff _ _).mp same
                  refine ⟨members, rfl, ?_, fun key => plain_of_rel (texts key)⟩
                  rintro rfl
                  cases map with
                  | nil => exact nonempty rfl
                  | cons entry rest =>
                      have absent := texts entry.1
                      rw [List.lookup_cons, beq_self_eq_true] at absent
                      cases absent
      · rintro (absent | ⟨entries, same, nonempty, texts⟩)
        · cases absent
        · cases same
          obtain ⟨entry, rest, isCons⟩ := List.exists_cons_of_ne_nil nonempty
          have present : annotations.getD [] ≠ [] := by
            intro empty
            have own := lookups entry.1
            rcases texts entry.1 with absent | ⟨text, isText⟩
            · rw [isCons, List.lookup_cons, beq_self_eq_true] at absent
              cases absent
            · rw [empty, Json.member, Json.members, isText] at own
              cases own
          rw [written, if_neg present]
          cases annotations with
          | none => exact (present rfl).elim
          | some map =>
              refine .some ((same_encodeMap_iff _ _).mpr ⟨entries, rfl, ?_⟩)
              intro key
              have own := lookups key
              rw [Option.getD_some] at own
              rw [own]
              exact rel_of_plain (texts key)

theorem Sent.isObject {enforceExpr : GoString → Except GoString GoString} {rule sent : Json}
    (isSent : Sent tenantLabel tenantID enforceExpr rule sent) : rule = .object rule.members := by
  cases isSent with
  | recording rr expr decoded isRecord enforced =>
      have record := ((asRecordingRule_eq_some rule rr).mp decoded).2.2
      cases rule with
      | object members => rfl
      | null => exact (isRecord (Option.some.inj record).symm).elim
      | _ => cases record
  | alerting ar expr notRecording decoded isAlert enforced =>
      have alert := ((asAlertingRule_eq_some rule ar).mp decoded).1
      cases rule with
      | object members => rfl
      | null => exact (isAlert (Option.some.inj alert).symm).elim
      | _ => cases alert

theorem RecordingRule.member_encode_of_not_mem (rule : RecordingRule) (key : GoString)
    (outside : key ∉ recordingKeys) : rule.encode.member key = none := by
  unfold recordingKeys at outside
  simp only [List.mem_cons, List.not_mem_nil, or_false, not_or] at outside
  rw [rule.member_encode, if_neg outside.1, if_neg outside.2.1, if_neg outside.2.2]

theorem AlertingRule.member_encode_of_not_mem (rule : AlertingRule) (key : GoString)
    (outside : key ∉ alertingKeys) : rule.encode.member key = none := by
  unfold alertingKeys at outside
  simp only [List.mem_cons, List.not_mem_nil, or_false, not_or] at outside
  rw [rule.member_encode, if_neg outside.1, if_neg outside.2.1, if_neg outside.2.2.1,
    if_neg outside.2.2.2.1, if_neg outside.2.2.2.2]

theorem eq_nil_of_absent {rule : Json} (fields : Fields rule) {name text : GoString}
    (isField : name ∈ fieldNames) (decoded : field name decodeString [] rule = some text)
    (absent : rule.member name = none) : text = [] := by
  rw [fields.field name isField, absent] at decoded
  exact (Option.some.inj decoded).symm

theorem member_eq_text {rule : Json} (fields : Fields rule) {name text : GoString}
    (isField : name ∈ fieldNames) (decoded : field name decodeString [] rule = some text)
    (isText : IsText (rule.member name) ∨ text ≠ []) : rule.member name = some (.string text) := by
  rw [fields.field name isField] at decoded
  exact eq_text_of_decode decoded isText

variable (keepsExpr : Bool) (enforceExpr : GoString → Except GoString GoString)
  (keeps : keepsExpr = true → ∀ expr, enforceExpr expr = .ok expr)

section Kinds

include keeps

theorem recordingFrame_iff (rule : Json) (distinct : rule.Distinct)
    (isObject : rule = .object rule.members) (rr : RecordingRule) (expr : GoString)
    (decoded : asRecordingRule rule = some rr) (isRecord : rr.record ≠ [])
    (enforced : enforceExpr rr.expr = .ok expr) :
    RuleFrame tenantLabel keepsExpr rule
        { rr with expr, labels := setTenant tenantLabel tenantID rr.labels }.encode ↔
      PlainRule tenantLabel keepsExpr rule := by
  have isMember := fun key => RecordingRule.member_encode
    { rr with expr, labels := setTenant tenantLabel tenantID rr.labels } key
  have isAbsent := fun key => RecordingRule.member_encode_of_not_mem
    { rr with expr, labels := setTenant tenantLabel tenantID rr.labels } key
  obtain ⟨isExpr, isLabels, isOwn⟩ := (asRecordingRule_eq_some rule rr).mp decoded
  constructor
  · intro frame
    refine ⟨?_, ?_, Or.inl ?_⟩
    · intro kept
      have related := frame.members (ascii "expr") (by decide) fun _ => kept
      rw [isMember] at related
      exact ⟨expr, (rel_string_iff _ _).mp related⟩
    · exact plainLabels_of_frame tenantLabel tenantID rule _ rr.labels (isMember _) frame.labels
    · intro key outside
      have related := frame.members key (by rintro rfl; exact outside (by decide))
        (by rintro rfl; exact (outside (by decide)).elim)
      rw [isAbsent key outside] at related
      exact (rel_none_iff _ _).mp related
  · intro plain
    rcases plain.kind with within | ⟨within, -, -⟩
    · have fields := within.fields isObject distinct (by decide)
      refine ⟨?_, ?_⟩
      · intro key notLabels notExpr
        by_cases inside : key ∈ recordingKeys
        · unfold recordingKeys at inside
          simp only [List.mem_cons, List.not_mem_nil, or_false] at inside
          rcases inside with rfl | rfl | rfl
          · have same : expr = rr.expr := by
              rw [keeps (notExpr rfl)] at enforced
              exact (Except.ok.inj enforced).symm
            rw [isMember, if_pos rfl, rel_string_iff, same]
            exact member_eq_text fields (by decide) isExpr (Or.inl (plain.expr (notExpr rfl)))
          · exact (notLabels rfl).elim
          · rw [isMember]
            exact (rel_string_iff _ _).mpr
              (member_eq_text fields (by decide) isOwn (Or.inr isRecord))
        · rw [isAbsent key inside, rel_none_iff]
          exact within key inside
      · exact labels_frame tenantLabel tenantID rule _ fields distinct rr.labels isLabels
          (isMember _) plain.labels
    · have fields := within.fields isObject distinct (by decide)
      exact (isRecord (eq_nil_of_absent fields (by decide) isOwn (within _ (by decide)))).elim

theorem alertingFrame_iff (rule : Json) (distinct : rule.Distinct)
    (isObject : rule = .object rule.members) (ar : AlertingRule) (expr : GoString)
    (decoded : asAlertingRule rule = some ar) (isAlert : ar.alert ≠ [])
    (enforced : enforceExpr ar.expr = .ok expr) :
    RuleFrame tenantLabel keepsExpr rule
        { ar with expr, labels := setTenant tenantLabel tenantID ar.labels }.encode ↔
      PlainRule tenantLabel keepsExpr rule := by
  have isMember := fun key => AlertingRule.member_encode
    { ar with expr, labels := setTenant tenantLabel tenantID ar.labels } key
  have isAbsent := fun key => AlertingRule.member_encode_of_not_mem
    { ar with expr, labels := setTenant tenantLabel tenantID ar.labels } key
  obtain ⟨isOwn, isAnnotations, isExpr, isFor, isLabels⟩ :=
    (asAlertingRule_eq_some rule ar).mp decoded
  constructor
  · intro frame
    have within : Within alertingKeys rule := by
      intro key outside
      have related := frame.members key (by rintro rfl; exact outside (by decide))
        (by rintro rfl; exact (outside (by decide)).elim)
      rw [isAbsent key outside] at related
      exact (rel_none_iff _ _).mp related
    have fields := within.fields isObject distinct (by decide)
    refine ⟨?_, ?_, Or.inr ⟨within, ?_, ?_⟩⟩
    · intro kept
      have related := frame.members (ascii "expr") (by decide) fun _ => kept
      rw [isMember] at related
      exact ⟨expr, (rel_string_iff _ _).mp related⟩
    · exact plainLabels_of_frame tenantLabel tenantID rule _ ar.labels (isMember _) frame.labels
    · have related := frame.members (ascii "for") (by decide) fun same => absurd same (by decide)
      rw [isMember] at related
      exact ⟨ar.forDuration, (rel_string_iff _ _).mp related⟩
    · have related := frame.members (ascii "annotations") (by decide)
        fun same => absurd same (by decide)
      rw [isMember] at related
      exact (annotations_frame_iff rule fields distinct ar.annotations isAnnotations).mp related
  · intro plain
    rcases plain.kind with within | ⟨within, forText, annotations⟩
    · have fields := within.fields isObject distinct (by decide)
      exact (isAlert (eq_nil_of_absent fields (by decide) isOwn (within _ (by decide)))).elim
    · have fields := within.fields isObject distinct (by decide)
      refine ⟨?_, ?_⟩
      · intro key notLabels notExpr
        by_cases inside : key ∈ alertingKeys
        · unfold alertingKeys at inside
          simp only [List.mem_cons, List.not_mem_nil, or_false] at inside
          rcases inside with rfl | rfl | rfl | rfl | rfl
          · rw [isMember, if_pos rfl, rel_string_iff]
            exact member_eq_text fields (by decide) isOwn (Or.inr isAlert)
          · rw [isMember]
            exact (annotations_frame_iff rule fields distinct ar.annotations isAnnotations).mpr
              annotations
          · have same : expr = ar.expr := by
              rw [keeps (notExpr rfl)] at enforced
              exact (Except.ok.inj enforced).symm
            rw [isMember, same]
            exact (rel_string_iff _ _).mpr
              (member_eq_text fields (by decide) isExpr (Or.inl (plain.expr (notExpr rfl))))
          · rw [isMember]
            exact (rel_string_iff _ _).mpr
              (member_eq_text fields (by decide) isFor (Or.inl forText))
          · exact (notLabels rfl).elim
        · rw [isAbsent key inside, rel_none_iff]
          exact within key inside
      · exact labels_frame tenantLabel tenantID rule _ fields distinct ar.labels isLabels
          (isMember _) plain.labels

theorem ruleFrame_iff (rule sent : Json) (distinct : rule.Distinct)
    (isSent : Sent tenantLabel tenantID enforceExpr rule sent) :
    RuleFrame tenantLabel keepsExpr rule sent ↔ PlainRule tenantLabel keepsExpr rule := by
  have isObject := isSent.isObject
  cases isSent with
  | recording rr expr decoded isRecord enforced =>
      exact recordingFrame_iff tenantLabel tenantID keepsExpr enforceExpr keeps rule distinct
        isObject rr expr decoded isRecord enforced
  | alerting ar expr _ decoded isAlert enforced =>
      exact alertingFrame_iff tenantLabel tenantID keepsExpr enforceExpr keeps rule distinct
        isObject ar expr decoded isAlert enforced

end Kinds

/-! ### Groups -/

section Groups

variable (yaml : Yaml)

theorem listFrame_iff {frame : Json → Json → Prop} {plain : Json → Prop} (value : Json)
    (sent : Option (List Json))
    (shape : (value = .null ∧ sent = none) ∨
      ∃ elements items, value = .array elements ∧ sent = some items ∧
        (List.Forall₂ frame elements items ↔ ∀ element ∈ elements, plain element)) :
    ListFrame frame value (encodeList sent) ↔ PlainList plain (some value) := by
  rcases shape with ⟨rfl, rfl⟩ | ⟨elements, items, rfl, rfl, each⟩
  · exact iff_of_true .null .null
  · constructor
    · intro framed
      cases framed with
      | array _ _ framed => exact .array elements (each.mp framed)
    · intro isPlain
      cases isPlain with
      | array _ isPlain => exact .array elements items (each.mpr isPlain)

theorem RuleGroup.member_encode_of_not_mem (group : RuleGroup) (key : GoString)
    (outside : key ∉ groupKeys) : group.encode.member key = none := by
  unfold groupKeys at outside
  simp only [List.mem_cons, List.not_mem_nil, or_false, not_or] at outside
  rw [group.member_encode, if_neg outside.1, if_neg outside.2.1, if_neg outside.2.2]

theorem member_eq_groupText {doc : Json} (fields : Fields doc) {name text : GoString}
    (isField : name ∈ fieldNames) (decoded : field name (decodeText yaml) [] doc = some text)
    (isText : IsText (doc.member name)) : doc.member name = some (.string text) := by
  obtain ⟨own, isOwn⟩ := isText
  rw [fields.field name isField, isOwn] at decoded
  have same : some own = some text := decoded
  rw [isOwn, Option.some.inj same]

include keeps

theorem rulesMember_frame_iff (doc : Json) (fields : Fields doc) (distinct : doc.Distinct)
    (rules sent : Option (List Json))
    (decoded : field (ascii "rules") decodeItems none doc = some rules)
    (isSent : Option.Rel (List.Forall₂ (Sent tenantLabel tenantID enforceExpr)) rules sent) :
    Option.Rel (ListFrame (RuleFrame tenantLabel keepsExpr)) (doc.member (ascii "rules"))
        (some (encodeList sent)) ↔
      PlainList (PlainRule tenantLabel keepsExpr) (doc.member (ascii "rules")) := by
  rw [fields.field _ (by decide)] at decoded
  cases found : doc.member (ascii "rules") with
  | none => exact iff_of_false nofun nofun
  | some value =>
      rw [found, Option.elim_some] at decoded
      have valueDistinct := distinct.member found
      rw [rel_some_iff]
      apply listFrame_iff
      cases valueDistinct with
      | null =>
          cases decoded
          cases isSent
          exact Or.inl ⟨rfl, rfl⟩
      | array elements each =>
          cases decoded
          cases isSent with
          | some related =>
              refine Or.inr ⟨elements, _, rfl, rfl, forall₂_iff_forall_mem related ?_⟩
              intro rule ruleSent member
              exact ruleFrame_iff tenantLabel tenantID keepsExpr enforceExpr keeps rule ruleSent
                (each rule member)
      | _ => cases decoded

/-- A group is framed exactly if it has the fields of the type and no others. -/
theorem groupFrame_iff (doc : Json) (distinct : doc.Distinct) (group sent : RuleGroup)
    (decoded : decodeGroup yaml .zero doc = some group)
    (isSent : GroupSent tenantLabel tenantID enforceExpr group sent) :
    GroupFrame tenantLabel keepsExpr doc sent.encode ↔ PlainGroup tenantLabel keepsExpr doc := by
  obtain ⟨isInterval, isName, isRules⟩ := (decodeGroup_eq_some yaml .zero doc group).mp decoded
  have rulesIff := fun fields =>
    rulesMember_frame_iff tenantLabel tenantID keepsExpr enforceExpr keeps
    doc fields distinct group.rules sent.rules isRules isSent.rules
  constructor
  · rintro ⟨members, rules⟩
    rw [sent.member_encode] at rules
    have within : Within groupKeys doc := by
      intro key outside
      have related := members key (by rintro rfl; exact outside (by decide))
      rw [sent.member_encode_of_not_mem key outside] at related
      exact (rel_none_iff _ _).mp related
    have hasInterval : doc.member (ascii "interval") = some (.string sent.interval) := by
      have related := members (ascii "interval") (by decide)
      rw [sent.member_encode] at related
      exact (rel_string_iff _ _).mp related
    have hasName : doc.member (ascii "name") = some (.string sent.name) := by
      have related := members (ascii "name") (by decide)
      rw [sent.member_encode] at related
      exact (rel_string_iff _ _).mp related
    have fields := within.fields (isObject_of_member hasInterval) distinct (by decide)
    exact ⟨within, ⟨_, hasInterval⟩, ⟨_, hasName⟩, (rulesIff fields).mp rules⟩
  · rintro ⟨within, interval, name, rules⟩
    obtain ⟨text, hasInterval⟩ := interval
    have fields := within.fields (isObject_of_member hasInterval) distinct (by decide)
    refine ⟨?_, ?_⟩
    · intro key notRules
      by_cases inside : key ∈ groupKeys
      · unfold groupKeys at inside
        simp only [List.mem_cons, List.not_mem_nil, or_false] at inside
        rcases inside with rfl | rfl | rfl
        · rw [sent.member_encode, if_pos rfl, rel_string_iff, isSent.interval]
          exact member_eq_groupText yaml fields (by decide) isInterval ⟨text, hasInterval⟩
        · rw [sent.member_encode, isSent.name]
          exact (rel_string_iff _ _).mpr
            (member_eq_groupText yaml fields (by decide) isName name)
        · exact (notRules rfl).elim
      · rw [sent.member_encode_of_not_mem key inside, rel_none_iff]
        exact within key inside
    · rw [sent.member_encode]
      exact (rulesIff fields).mpr rules

theorem groupsMember_frame_iff (doc : Json) (fields : Fields doc) (distinct : doc.Distinct)
    (rules sent : Document) (decoded : decodeRules yaml doc = some rules)
    (isSent : Option.Rel (List.Forall₂ (GroupSent tenantLabel tenantID enforceExpr))
      rules.groups sent.groups) :
    Option.Rel (ListFrame (GroupFrame tenantLabel keepsExpr)) (doc.member (ascii "groups"))
        (some (encodeList (sent.groups.map fun groups => groups.map RuleGroup.encode))) ↔
      PlainList (PlainGroup tenantLabel keepsExpr) (doc.member (ascii "groups")) := by
  obtain ⟨sentGroups⟩ := sent
  obtain ⟨slice, isSlice, rfl⟩ := Option.map_eq_some_iff.mp decoded
  rw [fields.field _ (by decide)] at isSlice
  cases found : doc.member (ascii "groups") with
  | none => exact iff_of_false nofun nofun
  | some value =>
      rw [found, Option.elim_some] at isSlice
      have valueDistinct := distinct.member found
      rw [rel_some_iff]
      apply listFrame_iff
      cases valueDistinct with
      | null =>
          cases isSlice
          cases isSent
          exact Or.inl ⟨rfl, rfl⟩
      | array elements each =>
          rw [decodeSlice_none] at isSlice
          obtain ⟨groups, isGroups, rfl⟩ := Option.map_eq_some_iff.mp isSlice
          cases isSent with
          | some related =>
              have both := forall₂_comp_exists ((mapM_eq_some_iff _ _ _).mp isGroups) related
              refine Or.inr ⟨elements, _, rfl, rfl, ?_⟩
              rw [List.forall₂_map_right_iff]
              refine forall₂_iff_forall_mem both ?_
              rintro element groupSent member ⟨group, isGroup, ownSent⟩
              exact groupFrame_iff tenantLabel tenantID keepsExpr enforceExpr keeps yaml element
                (each element member) group groupSent isGroup ownSent
      | _ => cases isSlice

theorem rulesFrame_iff (doc : Json) (distinct : doc.Distinct) (rules sent : Document)
    (decoded : decodeRules yaml doc = some rules)
    (isSent : Option.Rel (List.Forall₂ (GroupSent tenantLabel tenantID enforceExpr))
      rules.groups sent.groups) :
    RulesFrame tenantLabel keepsExpr doc sent.encode ↔ PlainRules tenantLabel keepsExpr doc := by
  have groupsIff := fun fields => groupsMember_frame_iff tenantLabel tenantID keepsExpr enforceExpr
    keeps yaml doc fields distinct rules sent decoded isSent
  have isAbsent : ∀ key, key ≠ ascii "groups" → sent.encode.member key = none := by
    intro key other
    rw [sent.member_encode, if_neg other]
  constructor
  · rintro ⟨members, groups⟩
    rw [sent.member_encode, if_pos rfl] at groups
    have within : Within [ascii "groups"] doc := by
      intro key outside
      rw [List.mem_singleton] at outside
      have related := members key outside
      rw [isAbsent key outside] at related
      exact (rel_none_iff _ _).mp related
    cases found : doc.member (ascii "groups") with
    | none =>
        rw [found] at groups
        cases groups
    | some value =>
        have fields := within.fields (isObject_of_member found) distinct (by decide)
        exact ⟨within, (groupsIff fields).mp groups⟩
  · rintro ⟨within, groups⟩
    cases found : doc.member (ascii "groups") with
    | none =>
        rw [found] at groups
        cases groups
    | some value =>
        have fields := within.fields (isObject_of_member found) distinct (by decide)
        refine ⟨?_, ?_⟩
        · intro key other
          rw [isAbsent key other, rel_none_iff]
          exact within key (by rwa [List.mem_singleton])
        · rw [sent.member_encode, if_pos rfl]
          exact (groupsIff fields).mpr groups

end Groups

end Rules

/-! ### Requests -/

section Requests

variable (yaml : Yaml) (tenantLabel : GoString)

/-- Rules are forwarded with nothing changed but their tenancy exactly if the
received document has all fields of the types that are always written, in the
form in which they are written, and nothing else. -/
theorem rules_frame_iff (promql : PromQL) (request : Request) (received : Json)
    (isReceived : yaml.toJson request.body = some received) :
    (∀ call, put yaml tenantLabel promql request = .ok call →
      (RulesFrame tenantLabel false received call.document ↔
        PlainRules tenantLabel false received)) ∧
    ∀ document, enforceRuleLabels yaml tenantLabel request = .ok document →
      (GroupFrame tenantLabel true received document ↔
        PlainGroup tenantLabel true received) := by
  have distinct := yaml.distinct _ _ isReceived
  constructor
  · intro call isCall
    obtain ⟨-, -, rules, sent, isRules, isSent, isDocument⟩ := (put_eq_ok _ _ _ _ _).mp isCall
    rw [unmarshalRules, isReceived, Option.bind_some] at isRules
    rw [isDocument]
    exact rulesFrame_iff tenantLabel call.tenant false _ nofun yaml received distinct rules sent
      isRules ((enforceLabelsInRules_eq_ok _ _ _ _ _).mp isSent)
  · intro document isDocument
    obtain ⟨tenant, group, sent, -, isGroup, isSent, rfl⟩ :=
      (enforceRuleLabels_eq_ok _ _ _ _).mp isDocument
    rw [unmarshalRuleGroup, isReceived, Option.bind_some] at isGroup
    exact groupFrame_iff tenantLabel tenant true .ok (fun _ _ => rfl) yaml received distinct group
      sent isGroup isSent

end Requests

/-! A group with the members of the type, and one with a limit. -/

def upRule : Json :=
  .object [(ascii "expr", .string (ascii "up")), (ascii "record", .string (ascii "up:copy"))]

theorem upRule_distinct : upRule.Distinct := by
  refine .object _ (by decide) ?_
  simp only [List.forall_mem_cons, List.not_mem_nil, false_imp_iff, implies_true, and_true]
  exact ⟨.string _, .string _⟩

def upRules : Json :=
  .object [(ascii "groups", .array [.object [(ascii "interval", .string (ascii "1m")),
    (ascii "name", .string (ascii "g")), (ascii "rules", .array [upRule])]])]

theorem upRules_distinct : upRules.Distinct := by
  refine .object _ (by decide) ?_
  simp only [List.forall_mem_cons, List.not_mem_nil, false_imp_iff, implies_true, and_true]
  refine .array _ ?_
  simp only [List.forall_mem_cons, List.not_mem_nil, false_imp_iff, implies_true, and_true]
  refine .object _ (by decide) ?_
  simp only [List.forall_mem_cons, List.not_mem_nil, false_imp_iff, implies_true, and_true]
  refine ⟨.string _, .string _, .array _ ?_⟩
  simp only [List.forall_mem_cons, List.not_mem_nil, false_imp_iff, implies_true, and_true]
  exact upRule_distinct

def limitedGroup : Json :=
  .object [(ascii "interval", .string (ascii "1m")), (ascii "limit", .number (ascii "10")),
    (ascii "name", .string (ascii "g")), (ascii "rules", .array [upRule])]

theorem limitedGroup_distinct : limitedGroup.Distinct := by
  refine .object _ (by decide) ?_
  simp only [List.forall_mem_cons, List.not_mem_nil, false_imp_iff, implies_true, and_true]
  refine ⟨.string _, .number _, .string _, .array _ ?_⟩
  simp only [List.forall_mem_cons, List.not_mem_nil, false_imp_iff, implies_true, and_true]
  exact upRule_distinct

theorem rules_frame_up :
    (∃ call, put (Yaml.only upRules upRules_distinct) (ascii "tenant_id") Metrics.bareMetrics
        rulesRequest = .ok call ∧
      (RulesFrame (ascii "tenant_id") false upRules call.document ↔
        PlainRules (ascii "tenant_id") false upRules)) ∧
    ∃ document, enforceRuleLabels (Yaml.only limitedGroup limitedGroup_distinct)
        (ascii "tenant_id") rulesRequest = .ok document ∧
      (GroupFrame (ascii "tenant_id") true limitedGroup document ↔
        PlainGroup (ascii "tenant_id") true limitedGroup) :=
  ⟨⟨_, rfl, (rules_frame_iff (Yaml.only upRules upRules_distinct) (ascii "tenant_id")
      Metrics.bareMetrics rulesRequest upRules rfl).1 _ rfl⟩,
    _, rfl, (rules_frame_iff (Yaml.only limitedGroup limitedGroup_distinct) (ascii "tenant_id")
      Metrics.bareMetrics rulesRequest limitedGroup rfl).2 _ rfl⟩

/-- The limit of the group is lost. -/
theorem limitedGroup_loses_limit :
    ∃ document, enforceRuleLabels (Yaml.only limitedGroup limitedGroup_distinct)
        (ascii "tenant_id") rulesRequest = .ok document ∧
      limitedGroup.member (ascii "limit") = some (.number (ascii "10")) ∧
      document.member (ascii "limit") = none ∧
      ¬ GroupFrame (ascii "tenant_id") true limitedGroup document := by
  refine ⟨_, rfl, rfl, rfl, ?_⟩
  intro frame
  have related := frame.members (ascii "limit") (by decide)
  cases related

end McoaGateway.Rules
