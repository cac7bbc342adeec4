/-
The tenant label in rules (`api/metrics/v1/rules.go`, `api/logs/v1/rules.go`).

The handler for metrics takes a document of groups, the middleware for logs one
group.  Both go through the rules in the same way, except that only the first
changes the expressions; the loop is given once, with what is done to an
expression as a parameter.
-/

import McoaGateway.Loops
import McoaGateway.Metrics.LabelsEnforcer
import McoaGateway.Rules.Document
import McoaGateway.Server

namespace McoaGateway.Rules

open GoString Json

/-! ### The loops -/

inductive RuleError where
  | recordingRule (rule : Json)
  | alertingRule (rule : Json)
  | ruleType (rule : Json)
  | expression (text : GoString)

section Enforcement

variable (tenantLabel tenantID : GoString) (enforceExpr : GoString → Except GoString GoString)

def setTenant (labels : Option StringMap) : Option StringMap :=
  some ((labels.getD []).set tenantLabel tenantID)

def enforceRule (rule : Json) : Except RuleError Json :=
  if isRecordingRule rule then
    match asRecordingRule rule with
    | none => .error (.recordingRule rule)
    | some rr =>
        match enforceExpr rr.expr with
        | .error text => .error (.expression text)
        | .ok expr =>
            .ok { rr with expr, labels := setTenant tenantLabel tenantID rr.labels }.encode
  else if isAlertingRule rule then
    match asAlertingRule rule with
    | none => .error (.alertingRule rule)
    | some ar =>
        match enforceExpr ar.expr with
        | .error text => .error (.expression text)
        | .ok expr =>
            .ok { ar with expr, labels := setTenant tenantLabel tenantID ar.labels }.encode
  else
    .error (.ruleType rule)

def enforceGroup (group : RuleGroup) : Except RuleError RuleGroup :=
  match group.rules with
  | none => .ok group
  | some items =>
      ((items.mapM (enforceRule tenantLabel tenantID enforceExpr)).map
        fun items => { group with rules := some items })

end Enforcement

/-! ### The handlers -/

/-- The call of the client for the rules of a tenant.  The body is the YAML form
of the document. -/
structure SetRules where
  tenant : GoString
  contentType : GoString
  document : Json

section Handlers

variable (yaml : Yaml) (tenantLabel : GoString)

section Metrics

variable (promql : PromQL)

def enforceLabelsInExpr (tenantID : GoString) : GoString → Except GoString GoString :=
  Metrics.enforceSelector promql [⟨.equal, tenantLabel, tenantID⟩]

def enforceLabelsInRules (tenantID : GoString) (rawRules : Document) : Except RuleError Document :=
  match rawRules.groups with
  | none => .ok rawRules
  | some groups =>
      (groups.mapM (enforceGroup tenantLabel tenantID
        (enforceLabelsInExpr tenantLabel promql tenantID))).map fun groups => ⟨some groups⟩

def put (request : Request) : Except HttpError SetRules :=
  match request.context.tenant with
  | none => .error ⟨.unauthorized, ascii "error finding tenant"⟩
  | some tenant =>
      match unmarshalRules yaml request.body with
      | none => .error ⟨.internalServerError, ascii "error unmarshaling rules"⟩
      | some rawRules =>
          match enforceLabelsInRules tenantLabel promql tenant rawRules with
          | .error _ => .error ⟨.internalServerError, ascii "failed to process rules"⟩
          | .ok rawRules =>
              .ok ⟨tenant, request.header.get (ascii "Content-type"), rawRules.encode⟩

end Metrics

/-- The group that replaces the body of a request. -/
def enforceRuleLabels (request : Request) : Except HttpError Json :=
  match request.context.tenant with
  | none => .error ⟨.unauthorized, ascii "error finding tenant"⟩
  | some tenant =>
      match unmarshalRuleGroup yaml request.body with
      | none => .error ⟨.internalServerError, ascii "error unmarshalling rule group"⟩
      | some group =>
          match enforceGroup tenantLabel tenant .ok group with
          | .error _ => .error ⟨.internalServerError, ascii "error enforing labels into rules"⟩
          | .ok group => .ok group.encode

def withEnforceRuleLabels : Filter where
  run request :=
    match enforceRuleLabels yaml tenantLabel request with
    | .error error => .error error
    | .ok document =>
        .ok { request with
          body := yaml.ofJson document
          contentLength := (yaml.ofJson document).length }
  keeps := by
    intro request sent passes
    cases isDocument : enforceRuleLabels yaml tenantLabel request with
    | error error =>
        rw [isDocument] at passes
        cases passes
    | ok document =>
        rw [isDocument] at passes
        cases passes
        exact ⟨rfl, rfl, rfl, rfl⟩

end Handlers

/-! ### What is done to one rule -/

section Enforcement

variable (tenantLabel tenantID : GoString) (enforceExpr : GoString → Except GoString GoString)
  (rewrites : GoString → GoString → Prop) (fails : GoString → Prop)

/-- The labels of a rule are those received, with the tenant. -/
def LabelsSet (received sent : Option StringMap) : Prop :=
  ∀ key, (sent.getD []).lookup key =
    if key = tenantLabel then some tenantID else (received.getD []).lookup key

structure RuleRewritten (received sent : Json) : Prop where
  recordingKept : isRecordingRule sent = isRecordingRule received
  alertingKept : isAlertingRule sent = isAlertingRule received
  recording : ∀ rule, asRecordingRule received = some rule → rule.record ≠ [] →
    ∃ rewritten, asRecordingRule sent = some rewritten ∧ rewritten.record = rule.record ∧
      LabelsSet tenantLabel tenantID rule.labels rewritten.labels ∧
      rewrites rule.expr rewritten.expr
  alerting : ∀ rule, asAlertingRule received = some rule → rule.alert ≠ [] →
    ∃ rewritten, asAlertingRule sent = some rewritten ∧ rewritten.alert = rule.alert ∧
      LabelsSet tenantLabel tenantID rule.labels rewritten.labels ∧
      rewrites rule.expr rewritten.expr

/-- A rule of no kind, or with an expression that cannot be enforced. -/
def Refused (rule : Json) : Prop :=
  (isRecordingRule rule = false ∧ isAlertingRule rule = false) ∨
    (∃ recording, asRecordingRule rule = some recording ∧ recording.record ≠ [] ∧
      fails recording.expr) ∨
    ∃ alerting, asAlertingRule rule = some alerting ∧ alerting.alert ≠ [] ∧
      fails alerting.expr

theorem labelsSet_setTenant (labels : Option StringMap) :
    LabelsSet tenantLabel tenantID labels (setTenant tenantLabel tenantID labels) := by
  intro key
  rw [setTenant, Option.getD_some]
  by_cases same : key = tenantLabel
  · rw [if_pos same, same, StringMap.lookup_set_self]
  · rw [if_neg same, StringMap.lookup_set_of_ne _ _ _ _ same]

theorem written_setTenant (labels : Option StringMap) :
    written (setTenant tenantLabel tenantID labels) = setTenant tenantLabel tenantID labels := by
  rw [written, setTenant, Option.getD_some, if_neg (StringMap.set_ne_nil _ _ _)]

theorem nodup_setTenant (labels : Option StringMap)
    (keys : ((labels.getD []).map Prod.fst).Nodup) :
    (((setTenant tenantLabel tenantID labels).getD []).map Prod.fst).Nodup :=
  StringMap.nodup_set _ _ _ keys

theorem RecordingRule.nodup_labels {item : Json} {rule : RecordingRule}
    (decoded : asRecordingRule item = some rule) : ((rule.labels.getD []).map Prod.fst).Nodup :=
  field_decodeMap_nodup _ _ _ ((asRecordingRule_eq_some item rule).mp decoded).2.1

theorem AlertingRule.nodup_labels {item : Json} {rule : AlertingRule}
    (decoded : asAlertingRule item = some rule) : ((rule.labels.getD []).map Prod.fst).Nodup :=
  field_decodeMap_nodup _ _ _ ((asAlertingRule_eq_some item rule).mp decoded).2.2.2.2

theorem AlertingRule.nodup_annotations {item : Json} {rule : AlertingRule}
    (decoded : asAlertingRule item = some rule) :
    ((rule.annotations.getD []).map Prod.fst).Nodup :=
  field_decodeMap_nodup _ _ _ ((asAlertingRule_eq_some item rule).mp decoded).2.1

theorem expr_eq {item : Json} {recording : RecordingRule} {alerting : AlertingRule}
    (isRecording : asRecordingRule item = some recording)
    (isAlerting : asAlertingRule item = some alerting) : recording.expr = alerting.expr := by
  have asRecording := ((asRecordingRule_eq_some item recording).mp isRecording).1
  have asAlerting := ((asAlertingRule_eq_some item alerting).mp isAlerting).2.2.1
  exact Option.some.inj (asRecording.symm.trans asAlerting)

inductive Sent (received : Json) : Json → Prop where
  | recording (rule : RecordingRule) (expr : GoString)
      (decoded : asRecordingRule received = some rule) (isRecord : rule.record ≠ [])
      (enforced : enforceExpr rule.expr = .ok expr) :
      Sent received { rule with
        expr, labels := setTenant tenantLabel tenantID rule.labels }.encode
  | alerting (rule : AlertingRule) (expr : GoString)
      (notRecording : isRecordingRule received = false)
      (decoded : asAlertingRule received = some rule) (isAlert : rule.alert ≠ [])
      (enforced : enforceExpr rule.expr = .ok expr) :
      Sent received { rule with
        expr, labels := setTenant tenantLabel tenantID rule.labels }.encode

theorem enforceRule_sent (rule sent : Json)
    (enforced : enforceRule tenantLabel tenantID enforceExpr rule = .ok sent) :
    Sent tenantLabel tenantID enforceExpr rule sent := by
  unfold enforceRule at enforced
  by_cases isRecording : isRecordingRule rule = true
  · obtain ⟨rr, decoded, isRecord⟩ := (isRecordingRule_iff rule).mp isRecording
    rw [if_pos isRecording, decoded] at enforced
    dsimp only at enforced
    cases isExpr : enforceExpr rr.expr with
    | error text =>
        rw [isExpr] at enforced
        cases enforced
    | ok expr =>
        rw [isExpr] at enforced
        cases enforced
        exact .recording rr expr decoded isRecord isExpr
  · rw [if_neg isRecording] at enforced
    by_cases isAlerting : isAlertingRule rule = true
    · obtain ⟨ar, decoded, isAlert⟩ := (isAlertingRule_iff rule).mp isAlerting
      rw [if_pos isAlerting, decoded] at enforced
      dsimp only at enforced
      cases isExpr : enforceExpr ar.expr with
      | error text =>
          rw [isExpr] at enforced
          cases enforced
      | ok expr =>
          rw [isExpr] at enforced
          cases enforced
          exact .alerting ar expr (Bool.not_eq_true _ ▸ isRecording) decoded isAlert isExpr
    · rw [if_neg isAlerting] at enforced
      cases enforced

theorem Sent.enforceRule {rule sent : Json}
    (isSent : Sent tenantLabel tenantID enforceExpr rule sent) :
    enforceRule tenantLabel tenantID enforceExpr rule = .ok sent := by
  cases isSent with
  | recording rr expr decoded isRecord enforced =>
      have isRecording := (isRecordingRule_iff rule).mpr ⟨rr, decoded, isRecord⟩
      rw [Rules.enforceRule, if_pos isRecording, decoded]
      dsimp only
      rw [enforced]
  | alerting ar expr notRecording decoded isAlert enforced =>
      have isAlerting := (isAlertingRule_iff rule).mpr ⟨ar, decoded, isAlert⟩
      rw [Rules.enforceRule, if_neg (by rw [notRecording]; exact Bool.false_ne_true),
        if_pos isAlerting, decoded]
      dsimp only
      rw [enforced]

theorem exists_enforceRule_iff
    (isFails : ∀ expr, (∃ text, enforceExpr expr = .error text) ↔ fails expr) (rule : Json) :
    (∃ sent, enforceRule tenantLabel tenantID enforceExpr rule = .ok sent) ↔
      ¬ Refused fails rule := by
  have contradicts : ∀ {expr enforced}, enforceExpr expr = .ok enforced → ¬ fails expr := by
    intro expr enforced isExpr failed
    obtain ⟨text, isError⟩ := (isFails expr).mpr failed
    rw [isExpr] at isError
    cases isError
  constructor
  · rintro ⟨sent, enforced⟩ refused
    cases enforceRule_sent _ _ _ _ _ enforced with
    | recording rr expr decoded isRecord isExpr =>
        rcases refused with ⟨notRecording, -⟩ | ⟨other, isOther, -, failed⟩ |
          ⟨other, isOther, -, failed⟩
        · have isRecording := (isRecordingRule_iff rule).mpr ⟨rr, decoded, isRecord⟩
          rw [notRecording] at isRecording
          cases isRecording
        · cases decoded.symm.trans isOther
          exact contradicts isExpr failed
        · rw [← expr_eq decoded isOther] at failed
          exact contradicts isExpr failed
    | alerting ar expr notRecording decoded isAlert isExpr =>
        rcases refused with ⟨-, notAlerting⟩ | ⟨other, isOther, isRecord, -⟩ |
          ⟨other, isOther, -, failed⟩
        · have isAlerting := (isAlertingRule_iff rule).mpr ⟨ar, decoded, isAlert⟩
          rw [notAlerting] at isAlerting
          cases isAlerting
        · have isRecording := (isRecordingRule_iff rule).mpr ⟨other, isOther, isRecord⟩
          rw [notRecording] at isRecording
          cases isRecording
        · cases decoded.symm.trans isOther
          exact contradicts isExpr failed
  · intro accepted
    cases isRecording : isRecordingRule rule with
    | true =>
        obtain ⟨rr, decoded, isRecord⟩ := (isRecordingRule_iff rule).mp isRecording
        cases isExpr : enforceExpr rr.expr with
        | error text =>
            have failed := (isFails rr.expr).mp ⟨text, isExpr⟩
            exact (accepted (Or.inr (Or.inl ⟨rr, decoded, isRecord, failed⟩))).elim
        | ok expr =>
            exact ⟨_, Sent.enforceRule _ _ _ (.recording rr expr decoded isRecord isExpr)⟩
    | false =>
        cases isAlerting : isAlertingRule rule with
        | false => exact (accepted (Or.inl ⟨isRecording, isAlerting⟩)).elim
        | true =>
            obtain ⟨ar, decoded, isAlert⟩ := (isAlertingRule_iff rule).mp isAlerting
            cases isExpr : enforceExpr ar.expr with
            | error text =>
                have failed := (isFails ar.expr).mp ⟨text, isExpr⟩
                exact (accepted (Or.inr (Or.inr ⟨ar, decoded, isAlert, failed⟩))).elim
            | ok expr =>
                exact ⟨_, Sent.enforceRule _ _ _
                  (.alerting ar expr isRecording decoded isAlert isExpr)⟩

def OneKind (rule : Json) : Prop :=
  ¬ (isRecordingRule rule = true ∧ isAlertingRule rule = true)

/-- A rule with a record and an alert loses its alert; every other rule stays
what it is. -/
theorem ruleRewritten_iff
    (isRewrites : ∀ raw expr, enforceExpr raw = .ok expr → rewrites raw expr) (rule sent : Json)
    (isSent : Sent tenantLabel tenantID enforceExpr rule sent) :
    RuleRewritten tenantLabel tenantID rewrites rule sent ↔ OneKind rule := by
  cases isSent with
  | recording rr expr decoded isRecord isExpr =>
      have isRecording := (isRecordingRule_iff rule).mpr ⟨rr, decoded, isRecord⟩
      have readBack := asRecordingRule_encode
        { rr with expr, labels := setTenant tenantLabel tenantID rr.labels }
        (nodup_setTenant tenantLabel tenantID rr.labels (RecordingRule.nodup_labels decoded))
      dsimp only at readBack
      rw [written_setTenant] at readBack
      constructor
      · rintro rewritten ⟨-, isAlerting⟩
        have kept := rewritten.alertingKept
        rw [isAlerting, isAlertingRule_recording] at kept
        cases kept
      · intro oneKind
        have notAlerting : isAlertingRule rule = false := by
          rw [← Bool.not_eq_true]
          exact fun isAlerting => oneKind ⟨isRecording, isAlerting⟩
        refine ⟨?_, ?_, ?_, ?_⟩
        · rw [isRecording, isRecordingRule_iff]
          exact ⟨_, readBack, isRecord⟩
        · rw [notAlerting, isAlertingRule_recording]
        · intro other isOther _
          cases decoded.symm.trans isOther
          exact ⟨_, readBack, rfl, labelsSet_setTenant _ _ _, isRewrites _ _ isExpr⟩
        · intro other isOther isAlert
          have isAlerting := (isAlertingRule_iff rule).mpr ⟨other, isOther, isAlert⟩
          exact (oneKind ⟨isRecording, isAlerting⟩).elim
  | alerting ar expr notRecording decoded isAlert isExpr =>
      have readBack := asAlertingRule_encode
        { ar with expr, labels := setTenant tenantLabel tenantID ar.labels }
        (nodup_setTenant tenantLabel tenantID ar.labels (AlertingRule.nodup_labels decoded))
        (show ((ar.annotations.getD []).map Prod.fst).Nodup from
          AlertingRule.nodup_annotations decoded)
      dsimp only at readBack
      rw [written_setTenant] at readBack
      refine iff_of_true ⟨?_, ?_, ?_, ?_⟩ ?_
      · rw [notRecording, isRecordingRule_alerting]
      · have isAlerting := (isAlertingRule_iff rule).mpr ⟨ar, decoded, isAlert⟩
        rw [isAlerting, isAlertingRule_iff]
        exact ⟨_, readBack, isAlert⟩
      · intro other isOther isRecord
        have isRecording := (isRecordingRule_iff rule).mpr ⟨other, isOther, isRecord⟩
        rw [notRecording] at isRecording
        cases isRecording
      · intro other isOther _
        cases decoded.symm.trans isOther
        exact ⟨_, readBack, rfl, labelsSet_setTenant _ _ _, isRewrites _ _ isExpr⟩
      · rintro ⟨isRecording, -⟩
        rw [notRecording] at isRecording
        cases isRecording

/-! ### Groups -/

structure GroupSent (received sent : RuleGroup) : Prop where
  interval : sent.interval = received.interval
  name : sent.name = received.name
  rules : Option.Rel (List.Forall₂ (Sent tenantLabel tenantID enforceExpr)) received.rules
    sent.rules

def RuleGroup.items (group : RuleGroup) : List Json :=
  group.rules.getD []

theorem GroupSent.items {received sent : RuleGroup}
    (isSent : GroupSent tenantLabel tenantID enforceExpr received sent) :
    List.Forall₂ (Sent tenantLabel tenantID enforceExpr) received.items sent.items := by
  obtain ⟨interval, name, items⟩ := received
  obtain ⟨sentInterval, sentName, sentItems⟩ := sent
  obtain ⟨-, -, rules⟩ := isSent
  cases rules with
  | none => exact .nil
  | some related => exact related

theorem mapM_enforceRule_eq_ok (items sent : List Json) :
    items.mapM (enforceRule tenantLabel tenantID enforceExpr) = .ok sent ↔
      List.Forall₂ (Sent tenantLabel tenantID enforceExpr) items sent := by
  rw [mapM_eq_ok_iff]
  constructor
  · exact List.Forall₂.imp fun rule sent => enforceRule_sent _ _ _ rule sent
  · exact List.Forall₂.imp fun _ _ isSent => isSent.enforceRule

theorem map_eq_ok_iff {ε α β : Type} (f : α → β) (outcome : Except ε α) (result : β) :
    outcome.map f = .ok result ↔ ∃ value, outcome = .ok value ∧ f value = result := by
  cases outcome with
  | error failure => exact iff_of_false nofun (by rintro ⟨value, isValue, -⟩; cases isValue)
  | ok value =>
      constructor
      · intro mapped
        exact ⟨value, rfl, Except.ok.inj mapped⟩
      · rintro ⟨own, isOwn, rfl⟩
        cases isOwn
        rfl

theorem enforceGroup_eq_ok (group sent : RuleGroup) :
    enforceGroup tenantLabel tenantID enforceExpr group = .ok sent ↔
      GroupSent tenantLabel tenantID enforceExpr group sent := by
  obtain ⟨interval, name, rules⟩ := group
  obtain ⟨sentInterval, sentName, sentRules⟩ := sent
  cases rules with
  | none =>
      constructor
      · intro enforced
        cases enforced
        exact ⟨rfl, rfl, .none⟩
      · rintro ⟨rfl, rfl, related⟩
        cases related
        rfl
  | some items =>
      rw [enforceGroup, map_eq_ok_iff]
      constructor
      · rintro ⟨rewritten, mapped, same⟩
        cases same
        exact ⟨rfl, rfl, .some ((mapM_enforceRule_eq_ok _ _ _ _ _).mp mapped)⟩
      · rintro ⟨rfl, rfl, related⟩
        cases related with
        | some each => exact ⟨_, (mapM_enforceRule_eq_ok _ _ _ _ _).mpr each, rfl⟩

theorem exists_groupSent_iff
    (isFails : ∀ expr, (∃ text, enforceExpr expr = .error text) ↔ fails expr) (group : RuleGroup) :
    (∃ sent, GroupSent tenantLabel tenantID enforceExpr group sent) ↔
      ∀ rule ∈ group.items, ¬ Refused fails rule := by
  simp only [← exists_enforceRule_iff tenantLabel tenantID enforceExpr fails isFails]
  rw [← exists_forall₂_iff
    (fun rule sent => enforceRule tenantLabel tenantID enforceExpr rule = .ok sent)]
  simp only [← mapM_eq_ok_iff, mapM_enforceRule_eq_ok]
  constructor
  · rintro ⟨sent, isSent⟩
    exact ⟨_, isSent.items⟩
  · obtain ⟨interval, name, rules⟩ := group
    rintro ⟨items, each⟩
    cases rules with
    | none => exact ⟨⟨interval, name, none⟩, rfl, rfl, .none⟩
    | some received => exact ⟨⟨interval, name, some items⟩, rfl, rfl, .some each⟩

structure GroupRewritten (received sent : RuleGroup) : Prop where
  interval : sent.interval = received.interval
  name : sent.name = received.name
  rules : List.Forall₂ (RuleRewritten tenantLabel tenantID rewrites) received.items sent.items

theorem groupRewritten_iff
    (isRewrites : ∀ raw expr, enforceExpr raw = .ok expr → rewrites raw expr)
    (received sent : RuleGroup)
    (isSent : GroupSent tenantLabel tenantID enforceExpr received sent) :
    GroupRewritten tenantLabel tenantID rewrites received sent ↔
      ∀ rule ∈ received.items, OneKind rule := by
  rw [← forall₂_iff_forall_mem isSent.items fun rule sent _ =>
    ruleRewritten_iff tenantLabel tenantID enforceExpr rewrites isRewrites rule sent]
  exact ⟨fun rewritten => rewritten.rules, fun rules => ⟨isSent.interval, isSent.name, rules⟩⟩

end Enforcement

/-! ### Documents -/

section Handlers

variable (yaml : Yaml) (tenantLabel : GoString)

def Document.list (rules : Document) : List RuleGroup :=
  rules.groups.getD []

section Metrics

variable (promql : PromQL)

theorem enforceLabelsInRules_eq_ok (tenantID : GoString) (rules sent : Document) :
    enforceLabelsInRules tenantLabel promql tenantID rules = .ok sent ↔
      Option.Rel (List.Forall₂ (GroupSent tenantLabel tenantID
        (enforceLabelsInExpr tenantLabel promql tenantID))) rules.groups sent.groups := by
  obtain ⟨groups⟩ := rules
  obtain ⟨sentGroups⟩ := sent
  cases groups with
  | none =>
      constructor
      · intro enforced
        cases enforced
        exact .none
      · intro related
        cases related
        rfl
  | some groups =>
      rw [enforceLabelsInRules, map_eq_ok_iff]
      simp only [mapM_eq_ok_iff, enforceGroup_eq_ok]
      constructor
      · rintro ⟨rewritten, each, same⟩
        cases same
        exact .some each
      · intro related
        cases related with
        | some each => exact ⟨_, each, rfl⟩

theorem exists_enforceLabelsInRules_iff (tenantID : GoString) (rules : Document) :
    (∃ sent, enforceLabelsInRules tenantLabel promql tenantID rules = .ok sent) ↔
      ∀ group ∈ rules.list, ∀ rule ∈ group.items,
        ¬ Refused (promql.Fails [⟨.equal, tenantLabel, tenantID⟩]) rule := by
  simp only [← exists_groupSent_iff tenantLabel tenantID
    (enforceLabelsInExpr tenantLabel promql tenantID) _ fun _ => Metrics.enforceSelector_fails]
  rw [← exists_forall₂_iff]
  simp only [enforceLabelsInRules_eq_ok]
  obtain ⟨groups⟩ := rules
  constructor
  · rintro ⟨⟨sent⟩, related⟩
    cases related with
    | none => exact ⟨[], .nil⟩
    | some each => exact ⟨_, each⟩
  · rintro ⟨sent, each⟩
    cases groups with
    | none => exact ⟨⟨none⟩, .none⟩
    | some groups => exact ⟨⟨some sent⟩, .some each⟩

/-- What is sent to the client for the rules, and when nothing is. -/
structure MetricsRewritten (request : Request) : Prop where
  sent : ∀ call, put yaml tenantLabel promql request = .ok call →
    request.context.tenant = some call.tenant ∧
      ∃ received sent, unmarshalRules yaml request.body = some received ∧
        decodeRules yaml call.document = some sent ∧
        List.Forall₂ (GroupRewritten tenantLabel call.tenant
          (promql.Enforces [⟨.equal, tenantLabel, call.tenant⟩])) received.list sent.list
  refused : ∀ tenant received, request.context.tenant = some tenant →
    unmarshalRules yaml request.body = some received →
    (∃ group ∈ received.list, ∃ rule ∈ group.items,
      Refused (promql.Fails [⟨.equal, tenantLabel, tenant⟩]) rule) →
    put yaml tenantLabel promql request =
      .error ⟨.internalServerError, ascii "failed to process rules"⟩
  unread : unmarshalRules yaml request.body = none →
    ∃ error, put yaml tenantLabel promql request = .error error

theorem put_eq_ok (request : Request) (call : SetRules) :
    put yaml tenantLabel promql request = .ok call ↔
      request.context.tenant = some call.tenant ∧
        call.contentType = request.header.get (ascii "Content-type") ∧
        ∃ received sent, unmarshalRules yaml request.body = some received ∧
          enforceLabelsInRules tenantLabel promql call.tenant received = .ok sent ∧
          call.document = sent.encode := by
  obtain ⟨tenant, contentType, document⟩ := call
  unfold put
  constructor
  · intro isCall
    cases isTenant : request.context.tenant with
    | none =>
        rw [isTenant] at isCall
        cases isCall
    | some own =>
        cases isReceived : unmarshalRules yaml request.body with
        | none =>
            rw [isTenant, isReceived] at isCall
            cases isCall
        | some received =>
            cases isSent : enforceLabelsInRules tenantLabel promql own received with
            | error failure =>
                rw [isTenant, isReceived] at isCall
                dsimp only at isCall
                rw [isSent] at isCall
                cases isCall
            | ok sent =>
                rw [isTenant, isReceived] at isCall
                dsimp only at isCall
                rw [isSent] at isCall
                cases isCall
                exact ⟨rfl, rfl, received, sent, rfl, isSent, rfl⟩
  · rintro ⟨isTenant, rfl, received, sent, isReceived, isSent, rfl⟩
    rw [isTenant, isReceived]
    dsimp only
    rw [isSent]

theorem forall₂_groupRewritten_iff (tenantID : GoString) (received sent : Document)
    (isSent : enforceLabelsInRules tenantLabel promql tenantID received = .ok sent) :
    List.Forall₂ (GroupRewritten tenantLabel tenantID
        (promql.Enforces [⟨.equal, tenantLabel, tenantID⟩])) received.list sent.list ↔
      ∀ group ∈ received.list, ∀ rule ∈ group.items, OneKind rule := by
  obtain ⟨groups⟩ := received
  obtain ⟨sentGroups⟩ := sent
  have related := (enforceLabelsInRules_eq_ok _ _ _ _ _).mp isSent
  cases related with
  | none => exact iff_of_true .nil (fun _ member => (List.not_mem_nil member).elim)
  | some each =>
      exact forall₂_iff_forall_mem each fun group sentGroup _ =>
        groupRewritten_iff tenantLabel tenantID _ _
          (fun _ _ => Metrics.enforceSelector_eq_ok.mp) group sentGroup

theorem metricsRewritten_iff (request : Request) :
    MetricsRewritten yaml tenantLabel promql request ↔
      ∀ tenant received, request.context.tenant = some tenant →
        unmarshalRules yaml request.body = some received →
        (∀ group ∈ received.list, ∀ rule ∈ group.items,
          ¬ Refused (promql.Fails [⟨.equal, tenantLabel, tenant⟩]) rule) →
        ∀ group ∈ received.list, ∀ rule ∈ group.items, OneKind rule := by
  constructor
  · intro rewritten tenant received isTenant isReceived accepted
    obtain ⟨sent, isSent⟩ := (exists_enforceLabelsInRules_iff _ _ _ _).mpr accepted
    have isCall := (put_eq_ok yaml tenantLabel promql request
      ⟨tenant, request.header.get (ascii "Content-type"), sent.encode⟩).mpr
        ⟨isTenant, rfl, received, sent, isReceived, isSent, rfl⟩
    obtain ⟨-, ownReceived, ownSent, isOwn, isDecoded, each⟩ := rewritten.sent _ isCall
    rw [isReceived] at isOwn
    rw [decodeRules_encode] at isDecoded
    cases isOwn
    cases isDecoded
    exact (forall₂_groupRewritten_iff _ _ _ _ _ isSent).mp each
  · intro oneKind
    refine ⟨?_, ?_, ?_⟩
    · intro call isCall
      obtain ⟨isTenant, -, received, sent, isReceived, isSent, isDocument⟩ :=
        (put_eq_ok _ _ _ _ _).mp isCall
      have accepted := (exists_enforceLabelsInRules_iff _ _ _ _).mp ⟨sent, isSent⟩
      refine ⟨isTenant, received, sent, isReceived, ?_, ?_⟩
      · rw [isDocument, decodeRules_encode]
      · exact (forall₂_groupRewritten_iff _ _ _ _ _ isSent).mpr
          (oneKind call.tenant received isTenant isReceived accepted)
    · rintro tenant received isTenant isReceived ⟨group, isGroup, rule, isRule, refused⟩
      cases isSent : enforceLabelsInRules tenantLabel promql tenant received with
      | ok sent =>
          have accepted := (exists_enforceLabelsInRules_iff _ _ _ _).mp ⟨sent, isSent⟩
          exact (accepted group isGroup rule isRule refused).elim
      | error failure =>
          rw [put, isTenant, isReceived]
          dsimp only
          rw [isSent]
    · intro isUnread
      cases isPut : put yaml tenantLabel promql request with
      | error error => exact ⟨error, rfl⟩
      | ok call =>
          obtain ⟨-, -, received, -, isReceived, -⟩ := (put_eq_ok _ _ _ _ _).mp isPut
          rw [isUnread] at isReceived
          cases isReceived

end Metrics

/-- What replaces the body of a request for the logs, and when nothing does.  The
expressions stay as they are. -/
structure LogsRewritten (request : Request) : Prop where
  sent : ∀ document, enforceRuleLabels yaml tenantLabel request = .ok document →
    ∃ tenant received sent, request.context.tenant = some tenant ∧
      unmarshalRuleGroup yaml request.body = some received ∧
      decodeGroup yaml .zero document = some sent ∧
      GroupRewritten tenantLabel tenant Eq received sent
  refused : ∀ tenant received, request.context.tenant = some tenant →
    unmarshalRuleGroup yaml request.body = some received →
    (∃ rule ∈ received.items, Refused (fun _ => False) rule) →
    (withEnforceRuleLabels yaml tenantLabel).run request =
      .error ⟨.internalServerError, ascii "error enforing labels into rules"⟩
  unread : unmarshalRuleGroup yaml request.body = none →
    ∃ error, (withEnforceRuleLabels yaml tenantLabel).run request = .error error

theorem enforceRuleLabels_eq_ok (request : Request) (document : Json) :
    enforceRuleLabels yaml tenantLabel request = .ok document ↔
      ∃ tenant received sent, request.context.tenant = some tenant ∧
        unmarshalRuleGroup yaml request.body = some received ∧
        GroupSent tenantLabel tenant .ok received sent ∧ document = sent.encode := by
  simp only [← enforceGroup_eq_ok]
  unfold enforceRuleLabels
  constructor
  · intro isDocument
    cases isTenant : request.context.tenant with
    | none =>
        rw [isTenant] at isDocument
        cases isDocument
    | some tenant =>
        cases isReceived : unmarshalRuleGroup yaml request.body with
        | none =>
            rw [isTenant, isReceived] at isDocument
            cases isDocument
        | some received =>
            cases isSent : enforceGroup tenantLabel tenant .ok received with
            | error failure =>
                rw [isTenant, isReceived] at isDocument
                dsimp only at isDocument
                rw [isSent] at isDocument
                cases isDocument
            | ok sent =>
                rw [isTenant, isReceived] at isDocument
                dsimp only at isDocument
                rw [isSent] at isDocument
                cases isDocument
                exact ⟨tenant, received, sent, rfl, rfl, isSent, rfl⟩
  · rintro ⟨tenant, received, sent, isTenant, isReceived, isSent, rfl⟩
    rw [isTenant, isReceived]
    dsimp only
    rw [isSent]

private theorem ok_never_fails (expr : GoString) :
    (∃ text, (Except.ok expr : Except GoString GoString) = .error text) ↔ False :=
  iff_of_false nofun id

theorem logsRewritten_iff (request : Request) :
    LogsRewritten yaml tenantLabel request ↔
      ∀ tenant received, request.context.tenant = some tenant →
        unmarshalRuleGroup yaml request.body = some received →
        (∀ rule ∈ received.items, ¬ Refused (fun _ => False) rule) →
        ∀ rule ∈ received.items, OneKind rule := by
  constructor
  · intro rewritten tenant received isTenant isReceived accepted
    obtain ⟨sent, isSent⟩ :=
      (exists_groupSent_iff tenantLabel tenant .ok _ ok_never_fails received).mpr accepted
    have isDocument := (enforceRuleLabels_eq_ok yaml tenantLabel request sent.encode).mpr
      ⟨tenant, received, sent, isTenant, isReceived, isSent, rfl⟩
    obtain ⟨own, ownReceived, ownSent, isOwn, isOwnReceived, isDecoded, each⟩ :=
      rewritten.sent _ isDocument
    rw [isTenant] at isOwn
    rw [isReceived] at isOwnReceived
    rw [decodeGroup_encode] at isDecoded
    cases isOwn
    cases isOwnReceived
    cases isDecoded
    exact (groupRewritten_iff _ _ _ _ (fun _ _ => Except.ok.inj) _ _ isSent).mp each
  · intro oneKind
    refine ⟨?_, ?_, ?_⟩
    · intro document isDocument
      obtain ⟨tenant, received, sent, isTenant, isReceived, isSent, rfl⟩ :=
        (enforceRuleLabels_eq_ok _ _ _ _).mp isDocument
      have accepted := (exists_groupSent_iff _ _ _ _ ok_never_fails _).mp ⟨sent, isSent⟩
      refine ⟨tenant, received, sent, isTenant, isReceived, decodeGroup_encode yaml _ _, ?_⟩
      exact (groupRewritten_iff _ _ _ _ (fun _ _ => Except.ok.inj) _ _ isSent).mpr
        (oneKind tenant received isTenant isReceived accepted)
    · rintro tenant received isTenant isReceived ⟨rule, isRule, refused⟩
      cases isSent : enforceGroup tenantLabel tenant .ok received with
      | ok sent =>
          have accepted := (exists_groupSent_iff _ _ _ _ ok_never_fails _).mp
            ⟨sent, (enforceGroup_eq_ok _ _ _ _ _).mp isSent⟩
          exact (accepted rule isRule refused).elim
      | error failure =>
          have isAnswer : enforceRuleLabels yaml tenantLabel request =
              .error ⟨.internalServerError, ascii "error enforing labels into rules"⟩ := by
            rw [enforceRuleLabels, isTenant, isReceived]
            dsimp only
            rw [isSent]
          unfold withEnforceRuleLabels
          dsimp only
          rw [isAnswer]
    · intro isUnread
      unfold withEnforceRuleLabels
      dsimp only
      cases isAnswer : enforceRuleLabels yaml tenantLabel request with
      | error error => exact ⟨error, rfl⟩
      | ok document =>
          obtain ⟨_, received, -, -, isReceived, -⟩ := (enforceRuleLabels_eq_ok _ _ _ _).mp isAnswer
          rw [isUnread] at isReceived
          cases isReceived

/-- Every rule of a document or of a group is rewritten exactly if none has both
a record and an alert. -/
theorem rulesRewritten_iff (promql : PromQL) (request : Request) :
    (MetricsRewritten yaml tenantLabel promql request ↔
      ∀ tenant received, request.context.tenant = some tenant →
        unmarshalRules yaml request.body = some received →
        (∀ group ∈ received.list, ∀ rule ∈ group.items,
          ¬ Refused (promql.Fails [⟨.equal, tenantLabel, tenant⟩]) rule) →
        ∀ group ∈ received.list, ∀ rule ∈ group.items, OneKind rule) ∧
    (LogsRewritten yaml tenantLabel request ↔
      ∀ tenant received, request.context.tenant = some tenant →
        unmarshalRuleGroup yaml request.body = some received →
        (∀ rule ∈ received.items, ¬ Refused (fun _ => False) rule) →
        ∀ rule ∈ received.items, OneKind rule) :=
  ⟨metricsRewritten_iff yaml tenantLabel promql request, logsRewritten_iff yaml tenantLabel request⟩

end Handlers

example : (enforceLabelsInExpr (ascii "tenant_id") Metrics.bareMetrics (ascii "t")
    (ascii "up")).toOption = some (ascii "up\x7btenant_id=\"t\"\x7d") := by
  decide +kernel

/-! ### A rule with a record and an alert -/

def ambiguousRule : Json :=
  .object [(ascii "alert", .string (ascii "Down")), (ascii "expr", .string (ascii "up == 0")),
    (ascii "for", .string (ascii "1m")), (ascii "record", .string (ascii "down"))]

def ambiguousGroup : Json :=
  .object [(ascii "interval", .string (ascii "1m")), (ascii "name", .string (ascii "g")),
    (ascii "rules", .array [ambiguousRule])]

theorem ambiguousGroup_distinct : ambiguousGroup.Distinct := by
  refine .object _ (by decide) ?_
  simp only [List.forall_mem_cons, List.not_mem_nil, false_imp_iff, implies_true, and_true]
  refine ⟨.string _, .string _, .array _ ?_⟩
  simp only [List.forall_mem_cons, List.not_mem_nil, false_imp_iff, implies_true, and_true]
  refine .object _ (by decide) ?_
  simp only [List.forall_mem_cons, List.not_mem_nil, false_imp_iff, implies_true, and_true]
  exact ⟨.string _, .string _, .string _, .string _⟩

def Yaml.only (doc : Json) (distinct : doc.Distinct) : Yaml where
  toJson _ := some doc
  ofJson _ := []
  numberText text := text
  distinct := by
    rintro _ _ ⟨⟩
    exact distinct

def rulesRequest : Request where
  method := methodPost
  url := ⟨ascii "/api/v1/rules/t", [], []⟩
  header := []
  body := []
  contentLength := 0
  tls := none
  context := { Context.background with tenant := some (ascii "t") }

/-- The forwarded rule is a recording rule only. -/
theorem ambiguousRule_loses_alert :
    isAlertingRule ambiguousRule = true ∧
      (∃ sent, enforceRule (ascii "tenant_id") (ascii "t") .ok ambiguousRule = .ok sent ∧
        isAlertingRule sent = false) ∧
      ¬ LogsRewritten (Yaml.only ambiguousGroup ambiguousGroup_distinct) (ascii "tenant_id")
        rulesRequest := by
  have isRecording : isRecordingRule ambiguousRule = true := by decide +kernel
  have isAlerting : isAlertingRule ambiguousRule = true := by decide +kernel
  refine ⟨isAlerting, ⟨_, rfl, by decide +kernel⟩, ?_⟩
  intro rewritten
  have isGroup : unmarshalRuleGroup (Yaml.only ambiguousGroup ambiguousGroup_distinct)
      rulesRequest.body = some ⟨ascii "1m", ascii "g", some [ambiguousRule]⟩ := rfl
  have accepted : ∀ rule ∈ [ambiguousRule], ¬ Refused (fun _ => False) rule := by
    intro rule member
    rw [List.mem_singleton] at member
    rw [member, ← exists_enforceRule_iff (ascii "tenant_id") (ascii "t") .ok _ ok_never_fails]
    exact ⟨_, rfl⟩
  have oneKind := (logsRewritten_iff _ _ _).mp rewritten (ascii "t") _ rfl isGroup accepted
  exact oneKind ambiguousRule List.mem_cons_self ⟨isRecording, isAlerting⟩

end McoaGateway.Rules
