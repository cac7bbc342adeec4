/-
Redaction of traces (`api/traces/v1/trace_rbac.go`).

`traceRBAC` removes what a caller may not see from the entries of namespaces
that are not allowed.  The messages are modelled with the fields it reads and
writes; the other fields of a message stand together, as they are encoded.
What a redaction keeps secret is a property of two runs: `Variant` relates the
traces which a caller must not be able to tell apart.
-/

import McoaGateway.GoString
import McoaGateway.Loops

namespace McoaGateway.Traces

open GoString

/-! ### The messages -/

inductive AnyValue where
  | absent
  | stringValue (text : GoString)
  | other (encoding : GoString)
deriving DecidableEq, Repr

def AnyValue.getStringValue : AnyValue → GoString
  | .absent => []
  | .stringValue text => text
  | .other _ => []

structure KeyValue where
  key : GoString
  value : AnyValue
deriving DecidableEq, Repr

structure Link where
  attributes : List KeyValue
  fields : GoString
deriving DecidableEq, Repr

structure Span where
  attributes : List KeyValue
  -- Their encodings.
  events : List GoString
  links : List Link
  fields : GoString
deriving DecidableEq, Repr

structure Scope where
  attributes : List KeyValue
  fields : GoString
deriving DecidableEq, Repr

structure ScopeSpans where
  scope : Option Scope
  spans : List Span
  fields : GoString
deriving DecidableEq, Repr

structure Resource (Attributes : Type) where
  attributes : Attributes
  fields : GoString
deriving DecidableEq, Repr

structure ResourceSpans (Attributes : Type) where
  resource : Option (Resource Attributes)
  scopeSpans : List ScopeSpans
  fields : GoString
deriving DecidableEq, Repr

structure Trace (Attributes : Type) where
  resourceSpans : List (ResourceSpans Attributes)
deriving DecidableEq, Repr

/-- Attributes as they are decoded; a list without elements may be `nil`. -/
abbrev Received := Option (List KeyValue)

/-- Attributes as they are returned, where an element may be `nil`. -/
abbrev Returned := List (Option KeyValue)

/-! ### `traceRBAC` -/

def namespaceAttributeKey : GoString := ascii "k8s.namespace.name"

def serviceAttributeKey : GoString := ascii "service.name"

def getAttribute (attributes : List KeyValue) (key : GoString) : Option KeyValue :=
  attributes.find? fun attr => attr.key = key

def Span.redact (span : Span) : Span :=
  { span with attributes := [], events := [] }

/-- `none` for the dereference of a missing scope. -/
def ScopeSpans.redact (scopeSpan : ScopeSpans) : Option ScopeSpans :=
  scopeSpan.scope.map fun scope =>
    { scopeSpan with
      scope := some { scope with attributes := [] }
      spans := scopeSpan.spans.map Span.redact }

def redactScopes (scopeSpans : List ScopeSpans) : Option (List ScopeSpans) :=
  scopeSpans.mapM ScopeSpans.redact

/-- The variables of the loop over the resource attributes. -/
structure Visit where
  notAllowedNamespace : GoString
  missingNamespaceAttribute : Bool
  scopeSpans : List ScopeSpans
deriving DecidableEq, Repr

section

variable (allowedNamespaces : GoString → Bool)

def visitAttribute (visit : Visit) (resAttr : KeyValue) : Option Visit :=
  if resAttr.key = namespaceAttributeKey then
    if allowedNamespaces resAttr.value.getStringValue then
      some { visit with missingNamespaceAttribute := false }
    else
      (redactScopes visit.scopeSpans).map fun scopeSpans =>
        ⟨resAttr.value.getStringValue, false, scopeSpans⟩
  else some visit

def resourceSpansRBAC (rs : ResourceSpans Received) : Option (ResourceSpans Returned) :=
  match rs.resource with
  | none => some ⟨none, rs.scopeSpans, rs.fields⟩
  | some resource =>
      match resource.attributes with
      | none => some ⟨some ⟨[], resource.fields⟩, rs.scopeSpans, rs.fields⟩
      | some attributes =>
          match attributes.foldlM (visitAttribute allowedNamespaces)
              ⟨[], true, rs.scopeSpans⟩ with
          | none => none
          | some visit =>
              let serviceAttribute := getAttribute attributes serviceAttributeKey
              if visit.missingNamespaceAttribute then
                (redactScopes visit.scopeSpans).map fun scopeSpans =>
                  ⟨some ⟨serviceAttribute.toList.map some, resource.fields⟩, scopeSpans,
                    rs.fields⟩
              else if visit.notAllowedNamespace ≠ [] then
                some ⟨some ⟨[some ⟨namespaceAttributeKey,
                    .stringValue visit.notAllowedNamespace⟩, serviceAttribute],
                  resource.fields⟩, visit.scopeSpans, rs.fields⟩
              else
                some ⟨some ⟨attributes.map some, resource.fields⟩, visit.scopeSpans,
                  rs.fields⟩

/-- `none` for a panic. -/
def traceRBAC (trace : Trace Received) : Option (Trace Returned) :=
  (trace.resourceSpans.mapM (resourceSpansRBAC allowedNamespaces)).map Trace.mk

/-! ### The namespaces of an entry -/

def Resource.list (resource : Resource Received) : List KeyValue :=
  resource.attributes.getD []

def namespacesOf (attributes : List KeyValue) : List KeyValue :=
  attributes.filter fun attr => attr.key = namespaceAttributeKey

/-- The namespace attributes whose values are not allowed. -/
def refusedOf (attributes : List KeyValue) : List KeyValue :=
  (namespacesOf attributes).filter fun attr => !allowedNamespaces attr.value.getStringValue

def lastRefused (attributes : List KeyValue) : GoString :=
  ((refusedOf allowedNamespaces attributes).getLast?.map
    fun attr => attr.value.getStringValue).getD []

/-- The entry has no namespace attribute, or one that is not allowed. -/
def Hidden (rs : ResourceSpans Received) : Prop :=
  ∀ resource, rs.resource = some resource →
    namespacesOf resource.list = [] ∨ refusedOf allowedNamespaces resource.list ≠ []

/-! ### What may differ in a hidden entry -/

def Link.mask (link : Link) : Link :=
  { link with attributes := [] }

def Span.mask (span : Span) : Span :=
  { span.redact with links := span.links.map Link.mask }

def ScopeSpans.mask (scopeSpan : ScopeSpans) : ScopeSpans :=
  { scopeSpan with
    scope := scopeSpan.scope.map fun scope => { scope with attributes := [] }
    spans := scopeSpan.spans.map Span.mask }

structure ResourceView where
  namespaces : List KeyValue
  service : Option KeyValue
  fields : GoString
deriving DecidableEq, Repr

def Resource.view (resource : Resource Received) : ResourceView :=
  ⟨namespacesOf resource.list, getAttribute resource.list serviceAttributeKey, resource.fields⟩

/-- Two entries agree, except for what must stay secret in a hidden one. -/
structure Agree (rs other : ResourceSpans Received) : Prop where
  resource : other.resource.map Resource.view = rs.resource.map Resource.view
  scopeSpans : other.scopeSpans.map ScopeSpans.mask = rs.scopeSpans.map ScopeSpans.mask
  fields : other.fields = rs.fields

def EntryVariant (rs other : ResourceSpans Received) : Prop :=
  other = rs ∨ Hidden allowedNamespaces rs ∧ Agree rs other

/-- Traces which the caller must not be able to tell apart. -/
def Variant (trace other : Trace Received) : Prop :=
  List.Forall₂ (EntryVariant allowedNamespaces) trace.resourceSpans other.resourceSpans

/-- The redaction returns, and returns the same for every variant of a trace. -/
def Noninterfering (trace : Trace Received) : Prop :=
  ∀ other, Variant allowedNamespaces trace other →
    ∃ returned, traceRBAC allowedNamespaces trace = some returned ∧
      traceRBAC allowedNamespaces other = some returned

/-! ### The condition -/

/-- Everything secret in the scopes is removed by a redaction. -/
def Clearable (scopeSpans : List ScopeSpans) : Prop :=
  ∀ scopeSpan ∈ scopeSpans,
    scopeSpan.scope.isSome ∧ ∀ span ∈ scopeSpan.spans, span.links = []

/-- There is nothing that could differ in the scopes. -/
def Bare (scopeSpans : List ScopeSpans) : Prop :=
  ∀ scopeSpan ∈ scopeSpans, scopeSpan.scope = none ∧ scopeSpan.spans = []

/-- A resource that is known to have attributes, and whose scopes can be
cleared.  A namespace that is not allowed must have a text. -/
def Covered (rs : ResourceSpans Received) : Prop :=
  match rs.resource with
  | none => Bare rs.scopeSpans
  | some resource =>
      if namespacesOf resource.list = [] then
        if getAttribute resource.list serviceAttributeKey = none then rs.scopeSpans = []
        else Clearable rs.scopeSpans
      else lastRefused allowedNamespaces resource.list ≠ [] ∧ Clearable rs.scopeSpans

/-! ### The scopes -/

omit allowedNamespaces in
theorem redactScopes_cons (scopeSpan : ScopeSpans) (rest : List ScopeSpans) :
    redactScopes (scopeSpan :: rest) =
      scopeSpan.redact.bind fun first => (redactScopes rest).map (first :: ·) := by
  rw [redactScopes, List.mapM_cons, redactScopes]
  cases scopeSpan.redact with
  | none => rfl
  | some first =>
      cases rest.mapM ScopeSpans.redact with
      | none => rfl
      | some others => rfl

theorem redact_some (scopeSpan redacted : ScopeSpans) (clears : scopeSpan.redact = some redacted) :
    redacted.redact = some redacted ∧ scopeSpan.scope.isSome := by
  obtain ⟨scope, isScope, isRedacted⟩ := Option.map_eq_some_iff.mp clears
  rw [← isRedacted, isScope]
  refine ⟨?_, rfl⟩
  simp [ScopeSpans.redact, Span.redact, Function.comp_def]

theorem redactScopes_idem (scopeSpans redacted : List ScopeSpans)
    (clears : redactScopes scopeSpans = some redacted) : redactScopes redacted = some redacted := by
  induction scopeSpans generalizing redacted with
  | nil =>
      cases clears
      rfl
  | cons scopeSpan rest ih =>
      rw [redactScopes_cons] at clears
      obtain ⟨first, isFirst, restClears⟩ := Option.bind_eq_some_iff.mp clears
      obtain ⟨others, isOthers, rfl⟩ := Option.map_eq_some_iff.mp restClears
      rw [redactScopes_cons, (redact_some scopeSpan first isFirst).1, Option.bind_some,
        ih others isOthers, Option.map_some]

theorem redactScopes_clearable (scopeSpans : List ScopeSpans) (clearable : Clearable scopeSpans) :
    redactScopes scopeSpans = some (scopeSpans.map ScopeSpans.mask) := by
  induction scopeSpans with
  | nil => rfl
  | cons scopeSpan rest ih =>
      rw [Clearable, List.forall_mem_cons] at clearable
      obtain ⟨⟨present, unlinked⟩, others⟩ := clearable
      obtain ⟨scope, isScope⟩ := Option.isSome_iff_exists.mp present
      have spans : scopeSpan.spans.map Span.redact = scopeSpan.spans.map Span.mask := by
        apply List.map_congr_left
        intro span member
        rw [Span.mask, unlinked span member, List.map_nil]
        rw [Span.redact, unlinked span member]
      rw [redactScopes_cons, ScopeSpans.redact, isScope, Option.map_some, Option.bind_some,
        ih others, Option.map_some, List.map_cons, ScopeSpans.mask, isScope, Option.map_some,
        spans]

theorem clearable_of_mask (scopeSpans others : List ScopeSpans)
    (same : others.map ScopeSpans.mask = scopeSpans.map ScopeSpans.mask)
    (clearable : Clearable scopeSpans) : Clearable others := by
  intro other member
  have masked : other.mask ∈ scopeSpans.map ScopeSpans.mask := by
    rw [← same]
    exact List.mem_map_of_mem member
  obtain ⟨scopeSpan, isScope, sameMask⟩ := List.mem_map.mp masked
  obtain ⟨present, unlinked⟩ := clearable scopeSpan isScope
  constructor
  · have scopes := congrArg (fun s => s.scope.isSome) sameMask
    simp only [ScopeSpans.mask, Option.isSome_map] at scopes
    rw [← scopes]
    exact present
  · intro span inSpans
    have spans := congrArg ScopeSpans.spans sameMask
    have maskedSpan : span.mask ∈ scopeSpan.spans.map Span.mask := by
      rw [show scopeSpan.spans.map Span.mask = other.spans.map Span.mask from spans]
      exact List.mem_map_of_mem inSpans
    obtain ⟨own, isOwn, sameSpan⟩ := List.mem_map.mp maskedSpan
    have links := congrArg Span.links sameSpan
    simp only [Span.mask, unlinked own isOwn, List.map_nil] at links
    exact List.map_eq_nil_iff.mp links.symm

/-! ### One entry -/

theorem foldlM_visitAttribute (attributes : List KeyValue) (visit : Visit) :
    attributes.foldlM (visitAttribute allowedNamespaces) visit =
      if refusedOf allowedNamespaces attributes = [] then
        some { visit with
          missingNamespaceAttribute :=
            visit.missingNamespaceAttribute && (namespacesOf attributes).isEmpty }
      else
        (redactScopes visit.scopeSpans).map fun scopeSpans =>
          ⟨lastRefused allowedNamespaces attributes, false, scopeSpans⟩ := by
  induction attributes generalizing visit with
  | nil => simp [refusedOf, namespacesOf]
  | cons attr rest ih =>
      rw [List.foldlM_cons]
      by_cases isNamespace : attr.key = namespaceAttributeKey
      · have namespaces : namespacesOf (attr :: rest) = attr :: namespacesOf rest := by
          simp [namespacesOf, isNamespace]
        cases isAllowed : allowedNamespaces attr.value.getStringValue with
        | true =>
            have refused : refusedOf allowedNamespaces (attr :: rest) =
                refusedOf allowedNamespaces rest := by
              rw [refusedOf, namespaces, List.filter_cons_of_neg (by simp [isAllowed]), refusedOf]
            have stepped : visitAttribute allowedNamespaces visit attr =
                some { visit with missingNamespaceAttribute := false } := by
              rw [visitAttribute, if_pos isNamespace, if_pos isAllowed]
            rw [stepped, Option.bind_eq_bind, Option.bind_some, ih, lastRefused, lastRefused,
              refused, namespaces]
            simp
        | false =>
            have refused : refusedOf allowedNamespaces (attr :: rest) =
                attr :: refusedOf allowedNamespaces rest := by
              rw [refusedOf, namespaces, List.filter_cons_of_pos (by simp [isAllowed]), refusedOf]
            have stepped : visitAttribute allowedNamespaces visit attr =
                (redactScopes visit.scopeSpans).map fun scopeSpans =>
                  ⟨attr.value.getStringValue, false, scopeSpans⟩ := by
              rw [visitAttribute, if_pos isNamespace, if_neg (by simp [isAllowed])]
            rw [stepped, refused, if_neg (List.cons_ne_nil _ _)]
            cases clears : redactScopes visit.scopeSpans with
            | none => rfl
            | some scopeSpans =>
                rw [Option.map_some, Option.map_some, Option.bind_eq_bind, Option.bind_some, ih]
                dsimp only
                rw [redactScopes_idem _ _ clears, lastRefused, lastRefused, refused]
                cases refusedOf allowedNamespaces rest with
                | nil => simp
                | cons first others => simp
      · have namespaces : namespacesOf (attr :: rest) = namespacesOf rest := by
          simp [namespacesOf, isNamespace]
        rw [visitAttribute, if_neg isNamespace, Option.bind_eq_bind, Option.bind_some, ih,
          lastRefused, lastRefused, refusedOf, refusedOf, namespaces]

theorem resourceSpansRBAC_attributes (rs : ResourceSpans Received)
    (resource : Resource Received) (attributes : List KeyValue)
    (isResource : rs.resource = some resource) (isList : resource.attributes = some attributes) :
    resourceSpansRBAC allowedNamespaces rs =
      if namespacesOf attributes = [] then
        (redactScopes rs.scopeSpans).map fun scopeSpans =>
          ⟨some ⟨(getAttribute attributes serviceAttributeKey).toList.map some,
            resource.fields⟩, scopeSpans, rs.fields⟩
      else if refusedOf allowedNamespaces attributes = [] then
        some ⟨some ⟨attributes.map some, resource.fields⟩, rs.scopeSpans, rs.fields⟩
      else
        (redactScopes rs.scopeSpans).map fun scopeSpans =>
          ⟨some ⟨if lastRefused allowedNamespaces attributes ≠ [] then
              [some ⟨namespaceAttributeKey,
                .stringValue (lastRefused allowedNamespaces attributes)⟩,
                getAttribute attributes serviceAttributeKey]
            else attributes.map some, resource.fields⟩, scopeSpans, rs.fields⟩ := by
  rw [resourceSpansRBAC, isResource]
  dsimp only
  rw [isList]
  dsimp only
  rw [foldlM_visitAttribute]
  by_cases noNamespace : namespacesOf attributes = []
  · have noRefused : refusedOf allowedNamespaces attributes = [] := by
      rw [refusedOf, noNamespace]
      rfl
    rw [if_pos noRefused, if_pos noNamespace, noNamespace]
    rfl
  · rw [if_neg noNamespace]
    by_cases noRefused : refusedOf allowedNamespaces attributes = []
    · rw [if_pos noRefused, if_pos noRefused]
      simp [noNamespace]
    · rw [if_neg noRefused, if_neg noRefused]
      cases redactScopes rs.scopeSpans with
      | none => rfl
      | some scopeSpans =>
          simp only [Option.map_some, Bool.false_eq_true, if_false]
          split
          · rfl
          · rfl

def released (rs : ResourceSpans Received) : ResourceSpans Returned where
  resource := (rs.resource.map Resource.view).map fun view =>
    ⟨if view.namespaces = [] then view.service.toList.map some
      else [some ⟨namespaceAttributeKey,
        .stringValue (lastRefused allowedNamespaces view.namespaces)⟩, view.service],
      view.fields⟩
  scopeSpans := rs.scopeSpans.map ScopeSpans.mask
  fields := rs.fields

theorem released_agree {rs other : ResourceSpans Received} (agree : Agree rs other) :
    released allowedNamespaces other = released allowedNamespaces rs := by
  rw [released, released, agree.resource, agree.scopeSpans, agree.fields]

omit allowedNamespaces in
theorem namespacesOf_idem (attributes : List KeyValue) :
    namespacesOf (namespacesOf attributes) = namespacesOf attributes := by
  simp [namespacesOf]

theorem lastRefused_namespacesOf (attributes : List KeyValue) :
    lastRefused allowedNamespaces (namespacesOf attributes) =
      lastRefused allowedNamespaces attributes := by
  rw [lastRefused, lastRefused, refusedOf, refusedOf, namespacesOf_idem]

omit allowedNamespaces in
theorem mask_bare (scopeSpans : List ScopeSpans) (bare : Bare scopeSpans) :
    scopeSpans.map ScopeSpans.mask = scopeSpans := by
  have same : ∀ scopeSpan ∈ scopeSpans, scopeSpan.mask = scopeSpan := by
    rintro ⟨scope, spans, fields⟩ member
    obtain ⟨isScope, isSpans⟩ := bare _ member
    dsimp only at isScope isSpans
    rw [isScope, isSpans]
    rfl
  rw [List.map_congr_left same, List.map_id']

theorem Resource.attributes_of_list (resource : Resource Received)
    (nonempty : resource.list ≠ []) : resource.attributes = some resource.list := by
  unfold Resource.list at nonempty ⊢
  cases attributes : resource.attributes with
  | none =>
      rw [attributes] at nonempty
      exact absurd rfl nonempty
  | some list => rfl

theorem resourceSpansRBAC_covered (rs : ResourceSpans Received)
    (hidden : Hidden allowedNamespaces rs) (covered : Covered allowedNamespaces rs) :
    resourceSpansRBAC allowedNamespaces rs = some (released allowedNamespaces rs) := by
  unfold Covered at covered
  cases isResource : rs.resource with
  | none =>
      rw [isResource] at covered
      rw [resourceSpansRBAC, isResource, released, isResource, mask_bare rs.scopeSpans covered]
      rfl
  | some resource =>
      rw [isResource] at covered
      dsimp only at covered
      by_cases noNamespace : namespacesOf resource.list = []
      · rw [if_pos noNamespace] at covered
        by_cases noService : getAttribute resource.list serviceAttributeKey = none
        · rw [if_pos noService] at covered
          have shown : released allowedNamespaces rs =
              ⟨some ⟨[], resource.fields⟩, [], rs.fields⟩ := by
            simp [released, isResource, covered, Resource.view, noNamespace, noService]
          rw [shown]
          cases attributes : resource.attributes with
          | none =>
              rw [resourceSpansRBAC, isResource]
              dsimp only
              rw [attributes, covered]
          | some list =>
              have isList : resource.list = list := by
                rw [Resource.list, attributes, Option.getD_some]
              rw [isList] at noNamespace noService
              rw [resourceSpansRBAC_attributes allowedNamespaces rs resource list isResource
                attributes, if_pos noNamespace, covered, noService]
              rfl
        · rw [if_neg noService] at covered
          have nonempty : resource.list ≠ [] := by
            intro isEmpty
            rw [isEmpty] at noService
            exact noService rfl
          rw [resourceSpansRBAC_attributes allowedNamespaces rs resource _ isResource
            (resource.attributes_of_list nonempty), if_pos noNamespace,
            redactScopes_clearable _ covered, released, isResource]
          simp [Resource.view, noNamespace]
      · rw [if_neg noNamespace] at covered
        have nonempty : resource.list ≠ [] := by
          intro isEmpty
          rw [isEmpty] at noNamespace
          exact noNamespace rfl
        have refused : refusedOf allowedNamespaces resource.list ≠ [] :=
          (hidden resource isResource).resolve_left noNamespace
        rw [resourceSpansRBAC_attributes allowedNamespaces rs resource _ isResource
          (resource.attributes_of_list nonempty), if_neg noNamespace, if_neg refused,
          if_pos covered.1, redactScopes_clearable _ covered.2, released, isResource]
        simp [Resource.view, noNamespace, lastRefused_namespacesOf]

theorem view_agree {rs other : ResourceSpans Received} {resource : Resource Received}
    (agree : Agree rs other) (isResource : rs.resource = some resource) :
    ∃ own, other.resource = some own ∧ own.view = resource.view := by
  have same := agree.resource
  rw [isResource, Option.map_some] at same
  exact Option.map_eq_some_iff.mp same

theorem hidden_agree {rs other : ResourceSpans Received} (agree : Agree rs other)
    (hidden : Hidden allowedNamespaces rs) : Hidden allowedNamespaces other := by
  intro own isOwn
  have same := agree.resource
  rw [isOwn, Option.map_some] at same
  obtain ⟨resource, isResource, sameView⟩ := Option.map_eq_some_iff.mp same.symm
  have namespaces : namespacesOf own.list = namespacesOf resource.list :=
    (congrArg ResourceView.namespaces sameView).symm
  rw [refusedOf, namespaces]
  exact hidden resource isResource

theorem covered_agree {rs other : ResourceSpans Received} (agree : Agree rs other)
    (covered : Covered allowedNamespaces rs) : Covered allowedNamespaces other := by
  unfold Covered at covered ⊢
  cases isResource : rs.resource with
  | none =>
      have none_other : other.resource = none := by
        have same := agree.resource
        rw [isResource] at same
        exact Option.map_eq_none_iff.mp same
      rw [isResource] at covered
      rw [none_other]
      intro scopeSpan member
      have masked : scopeSpan.mask ∈ rs.scopeSpans := by
        rw [← mask_bare rs.scopeSpans covered, ← agree.scopeSpans]
        exact List.mem_map_of_mem member
      obtain ⟨isScope, isSpans⟩ := covered _ masked
      exact ⟨Option.map_eq_none_iff.mp isScope, List.map_eq_nil_iff.mp isSpans⟩
  | some resource =>
      obtain ⟨own, isOwn, sameView⟩ := view_agree agree isResource
      have namespaces : namespacesOf own.list = namespacesOf resource.list :=
        congrArg ResourceView.namespaces sameView
      have service : getAttribute own.list serviceAttributeKey =
          getAttribute resource.list serviceAttributeKey := congrArg ResourceView.service sameView
      have refused : lastRefused allowedNamespaces own.list =
          lastRefused allowedNamespaces resource.list := by
        rw [← lastRefused_namespacesOf, namespaces, lastRefused_namespacesOf]
      rw [isResource] at covered
      rw [isOwn]
      dsimp only at covered ⊢
      rw [namespaces, service, refused]
      have clears := clearable_of_mask rs.scopeSpans other.scopeSpans agree.scopeSpans
      split at covered
      · rename_i noNamespace
        rw [if_pos noNamespace]
        split at covered
        · rename_i noService
          rw [if_pos noService]
          have same := agree.scopeSpans
          rw [covered] at same
          exact List.map_eq_nil_iff.mp same
        · rename_i hasService
          rw [if_neg hasService]
          exact clears covered
      · rename_i hasNamespace
        rw [if_neg hasNamespace]
        exact ⟨covered.1, clears covered.2⟩

/-! ### Variants of an entry that a redaction can tell apart -/

def noise : KeyValue :=
  ⟨[], .absent⟩

def Link.noisy (link : Link) : Link :=
  { link with attributes := noise :: link.attributes }

def Span.noisy (span : Span) : Span :=
  { span with attributes := noise :: span.attributes, links := span.links.map Link.noisy }

def ScopeSpans.noisy (scopeSpan : ScopeSpans) : ScopeSpans :=
  { scopeSpan with
    scope := scopeSpan.scope.map fun scope => { scope with attributes := noise :: scope.attributes }
    spans := scopeSpan.spans.map Span.noisy }

theorem mask_noisy (scopeSpan : ScopeSpans) : scopeSpan.noisy.mask = scopeSpan.mask := by
  simp [ScopeSpans.mask, ScopeSpans.noisy, Span.mask, Span.noisy, Span.redact, Link.mask,
    Link.noisy, Function.comp_def]

theorem bare_of_noisy (scopeSpans : List ScopeSpans)
    (same : scopeSpans.map ScopeSpans.noisy = scopeSpans) : Bare scopeSpans := by
  intro scopeSpan member
  have own : scopeSpan.noisy = scopeSpan := by
    have all : scopeSpans.map ScopeSpans.noisy = scopeSpans.map id := by
      rw [same, List.map_id]
    exact List.map_inj_left.mp all scopeSpan member
  constructor
  · have scopes := congrArg (fun s => s.scope.map fun scope => scope.attributes.length) own
    cases isScope : scopeSpan.scope with
    | none => rfl
    | some scope => simp [ScopeSpans.noisy, isScope] at scopes
  · have spans := congrArg (fun s => s.spans.map fun span => span.attributes.length) own
    cases isSpans : scopeSpan.spans with
    | nil => rfl
    | cons span rest => simp [ScopeSpans.noisy, Span.noisy, isSpans] at spans

theorem redactScopes_some (scopeSpans redacted : List ScopeSpans)
    (clears : redactScopes scopeSpans = some redacted) :
    (∀ scopeSpan ∈ scopeSpans, scopeSpan.scope.isSome) ∧
      redacted.map (fun scopeSpan => scopeSpan.spans.map Span.links) =
        scopeSpans.map fun scopeSpan => scopeSpan.spans.map Span.links := by
  induction scopeSpans generalizing redacted with
  | nil =>
      cases clears
      exact ⟨fun _ member => (List.not_mem_nil member).elim, rfl⟩
  | cons scopeSpan rest ih =>
      rw [redactScopes_cons] at clears
      obtain ⟨first, isFirst, restClears⟩ := Option.bind_eq_some_iff.mp clears
      obtain ⟨others, isOthers, rfl⟩ := Option.map_eq_some_iff.mp restClears
      obtain ⟨present, links⟩ := ih others isOthers
      have firstLinks : first.spans.map Span.links = scopeSpan.spans.map Span.links := by
        obtain ⟨scope, _, isRedacted⟩ := Option.map_eq_some_iff.mp isFirst
        rw [← isRedacted]
        simp [Span.redact, Function.comp_def]
      rw [List.forall_mem_cons, List.map_cons, List.map_cons, firstLinks, links]
      exact ⟨⟨(redact_some scopeSpan first isFirst).2, present⟩, rfl⟩

theorem clearable_of_noisy (scopeSpans redacted : List ScopeSpans)
    (clears : redactScopes scopeSpans = some redacted)
    (noisyClears : redactScopes (scopeSpans.map ScopeSpans.noisy) = some redacted) :
    Clearable scopeSpans := by
  obtain ⟨present, links⟩ := redactScopes_some _ _ clears
  obtain ⟨_, noisyLinks⟩ := redactScopes_some _ _ noisyClears
  rw [links, List.map_map] at noisyLinks
  intro scopeSpan member
  refine ⟨present scopeSpan member, ?_⟩
  have spans := List.map_inj_left.mp noisyLinks scopeSpan member
  simp only [Function.comp_def, ScopeSpans.noisy, List.map_map] at spans
  intro span inSpans
  have own := congrArg (List.map fun link => link.attributes.length)
    (List.map_inj_left.mp spans span inSpans)
  cases isLinks : span.links with
  | nil => rfl
  | cons link rest => simp [Span.noisy, Link.noisy, isLinks] at own

section

variable {allowedNamespaces} {rs : ResourceSpans Received}
  (blind : ∀ other, Agree rs other → ∃ returned,
    resourceSpansRBAC allowedNamespaces rs = some returned ∧
      resourceSpansRBAC allowedNamespaces other = some returned)

include blind

theorem blind_same {left right : ResourceSpans Received} (agreeLeft : Agree rs left)
    (agreeRight : Agree rs right) :
    ∃ returned, resourceSpansRBAC allowedNamespaces left = some returned ∧
      resourceSpansRBAC allowedNamespaces right = some returned := by
  obtain ⟨returned, own, isLeft⟩ := blind left agreeLeft
  obtain ⟨again, sameOwn, isRight⟩ := blind right agreeRight
  rw [own] at sameOwn
  cases sameOwn
  exact ⟨returned, isLeft, isRight⟩

theorem bare_of_blind (isNone : rs.resource = none) : Bare rs.scopeSpans := by
  have agree : Agree rs { rs with scopeSpans := rs.scopeSpans.map ScopeSpans.noisy } :=
    ⟨rfl, by simp [mask_noisy, Function.comp_def], rfl⟩
  obtain ⟨returned, own, noisy⟩ := blind _ agree
  rw [resourceSpansRBAC, isNone] at own
  rw [resourceSpansRBAC] at noisy
  dsimp only at noisy
  rw [isNone] at noisy
  cases own
  exact bare_of_noisy rs.scopeSpans (congrArg ResourceSpans.scopeSpans (Option.some.inj noisy))

theorem noScopes_of_blind (resource : Resource Received) (isResource : rs.resource = some resource)
    (noNamespace : namespacesOf resource.list = [])
    (noService : getAttribute resource.list serviceAttributeKey = none) : rs.scopeSpans = [] := by
  have agree : ∀ (attributes : Received) (scopeSpans : List ScopeSpans),
      attributes.getD [] = [] → scopeSpans.map ScopeSpans.mask = rs.scopeSpans.map ScopeSpans.mask →
      Agree rs ⟨some ⟨attributes, resource.fields⟩, scopeSpans, rs.fields⟩ := by
    intro attributes scopeSpans isEmpty sameMask
    have own : Resource.view ⟨attributes, resource.fields⟩ = ⟨[], none, resource.fields⟩ := by
      rw [Resource.view, show Resource.list ⟨attributes, resource.fields⟩ = [] from isEmpty]
      rfl
    refine ⟨?_, sameMask, rfl⟩
    rw [isResource, Option.map_some, Option.map_some, own, Resource.view, noNamespace, noService]
  have masked : (rs.scopeSpans.map ScopeSpans.noisy).map ScopeSpans.mask =
      rs.scopeSpans.map ScopeSpans.mask := by
    simp [mask_noisy, Function.comp_def]
  obtain ⟨returned, plain, noisy⟩ := blind_same blind (agree none _ rfl rfl)
    (agree none _ rfl masked)
  have bare : Bare rs.scopeSpans := by
    apply bare_of_noisy
    cases plain
    exact congrArg ResourceSpans.scopeSpans (Option.some.inj noisy)
  obtain ⟨_, _, cleared⟩ := blind _ (agree (some []) _ rfl rfl)
  rw [resourceSpansRBAC_attributes allowedNamespaces _ _ [] rfl rfl] at cleared
  obtain ⟨redacted, clears, _⟩ := Option.map_eq_some_iff.mp cleared
  cases isScopes : rs.scopeSpans with
  | nil => rfl
  | cons scopeSpan rest =>
      have present := (redactScopes_some _ _ clears).1 scopeSpan (by simp [isScopes])
      rw [(bare scopeSpan (by simp [isScopes])).1] at present
      cases present

theorem clearable_of_blind
    (redacts : ∀ scopeSpans, ∃ shown : List ScopeSpans → ResourceSpans Returned,
      (∀ redacted, (shown redacted).scopeSpans = redacted) ∧
        resourceSpansRBAC allowedNamespaces { rs with scopeSpans } =
          (redactScopes scopeSpans).map shown) : Clearable rs.scopeSpans := by
  have agree : Agree rs { rs with scopeSpans := rs.scopeSpans.map ScopeSpans.noisy } :=
    ⟨rfl, by simp [mask_noisy, Function.comp_def], rfl⟩
  obtain ⟨returned, own, noisy⟩ := blind _ agree
  obtain ⟨shown, shows, isShown⟩ := redacts rs.scopeSpans
  obtain ⟨noisyShown, noisyShows, isNoisyShown⟩ := redacts (rs.scopeSpans.map ScopeSpans.noisy)
  rw [show resourceSpansRBAC allowedNamespaces rs = _ from isShown] at own
  rw [isNoisyShown] at noisy
  obtain ⟨redacted, clears, isReturned⟩ := Option.map_eq_some_iff.mp own
  obtain ⟨alsoRedacted, noisyClears, isAlso⟩ := Option.map_eq_some_iff.mp noisy
  have same : alsoRedacted = redacted := by
    rw [← noisyShows alsoRedacted, isAlso, ← isReturned, shows]
  rw [same] at noisyClears
  exact clearable_of_noisy rs.scopeSpans redacted clears noisyClears

theorem covered_of_blind (hidden : Hidden allowedNamespaces rs) :
    Covered allowedNamespaces rs := by
  unfold Covered
  cases isResource : rs.resource with
  | none => exact bare_of_blind blind isResource
  | some resource =>
      dsimp only
      by_cases noNamespace : namespacesOf resource.list = []
      · rw [if_pos noNamespace]
        by_cases noService : getAttribute resource.list serviceAttributeKey = none
        · rw [if_pos noService]
          exact noScopes_of_blind blind resource isResource noNamespace noService
        · rw [if_neg noService]
          have nonempty : resource.list ≠ [] := by
            intro isEmpty
            rw [isEmpty] at noService
            exact noService rfl
          apply clearable_of_blind blind
          intro scopeSpans
          refine ⟨_, ?_, (resourceSpansRBAC_attributes allowedNamespaces { rs with scopeSpans }
            resource resource.list isResource
            (resource.attributes_of_list nonempty)).trans (if_pos noNamespace)⟩
          exact fun redacted => rfl
      · rw [if_neg noNamespace]
        have nonempty : resource.list ≠ [] := by
          intro isEmpty
          rw [isEmpty] at noNamespace
          exact noNamespace rfl
        have isList := resource.attributes_of_list nonempty
        have refused : refusedOf allowedNamespaces resource.list ≠ [] :=
          (hidden resource isResource).resolve_left noNamespace
        constructor
        · intro noText
          -- One more resource attribute is shown next to an empty namespace.
          have namespaces : namespacesOf (resource.list ++ [noise]) =
              namespacesOf resource.list := by
            rw [namespacesOf, List.filter_append, ← namespacesOf]
            exact List.append_nil _
          have service : getAttribute (resource.list ++ [noise]) serviceAttributeKey =
              getAttribute resource.list serviceAttributeKey := by
            rw [getAttribute, List.find?_append, ← getAttribute]
            exact Option.or_none
          have agree : Agree rs { rs with
              resource := some ⟨some (resource.list ++ [noise]), resource.fields⟩ } := by
            refine ⟨?_, rfl, rfl⟩
            rw [isResource, Option.map_some, Option.map_some, Resource.view, Resource.view]
            simp only [Resource.list, Option.getD_some] at namespaces service ⊢
            rw [namespaces, service]
          obtain ⟨returned, own, noisy⟩ := blind _ agree
          have noisyRefused : refusedOf allowedNamespaces (resource.list ++ [noise]) =
              refusedOf allowedNamespaces resource.list := by
            rw [refusedOf, namespaces, refusedOf]
          have noisyText : lastRefused allowedNamespaces (resource.list ++ [noise]) = [] := by
            rw [lastRefused, noisyRefused, ← lastRefused, noText]
          rw [resourceSpansRBAC_attributes allowedNamespaces rs resource _ isResource isList,
            if_neg noNamespace, if_neg refused, noText] at own
          rw [resourceSpansRBAC_attributes allowedNamespaces _ _ _ rfl rfl, namespaces,
            if_neg noNamespace, noisyRefused, if_neg refused, noisyText] at noisy
          obtain ⟨redacted, clears, isReturned⟩ := Option.map_eq_some_iff.mp own
          obtain ⟨alsoRedacted, _, isAlso⟩ := Option.map_eq_some_iff.mp noisy
          rw [← isReturned] at isAlso
          have lengths := congrArg
            (fun shown => shown.resource.map fun resource => resource.attributes.length) isAlso
          simp at lengths
        · apply clearable_of_blind blind
          intro scopeSpans
          refine ⟨_, ?_, (resourceSpansRBAC_attributes allowedNamespaces { rs with scopeSpans }
            resource resource.list isResource isList).trans
              ((if_neg noNamespace).trans (if_neg refused))⟩
          exact fun redacted => rfl

end

/-! ### Traces -/

theorem resourceSpansRBAC_visible (rs : ResourceSpans Received)
    (visible : ¬ Hidden allowedNamespaces rs) :
    ∃ returned, resourceSpansRBAC allowedNamespaces rs = some returned := by
  unfold Hidden at visible
  push Not at visible
  obtain ⟨resource, isResource, hasNamespace, allAllowed⟩ := visible
  have nonempty : resource.list ≠ [] := by
    intro isEmpty
    rw [isEmpty] at hasNamespace
    exact hasNamespace rfl
  rw [resourceSpansRBAC_attributes allowedNamespaces rs resource _ isResource
    (resource.attributes_of_list nonempty), if_neg hasNamespace, if_pos allAllowed]
  exact ⟨_, rfl⟩

/-- The redaction keeps the secrets of a trace exactly if each of its hidden
entries is covered. -/
theorem noninterfering_iff (trace : Trace Received) :
    Noninterfering allowedNamespaces trace ↔
      ∀ rs ∈ trace.resourceSpans, Hidden allowedNamespaces rs →
        Covered allowedNamespaces rs := by
  have entries := forall₂_mapM_iff (EntryVariant allowedNamespaces) (fun _ => Or.inl rfl)
    (resourceSpansRBAC allowedNamespaces) trace.resourceSpans
  have traces : Noninterfering allowedNamespaces trace ↔
      ∀ other, List.Forall₂ (EntryVariant allowedNamespaces) trace.resourceSpans other →
        ∃ result, trace.resourceSpans.mapM (resourceSpansRBAC allowedNamespaces) = some result ∧
          other.mapM (resourceSpansRBAC allowedNamespaces) = some result := by
    unfold Noninterfering Variant traceRBAC
    constructor
    · intro same other related
      obtain ⟨returned, left, right⟩ := same ⟨other⟩ related
      obtain ⟨result, isResult, rfl⟩ := Option.map_eq_some_iff.mp left
      obtain ⟨again, isAgain, sameTrace⟩ := Option.map_eq_some_iff.mp right
      cases sameTrace
      exact ⟨result, isResult, isAgain⟩
    · intro same other related
      obtain ⟨result, left, right⟩ := same other.resourceSpans related
      rw [left, right]
      exact ⟨⟨result⟩, rfl, rfl⟩
  rw [traces, entries]
  constructor
  · intro same rs member hidden
    exact covered_of_blind (fun other agree => same rs member other (Or.inr ⟨hidden, agree⟩)) hidden
  · intro covered rs member other related
    by_cases hidden : Hidden allowedNamespaces rs
    · have agree : Agree rs other := by
        rcases related with isSame | ⟨_, agree⟩
        · rw [isSame]
          exact ⟨rfl, rfl, rfl⟩
        · exact agree
      have isCovered := covered rs member hidden
      refine ⟨released allowedNamespaces rs,
        resourceSpansRBAC_covered allowedNamespaces rs hidden isCovered, ?_⟩
      rw [resourceSpansRBAC_covered allowedNamespaces other
        (hidden_agree allowedNamespaces agree hidden)
        (covered_agree allowedNamespaces agree isCovered), released_agree allowedNamespaces agree]
    · obtain ⟨returned, isReturned⟩ := resourceSpansRBAC_visible allowedNamespaces rs hidden
      rcases related with isSame | ⟨isHidden, _⟩
      · rw [isSame]
        exact ⟨returned, isReturned, isReturned⟩
      · exact absurd isHidden hidden

end

/-! A span of an entry without a resource. -/

def spanOf (secret : String) : Trace Received :=
  ⟨[⟨none, [⟨some ⟨[], []⟩, [⟨[⟨ascii "user", .stringValue (ascii secret)⟩], [], [], []⟩], []⟩],
    []⟩]⟩

/-- Two traces that differ in a span attribute of a hidden entry, and are
returned as they are. -/
theorem missingResource_interferes :
    Variant (fun _ => false) (spanOf "alice") (spanOf "bob") ∧
      traceRBAC (fun _ => false) (spanOf "alice") ≠ traceRBAC (fun _ => false) (spanOf "bob") := by
  refine ⟨.cons (Or.inr ⟨?_, ?_⟩) .nil, by decide +kernel⟩
  · intro resource impossible
    cases impossible
  · exact ⟨rfl, rfl, rfl⟩

end McoaGateway.Traces
