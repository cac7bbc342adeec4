/-
The redaction of responses of the trace store (`api/traces/v1/trace_rbac.go`).

`responseRBACModifier` decodes a response, redacts the message and encodes it
again.  Decoding and encoding are parameters; a decoded message may lack any
message that it refers to, but lists have no `nil` elements.
-/

import McoaGateway.Http
import McoaGateway.Traces.SearchRbac

namespace McoaGateway.Traces

open GoString

/-! ### What a redaction leaves alone -/

def ResourceSpans.kept (rs : ResourceSpans Received) : ResourceSpans Returned where
  resource := rs.resource.map fun resource => ⟨resource.list.map some, resource.fields⟩
  scopeSpans := rs.scopeSpans
  fields := rs.fields

def ScopeSpans.frame (scopeSpan : ScopeSpans) : ScopeSpans :=
  { scopeSpan with
    scope := scopeSpan.scope.map fun scope => { scope with attributes := [] }
    spans := scopeSpan.spans.map Span.redact }

/-- Everything except the attributes of the resource, the scopes and the spans,
and the events of the spans. -/
def ResourceSpans.frame {Attributes : Type} (rs : ResourceSpans Attributes) :
    ResourceSpans Unit where
  resource := rs.resource.map fun resource => ⟨(), resource.fields⟩
  scopeSpans := rs.scopeSpans.map ScopeSpans.frame
  fields := rs.fields

theorem redactScopes_frame (scopeSpans redacted : List ScopeSpans)
    (clears : redactScopes scopeSpans = some redacted) :
    redacted.map ScopeSpans.frame = scopeSpans.map ScopeSpans.frame := by
  induction scopeSpans generalizing redacted with
  | nil =>
      cases clears
      rfl
  | cons scopeSpan rest ih =>
      rw [redactScopes_cons] at clears
      obtain ⟨first, isFirst, restClears⟩ := Option.bind_eq_some_iff.mp clears
      obtain ⟨others, isOthers, rfl⟩ := Option.map_eq_some_iff.mp restClears
      obtain ⟨scope, isScope, rfl⟩ := Option.map_eq_some_iff.mp isFirst
      rw [List.map_cons, List.map_cons, ih others isOthers]
      simp [ScopeSpans.frame, isScope, Span.redact, Function.comp_def]

section

variable (allowedNamespaces : GoString → Bool)

/-- The resource has namespaces, all with a text that is allowed. -/
def Permitted (rs : ResourceSpans Received) : Prop :=
  ∃ resource, rs.resource = some resource ∧ namespacesOf resource.list ≠ [] ∧
    ∀ attr ∈ namespacesOf resource.list,
      ∃ text, attr.value = .stringValue text ∧ allowedNamespaces text = true

theorem resourceSpansRBAC_frame (rs : ResourceSpans Received) (returned : ResourceSpans Returned)
    (returns : resourceSpansRBAC allowedNamespaces rs = some returned) :
    returned.frame = rs.frame := by
  cases isResource : rs.resource with
  | none =>
      rw [resourceSpansRBAC, isResource] at returns
      cases returns
      rw [ResourceSpans.frame, ResourceSpans.frame, isResource]
      rfl
  | some resource =>
      cases isList : resource.attributes with
      | none =>
          rw [resourceSpansRBAC, isResource] at returns
          dsimp only at returns
          rw [isList] at returns
          cases returns
          rw [ResourceSpans.frame, ResourceSpans.frame, isResource]
          rfl
      | some attributes =>
          rw [resourceSpansRBAC_attributes allowedNamespaces rs resource attributes isResource
            isList] at returns
          have framed : ∀ (shown : Returned) (scopeSpans : List ScopeSpans),
              scopeSpans.map ScopeSpans.frame = rs.scopeSpans.map ScopeSpans.frame →
              ResourceSpans.frame ⟨some ⟨shown, resource.fields⟩, scopeSpans, rs.fields⟩ =
                rs.frame := by
            intro shown scopeSpans same
            rw [ResourceSpans.frame, ResourceSpans.frame, isResource]
            simp only [Option.map_some, same]
          split at returns
          · obtain ⟨redacted, clears, rfl⟩ := Option.map_eq_some_iff.mp returns
            exact framed _ _ (redactScopes_frame _ _ clears)
          · split at returns
            · cases returns
              exact framed _ _ rfl
            · obtain ⟨redacted, clears, rfl⟩ := Option.map_eq_some_iff.mp returns
              exact framed _ _ (redactScopes_frame _ _ clears)

theorem resourceSpansRBAC_permitted (rs : ResourceSpans Received)
    (permitted : Permitted allowedNamespaces rs) :
    resourceSpansRBAC allowedNamespaces rs = some rs.kept := by
  obtain ⟨resource, isResource, hasNamespace, allAllowed⟩ := permitted
  have nonempty : resource.list ≠ [] := by
    intro isEmpty
    rw [isEmpty] at hasNamespace
    exact hasNamespace rfl
  have noRefused : refusedOf allowedNamespaces resource.list = [] := by
    rw [refusedOf, List.filter_eq_nil_iff]
    intro attr member
    obtain ⟨text, isText, isAllowed⟩ := allAllowed attr member
    rw [isText]
    simp [AnyValue.getStringValue, isAllowed]
  rw [resourceSpansRBAC_attributes allowedNamespaces rs resource _ isResource
    (resource.attributes_of_list nonempty), if_neg hasNamespace, if_pos noRefused,
    ResourceSpans.kept, isResource]
  rfl

/-- When the redaction of a trace returns, each entry is returned with the same
structure and the same other fields, and unchanged if its namespaces are
allowed. -/
theorem traceRBAC_frame (trace : Trace Received) (returned : Trace Returned)
    (returns : traceRBAC allowedNamespaces trace = some returned) :
    List.Forall₂ (fun rs shown =>
        (Permitted allowedNamespaces rs → shown = rs.kept) ∧ shown.frame = rs.frame)
      trace.resourceSpans returned.resourceSpans := by
  obtain ⟨entries, mapped, rfl⟩ := Option.map_eq_some_iff.mp returns
  refine ((mapM_eq_some_iff _ _ _).mp mapped).imp ?_
  intro rs shown isShown
  refine ⟨?_, resourceSpansRBAC_frame allowedNamespaces rs shown isShown⟩
  intro permitted
  rw [resourceSpansRBAC_permitted allowedNamespaces rs permitted] at isShown
  exact (Option.some.inj isShown).symm

end

def sharedTrace : Trace Received :=
  ⟨[⟨some ⟨some [⟨namespaceAttributeKey, .stringValue (ascii "shop")⟩], ascii "resource"⟩,
      [⟨some ⟨[⟨ascii "library", .absent⟩], []⟩,
        [⟨[⟨ascii "user", .absent⟩], [ascii "event"], [], ascii "span"⟩], []⟩], []⟩,
    ⟨some ⟨some [⟨namespaceAttributeKey, .stringValue (ascii "bank")⟩,
        ⟨serviceAttributeKey, .stringValue (ascii "teller")⟩], []⟩,
      [⟨some ⟨[], []⟩, [⟨[⟨ascii "user", .absent⟩], [ascii "event"], [], ascii "span"⟩], []⟩],
      []⟩]⟩

/-- A trace with an entry of an allowed namespace and one of another. -/
theorem traceRBAC_frame_shared :
    ∃ returned, traceRBAC (fun name => name = ascii "shop") sharedTrace = some returned ∧
      List.Forall₂ (fun rs shown =>
          (Permitted (fun name => name = ascii "shop") rs → shown = rs.kept) ∧
            shown.frame = rs.frame)
        sharedTrace.resourceSpans returned.resourceSpans := by
  cases returns : traceRBAC (fun name => name = ascii "shop") sharedTrace with
  | none => exact absurd returns (by decide +kernel)
  | some returned => exact ⟨returned, rfl, traceRBAC_frame _ sharedTrace returned returns⟩

/-! ### `responseRBACModifier` -/

structure TraceByIDResponse (Attributes : Type) where
  trace : Option (Trace Attributes)
  fields : GoString
deriving DecidableEq, Repr

inductive Decoded where
  | trace (trace : Trace Received)
  | traceByID (response : TraceByIDResponse Received)
  | search (response : SearchResponse)
deriving DecidableEq, Repr

inductive Message where
  | trace (trace : Trace Returned)
  | traceByID (response : TraceByIDResponse Returned)
  | search (response : SearchResponse)
deriving DecidableEq, Repr

inductive Format where
  | protobuf
  | json
deriving DecidableEq, Repr

/-- The decoders of the three messages and their encoders; `none` is an error. -/
structure Codec where
  unmarshalTrace : Format → GoString → Option (Trace Received)
  unmarshalTraceByID : Format → GoString → Option (TraceByIDResponse Received)
  unmarshalSearch : Format → GoString → Option SearchResponse
  marshal : Format → Message → Option GoString

structure Response where
  /-- The path of the request that it answers. -/
  path : GoString
  /-- What the request's context holds of the authorization. -/
  matchers : Option AuthzResponseData
  statusCode : Nat
  header : Header
  /-- `none` when it cannot be read. -/
  body : Option GoString
deriving DecidableEq, Repr

def isWordByte (b : UInt8) : Bool :=
  (byte 'a' ≤ b && b ≤ byte 'z') || (byte 'A' ≤ b && b ≤ byte 'Z') ||
    (byte '0' ≤ b && b ≤ byte '9') || b = byte '_'

/-- A path with one more segment, of word characters. -/
def matchesWord (start path : GoString) : Bool :=
  hasPrefix path start && !(path.drop start.length).isEmpty &&
    (path.drop start.length).all isWordByte

def routeQueryV1 (path : GoString) : Bool :=
  matchesWord (ascii "/api/traces/") path

def routeQueryV2 (path : GoString) : Bool :=
  matchesWord (ascii "/api/v2/traces/") path

def routeSearch (path : GoString) : Bool :=
  path = ascii "/api/search"

def filteredAPIs : List (GoString → Bool) :=
  [routeQueryV1, routeQueryV2, routeSearch]

def matchesAnyRegex (path : GoString) (patterns : List (GoString → Bool)) : Bool :=
  patterns.any fun pattern => pattern path

def allowedNamespacesOf (matchers : Option AuthzResponseData) : List GoString :=
  match matchers with
  | none => []
  | some data => data.matchers.flatMap fun m => split (byte '|') m.value

def headerContentType : GoString := ascii "Content-Type"

def contentTypeProtobuf : GoString := ascii "application/protobuf"

def Response.format (response : Response) : Format :=
  if response.header.get headerContentType = contentTypeProtobuf then .protobuf else .json

inductive Modified where
  | panicked
  /-- An error before anything is encoded. -/
  | failed
  | unchanged
  | forbidden (response : Response)
  /-- The message given to the encoder, and the response if it is encoded. -/
  | encodes (message : Message) (response : Option Response)
deriving DecidableEq, Repr

def Response.withBody (response : Response) (body : GoString) : Response :=
  { response with
    body := some body
    header := (ascii "Content-Length", [itoa body.length]) ::
      (ascii "Content-Encoding", []) ::
        response.header.filter fun field =>
          field.1 ≠ ascii "Content-Length" ∧ field.1 ≠ ascii "Content-Encoding" }

section

variable (codec : Codec)

def Response.encode (response : Response) (message : Message) : Modified :=
  .encodes message ((codec.marshal response.format message).map response.withBody)

/-- The part of the modifier that handles a body, by the route. -/
def redactBody (allowed : GoString → Bool) (response : Response) (body : GoString) : Modified :=
  if routeQueryV1 response.path then
    match codec.unmarshalTrace response.format body with
    | none => .failed
    | some trace =>
        match traceRBAC allowed trace with
        | none => .panicked
        | some returned => response.encode codec (.trace returned)
  else if routeQueryV2 response.path then
    match codec.unmarshalTraceByID response.format body with
    | none => .failed
    | some traceByIDResponse =>
        match traceByIDResponse.trace with
        | none => .panicked
        | some trace =>
            match traceRBAC allowed trace with
            | none => .panicked
            | some returned =>
                response.encode codec (.traceByID ⟨some returned, traceByIDResponse.fields⟩)
  else if routeSearch response.path then
    match codec.unmarshalSearch response.format body with
    | none => .failed
    | some searchResponse =>
        response.encode codec (.search (searchResponseRBAC allowed searchResponse))
  else
    .forbidden ({ response with statusCode := 403 }.withBody (ascii "forbidden"))

def responseRBACModifier (response : Response) : Modified :=
  if matchesAnyRegex response.path filteredAPIs then
    let allowed := fun name => (allowedNamespacesOf response.matchers).contains name
    if response.statusCode = 200 then
      match response.body with
      | none => .failed
      | some body => redactBody codec allowed response body
    else .unchanged
  else .unchanged

/-! ### Panics and missing elements -/

def ResourceSpans.NoNil (rs : ResourceSpans Returned) : Prop :=
  ∀ resource, rs.resource = some resource → ∀ attr ∈ resource.attributes, attr ≠ none

def Trace.NoNil (trace : Trace Returned) : Prop :=
  ∀ rs ∈ trace.resourceSpans, rs.NoNil

/-- No list of the message has a `nil` element; only resource attributes can. -/
def Message.NoNil : Message → Prop
  | .trace t => t.NoNil
  | .traceByID response => ∀ trace, response.trace = some trace → trace.NoNil
  | .search _ => True

/-- No `nil` is dereferenced, and none is left in a list that is encoded. -/
def Modified.Unharmed : Modified → Prop
  | .panicked => False
  | .encodes message _ => message.NoNil
  | _ => True

def Response.decoded (response : Response) : Option Decoded :=
  if response.statusCode = 200 then
    match response.body with
    | none => none
    | some body =>
        if routeQueryV1 response.path then
          (codec.unmarshalTrace response.format body).map .trace
        else if routeQueryV2 response.path then
          (codec.unmarshalTraceByID response.format body).map .traceByID
        else if routeSearch response.path then
          (codec.unmarshalSearch response.format body).map .search
        else none
  else none

/-- In an entry that is redacted, no scope is missing; and where a namespace is
written back, there is a service name to write next to it. -/
def Redactable (allowed : GoString → Bool) (rs : ResourceSpans Received) : Prop :=
  ∀ resource attributes, rs.resource = some resource → resource.attributes = some attributes →
    (namespacesOf attributes = [] ∨ refusedOf allowed attributes ≠ [] →
      ∀ scopeSpan ∈ rs.scopeSpans, scopeSpan.scope ≠ none) ∧
    (lastRefused allowed attributes ≠ [] →
      getAttribute attributes serviceAttributeKey ≠ none)

def Decoded.Redactable (allowed : GoString → Bool) : Decoded → Prop
  | .trace t => ∀ rs ∈ t.resourceSpans, Traces.Redactable allowed rs
  | .traceByID response =>
      ∃ trace, response.trace = some trace ∧
        ∀ rs ∈ trace.resourceSpans, Traces.Redactable allowed rs
  | .search _ => True

omit codec in
theorem redactScopes_isSome_iff (scopeSpans : List ScopeSpans) :
    (∃ redacted, redactScopes scopeSpans = some redacted) ↔
      ∀ scopeSpan ∈ scopeSpans, scopeSpan.scope ≠ none := by
  constructor
  · rintro ⟨redacted, clears⟩ scopeSpan member
    exact Option.isSome_iff_ne_none.mp ((redactScopes_some _ _ clears).1 scopeSpan member)
  · induction scopeSpans with
    | nil => exact fun _ => ⟨[], rfl⟩
    | cons scopeSpan rest ih =>
        intro present
        rw [List.forall_mem_cons] at present
        obtain ⟨scope, isScope⟩ := Option.ne_none_iff_exists'.mp present.1
        obtain ⟨redacted, clears⟩ := ih present.2
        rw [redactScopes_cons, ScopeSpans.redact, isScope, Option.map_some, Option.bind_some,
          clears]
        exact ⟨_, rfl⟩

section

variable (allowed : GoString → Bool)

omit codec in
theorem lastRefused_ne_nil {attributes : List KeyValue}
    (hasText : lastRefused allowed attributes ≠ []) :
    namespacesOf attributes ≠ [] ∧ refusedOf allowed attributes ≠ [] := by
  have refused : refusedOf allowed attributes ≠ [] := fun noRefused =>
    hasText (lastRefused_of_refused_nil allowed noRefused)
  refine ⟨?_, refused⟩
  intro noNamespace
  rw [refusedOf, noNamespace] at refused
  exact refused rfl

omit codec in
/-- One entry is redacted without a panic and without a `nil` attribute exactly
if it is redactable. -/
theorem resourceSpansRBAC_unharmed_iff (rs : ResourceSpans Received) :
    (∃ returned, resourceSpansRBAC allowed rs = some returned ∧ returned.NoNil) ↔
      Redactable allowed rs := by
  unfold Redactable
  cases isResource : rs.resource with
  | none =>
      refine iff_of_true ?_ (fun _ _ impossible => by cases impossible)
      rw [resourceSpansRBAC, isResource]
      exact ⟨_, rfl, fun _ impossible => by cases impossible⟩
  | some resource =>
      cases isList : resource.attributes with
      | none =>
          refine iff_of_true ?_ ?_
          · rw [resourceSpansRBAC, isResource]
            dsimp only
            rw [isList]
            refine ⟨_, rfl, ?_⟩
            rintro _ ⟨⟩ attr member
            cases member
          · rintro _ attributes ⟨⟩ isSome
            rw [isList] at isSome
            cases isSome
      | some attributes =>
          rw [resourceSpansRBAC_attributes allowed rs resource attributes isResource isList]
          have own : (∀ own ownAttributes, some resource = some own →
                own.attributes = some ownAttributes →
                (namespacesOf ownAttributes = [] ∨ refusedOf allowed ownAttributes ≠ [] →
                  ∀ scopeSpan ∈ rs.scopeSpans, scopeSpan.scope ≠ none) ∧
                (lastRefused allowed ownAttributes ≠ [] →
                  getAttribute ownAttributes serviceAttributeKey ≠ none)) ↔
              (namespacesOf attributes = [] ∨ refusedOf allowed attributes ≠ [] →
                  ∀ scopeSpan ∈ rs.scopeSpans, scopeSpan.scope ≠ none) ∧
                (lastRefused allowed attributes ≠ [] →
                  getAttribute attributes serviceAttributeKey ≠ none) := by
            constructor
            · exact fun all => all resource attributes rfl isList
            · rintro holds _ ownAttributes ⟨⟩ isOwn
              rw [isList] at isOwn
              cases isOwn
              exact holds
          rw [own, ← redactScopes_isSome_iff]
          have noNil : ∀ shown : List KeyValue, ∀ fields scopeSpans otherFields,
              ResourceSpans.NoNil ⟨some ⟨shown.map some, fields⟩, scopeSpans, otherFields⟩ := by
            rintro shown fields scopeSpans otherFields _ ⟨⟩ attr member
            obtain ⟨present, _, rfl⟩ := List.mem_map.mp member
            exact Option.some_ne_none present
          by_cases noNamespace : namespacesOf attributes = []
          · have noText : ¬ lastRefused allowed attributes ≠ [] := fun hasText =>
              (lastRefused_ne_nil allowed hasText).1 noNamespace
            rw [if_pos noNamespace]
            constructor
            · rintro ⟨returned, isReturned, _⟩
              obtain ⟨redacted, clears, _⟩ := Option.map_eq_some_iff.mp isReturned
              exact ⟨fun _ => ⟨redacted, clears⟩, fun hasText => absurd hasText noText⟩
            · rintro ⟨clearable, _⟩
              obtain ⟨redacted, clears⟩ := clearable (Or.inl noNamespace)
              rw [clears]
              exact ⟨_, rfl, noNil _ _ _ _⟩
          · rw [if_neg noNamespace]
            by_cases noRefused : refusedOf allowed attributes = []
            · rw [if_pos noRefused]
              refine iff_of_true ⟨_, rfl, noNil _ _ _ _⟩ ⟨?_, ?_⟩
              · intro hidden
                exact absurd noRefused (hidden.resolve_left noNamespace)
              · exact fun hasText => absurd noRefused (lastRefused_ne_nil allowed hasText).2
            · rw [if_neg noRefused]
              by_cases hasText : lastRefused allowed attributes ≠ []
              · rw [if_pos hasText]
                constructor
                · rintro ⟨returned, isReturned, complete⟩
                  obtain ⟨redacted, clears, rfl⟩ := Option.map_eq_some_iff.mp isReturned
                  exact ⟨fun _ => ⟨redacted, clears⟩, fun _ => complete _ rfl _ (by simp)⟩
                · rintro ⟨clearable, service⟩
                  obtain ⟨redacted, clears⟩ := clearable (Or.inr noRefused)
                  obtain ⟨attr, isService⟩ := Option.ne_none_iff_exists'.mp (service hasText)
                  rw [clears, isService]
                  refine ⟨_, rfl, ?_⟩
                  exact noNil [⟨namespaceAttributeKey, _⟩, attr] _ _ _
              · rw [if_neg hasText]
                constructor
                · rintro ⟨returned, isReturned, _⟩
                  obtain ⟨redacted, clears, _⟩ := Option.map_eq_some_iff.mp isReturned
                  exact ⟨fun _ => ⟨redacted, clears⟩, fun shown => absurd shown hasText⟩
                · rintro ⟨clearable, _⟩
                  obtain ⟨redacted, clears⟩ := clearable (Or.inr noRefused)
                  rw [clears]
                  exact ⟨_, rfl, noNil _ _ _ _⟩

omit codec in
theorem traceRBAC_unharmed_iff (trace : Trace Received) :
    (∃ returned, traceRBAC allowed trace = some returned ∧ returned.NoNil) ↔
      ∀ rs ∈ trace.resourceSpans, Redactable allowed rs := by
  simp only [← resourceSpansRBAC_unharmed_iff]
  rw [← exists_mapM_iff, traceRBAC]
  constructor
  · rintro ⟨returned, isReturned, noNil⟩
    obtain ⟨result, mapped, rfl⟩ := Option.map_eq_some_iff.mp isReturned
    exact ⟨result, mapped, noNil⟩
  · rintro ⟨result, mapped, noNil⟩
    exact ⟨⟨result⟩, by rw [mapped]; rfl, noNil⟩

end

theorem redactBody_unharmed_iff (allowed : GoString → Bool) (response : Response)
    (body : GoString) (succeeded : response.statusCode = 200)
    (isBody : response.body = some body) :
    (redactBody codec allowed response body).Unharmed ↔
      ∀ message, response.decoded codec = some message → message.Redactable allowed := by
  rw [redactBody, Response.decoded, if_pos succeeded, isBody]
  dsimp only
  by_cases isV1 : routeQueryV1 response.path = true
  · rw [if_pos isV1, if_pos isV1]
    cases codec.unmarshalTrace response.format body with
    | none => exact iff_of_true trivial (fun _ impossible => by cases impossible)
    | some trace =>
        simp only [Option.map_some, Option.some.injEq, forall_eq']
        rw [Decoded.Redactable, ← traceRBAC_unharmed_iff]
        cases traceRBAC allowed trace with
        | none => simp [Modified.Unharmed]
        | some returned => simp [Response.encode, Modified.Unharmed, Message.NoNil]
  · rw [if_neg isV1, if_neg isV1]
    by_cases isV2 : routeQueryV2 response.path = true
    · rw [if_pos isV2, if_pos isV2]
      cases codec.unmarshalTraceByID response.format body with
      | none => exact iff_of_true trivial (fun _ impossible => by cases impossible)
      | some traceByIDResponse =>
          simp only [Option.map_some, Option.some.injEq, forall_eq']
          rw [Decoded.Redactable]
          cases traceByIDResponse.trace with
          | none => simp [Modified.Unharmed]
          | some trace =>
              simp only [Option.some.injEq, exists_eq_left', ← traceRBAC_unharmed_iff]
              cases traceRBAC allowed trace with
              | none => simp [Modified.Unharmed]
              | some returned => simp [Response.encode, Modified.Unharmed, Message.NoNil]
    · rw [if_neg isV2, if_neg isV2]
      by_cases isSearch : routeSearch response.path = true
      · rw [if_pos isSearch, if_pos isSearch]
        cases codec.unmarshalSearch response.format body with
        | none => exact iff_of_true trivial (fun _ impossible => by cases impossible)
        | some searchResponse =>
            refine iff_of_true trivial ?_
            rintro _ ⟨⟩
            trivial
      · rw [if_neg isSearch, if_neg isSearch]
        exact iff_of_true trivial (fun _ impossible => by cases impossible)

/-- The modifier dereferences no `nil` and encodes none exactly if the message
that it decodes is redactable. -/
theorem responseRBACModifier_unharmed_iff (response : Response) :
    (responseRBACModifier codec response).Unharmed ↔
      ∀ message, response.decoded codec = some message →
        message.Redactable fun name => (allowedNamespacesOf response.matchers).contains name := by
  rw [responseRBACModifier]
  by_cases isFiltered : matchesAnyRegex response.path filteredAPIs = true
  · rw [if_pos isFiltered]
    dsimp only
    by_cases succeeded : response.statusCode = 200
    · rw [if_pos succeeded]
      cases isBody : response.body with
      | none =>
          refine iff_of_true trivial ?_
          rw [Response.decoded, if_pos succeeded, isBody]
          exact fun _ impossible => by cases impossible
      | some body => exact redactBody_unharmed_iff codec _ response body succeeded isBody
    · rw [if_neg succeeded]
      refine iff_of_true trivial ?_
      rw [Response.decoded, if_neg succeeded]
      exact fun _ impossible => by cases impossible
  · rw [if_neg isFiltered]
    refine iff_of_true trivial ?_
    simp only [matchesAnyRegex, filteredAPIs, List.any_cons, List.any_nil, Bool.or_false,
      Bool.not_eq_true, Bool.or_eq_false_iff] at isFiltered
    obtain ⟨notV1, notV2, notSearch⟩ := isFiltered
    have nothing : response.decoded codec = none := by
      rw [Response.decoded]
      cases response.body with
      | none => simp
      | some body => simp [notV1, notV2, notSearch]
    rw [nothing]
    exact fun _ impossible => by cases impossible

end

/-! A response by identifier without a trace, for any decoder that can give one. -/

def emptyCodec : Codec where
  unmarshalTrace _ _ := some ⟨[]⟩
  unmarshalTraceByID _ _ := some ⟨none, []⟩
  unmarshalSearch _ _ := some ⟨[], []⟩
  marshal _ _ := some []

def traceNotFound : Response :=
  ⟨ascii "/api/v2/traces/1f", none, 200, [], some []⟩

/-- The missing trace is dereferenced. -/
theorem missingTrace_panics :
    traceNotFound.decoded emptyCodec = some (.traceByID ⟨none, []⟩) ∧
      responseRBACModifier emptyCodec traceNotFound = .panicked := by
  constructor
  · decide +kernel
  · decide +kernel

end McoaGateway.Traces
