/-
Redaction of search responses (`api/traces/v1/trace_rbac.go`).

`searchResponseRBAC` looks at one span at a time, in the span sets and in the
deprecated span set of each trace.  What it keeps secret is a property of two
runs: responses that differ in the secrets of hidden spans must be returned
alike.
-/

import McoaGateway.Traces.Rbac

namespace McoaGateway.Traces

open GoString

/-! ### The messages -/

structure SearchSpan where
  attributes : List KeyValue
  fields : GoString
deriving DecidableEq, Repr

structure SpanSet where
  spans : List SearchSpan
  fields : GoString
deriving DecidableEq, Repr

structure TraceSearchMetadata where
  spanSets : List SpanSet
  spanSet : Option SpanSet
  fields : GoString
deriving DecidableEq, Repr

structure SearchResponse where
  traces : List TraceSearchMetadata
  fields : GoString
deriving DecidableEq, Repr

/-! ### `searchResponseRBAC` -/

/-- The variables of the loop over the attributes of a span. -/
structure SpanVisit where
  notAllowedNamespace : GoString
  missingNamespaceAttribute : Bool
deriving DecidableEq, Repr

section

variable (allowedNamespaces : GoString → Bool)

def visitSpanAttribute (visit : SpanVisit) (attr : KeyValue) : SpanVisit :=
  if attr.key = namespaceAttributeKey then
    if allowedNamespaces attr.value.getStringValue then
      { visit with missingNamespaceAttribute := false }
    else ⟨attr.value.getStringValue, false⟩
  else visit

def spanRBAC (span : SearchSpan) : SearchSpan :=
  let visit := span.attributes.foldl (visitSpanAttribute allowedNamespaces) ⟨[], true⟩
  let span := if visit.missingNamespaceAttribute then { span with attributes := [] } else span
  -- An empty text also stands for a span without a namespace that is refused.
  if visit.notAllowedNamespace ≠ [] then
    { span with
      attributes := [⟨namespaceAttributeKey, .stringValue visit.notAllowedNamespace⟩] }
  else span

def spanSetRBAC (spanSet : SpanSet) : SpanSet :=
  { spanSet with spans := spanSet.spans.map (spanRBAC allowedNamespaces) }

def traceSearchMetadataRBAC (trace : TraceSearchMetadata) : TraceSearchMetadata :=
  { trace with
    spanSets := trace.spanSets.map (spanSetRBAC allowedNamespaces)
    spanSet := trace.spanSet.map (spanSetRBAC allowedNamespaces) }

def searchResponseRBAC (searchResponse : SearchResponse) : SearchResponse :=
  { searchResponse with
    traces := searchResponse.traces.map (traceSearchMetadataRBAC allowedNamespaces) }

/-! ### One span -/

theorem foldl_visitSpanAttribute (attributes : List KeyValue) (visit : SpanVisit) :
    attributes.foldl (visitSpanAttribute allowedNamespaces) visit =
      ⟨if refusedOf allowedNamespaces attributes = [] then visit.notAllowedNamespace
        else lastRefused allowedNamespaces attributes,
        visit.missingNamespaceAttribute && (namespacesOf attributes).isEmpty⟩ := by
  induction attributes generalizing visit with
  | nil => simp [refusedOf, namespacesOf]
  | cons attr rest ih =>
      rw [List.foldl_cons, ih, visitSpanAttribute]
      by_cases isNamespace : attr.key = namespaceAttributeKey
      · have namespaces : namespacesOf (attr :: rest) = attr :: namespacesOf rest := by
          simp [namespacesOf, isNamespace]
        rw [if_pos isNamespace]
        cases isAllowed : allowedNamespaces attr.value.getStringValue with
        | true =>
            have refused : refusedOf allowedNamespaces (attr :: rest) =
                refusedOf allowedNamespaces rest := by
              rw [refusedOf, namespaces, List.filter_cons_of_neg (by simp [isAllowed]), refusedOf]
            rw [lastRefused, lastRefused, refused, namespaces]
            simp
        | false =>
            have refused : refusedOf allowedNamespaces (attr :: rest) =
                attr :: refusedOf allowedNamespaces rest := by
              rw [refusedOf, namespaces, List.filter_cons_of_pos (by simp [isAllowed]), refusedOf]
            rw [lastRefused, lastRefused, refused, namespaces]
            cases refusedOf allowedNamespaces rest with
            | nil => simp
            | cons first others => simp
      · have namespaces : namespacesOf (attr :: rest) = namespacesOf rest := by
          simp [namespacesOf, isNamespace]
        rw [if_neg isNamespace, lastRefused, lastRefused, refusedOf, refusedOf, namespaces]

/-- The span has no namespace attribute, or one that is not allowed. -/
def SearchSpan.Hidden (span : SearchSpan) : Prop :=
  namespacesOf span.attributes = [] ∨ refusedOf allowedNamespaces span.attributes ≠ []

theorem lastRefused_of_refused_nil {attributes : List KeyValue}
    (noRefused : refusedOf allowedNamespaces attributes = []) :
    lastRefused allowedNamespaces attributes = [] := by
  rw [lastRefused, noRefused]
  rfl

theorem spanRBAC_eq (span : SearchSpan) :
    spanRBAC allowedNamespaces span =
      if namespacesOf span.attributes = [] then { span with attributes := [] }
      else if lastRefused allowedNamespaces span.attributes ≠ [] then
        { span with
          attributes := [⟨namespaceAttributeKey,
            .stringValue (lastRefused allowedNamespaces span.attributes)⟩] }
      else span := by
  have refusedText :
      (if refusedOf allowedNamespaces span.attributes = [] then []
        else lastRefused allowedNamespaces span.attributes) =
      lastRefused allowedNamespaces span.attributes := by
    by_cases noRefused : refusedOf allowedNamespaces span.attributes = []
    · rw [if_pos noRefused, lastRefused_of_refused_nil allowedNamespaces noRefused]
    · rw [if_neg noRefused]
  rw [spanRBAC, foldl_visitSpanAttribute]
  dsimp only
  rw [refusedText]
  by_cases noNamespace : namespacesOf span.attributes = []
  · have noText : lastRefused allowedNamespaces span.attributes = [] := by
      apply lastRefused_of_refused_nil
      rw [refusedOf, noNamespace]
      rfl
    simp [noNamespace, noText]
  · simp [noNamespace]

theorem spanRBAC_visible (span : SearchSpan) (visible : ¬ span.Hidden allowedNamespaces) :
    spanRBAC allowedNamespaces span = span := by
  rw [SearchSpan.Hidden, not_or, not_not] at visible
  obtain ⟨hasNamespace, noRefused⟩ := visible
  rw [spanRBAC_eq, if_neg hasNamespace,
    if_neg (not_not.mpr (lastRefused_of_refused_nil allowedNamespaces noRefused))]

/-! ### Two responses -/

/-- A relation of spans, carried over to responses with the same structure. -/
def SpanSet.Related (relation : SearchSpan → SearchSpan → Prop) (set other : SpanSet) : Prop :=
  List.Forall₂ relation set.spans other.spans ∧ other.fields = set.fields

def TraceSearchMetadata.Related (relation : SearchSpan → SearchSpan → Prop)
    (trace other : TraceSearchMetadata) : Prop :=
  List.Forall₂ (SpanSet.Related relation) trace.spanSets other.spanSets ∧
    Option.Rel (SpanSet.Related relation) trace.spanSet other.spanSet ∧
    other.fields = trace.fields

def SearchResponse.Related (relation : SearchSpan → SearchSpan → Prop)
    (response other : SearchResponse) : Prop :=
  List.Forall₂ (TraceSearchMetadata.Related relation) response.traces other.traces ∧
    other.fields = response.fields

/-- Two spans agree, except for the other attributes of a hidden one. -/
def SpanVariant (span other : SearchSpan) : Prop :=
  other = span ∨
    span.Hidden allowedNamespaces ∧
      namespacesOf other.attributes = namespacesOf span.attributes ∧ other.fields = span.fields

/-- Responses that differ in the secrets of hidden spans are returned alike, and
the spans that are not hidden are returned as they are. -/
structure SearchNoninterfering (response : SearchResponse) : Prop where
  alike : ∀ other, response.Related (SpanVariant allowedNamespaces) other →
    searchResponseRBAC allowedNamespaces other = searchResponseRBAC allowedNamespaces response
  visible : response.Related (fun span returned =>
    ¬ span.Hidden allowedNamespaces → returned = span)
    (searchResponseRBAC allowedNamespaces response)

def TraceSearchMetadata.spans (trace : TraceSearchMetadata) : List SearchSpan :=
  (trace.spanSets ++ trace.spanSet.toList).flatMap SpanSet.spans

def SearchResponse.spans (response : SearchResponse) : List SearchSpan :=
  response.traces.flatMap TraceSearchMetadata.spans

/-! ### From spans to responses -/

section

variable (relation : SearchSpan → SearchSpan → Prop) (reflexive : ∀ span, relation span span)

include reflexive

omit allowedNamespaces in
theorem SpanSet.related_refl (set : SpanSet) : set.Related relation set :=
  ⟨List.forall₂_same.mpr fun _ _ => reflexive _, rfl⟩

omit allowedNamespaces in
theorem TraceSearchMetadata.related_refl (trace : TraceSearchMetadata) :
    trace.Related relation trace := by
  refine ⟨List.forall₂_same.mpr fun _ _ => SpanSet.related_refl relation reflexive _, ?_, rfl⟩
  cases trace.spanSet with
  | none => exact .none
  | some set => exact .some (SpanSet.related_refl relation reflexive set)

theorem spanSetRBAC_alike_iff (set : SpanSet) :
    (∀ other, set.Related relation other →
        spanSetRBAC allowedNamespaces other = spanSetRBAC allowedNamespaces set) ↔
      ∀ span ∈ set.spans, ∀ other, relation span other →
        spanRBAC allowedNamespaces other = spanRBAC allowedNamespaces span := by
  rw [← forall₂_map_iff relation reflexive (spanRBAC allowedNamespaces) set.spans]
  constructor
  · intro same other related
    exact congrArg SpanSet.spans (same ⟨other, set.fields⟩ ⟨related, rfl⟩)
  · rintro same other ⟨related, fields⟩
    rw [spanSetRBAC, spanSetRBAC, same _ related, fields]

theorem traceSearchMetadataRBAC_alike_iff (trace : TraceSearchMetadata) :
    (∀ other, trace.Related relation other →
        traceSearchMetadataRBAC allowedNamespaces other =
          traceSearchMetadataRBAC allowedNamespaces trace) ↔
      ∀ span ∈ trace.spans, ∀ other, relation span other →
        spanRBAC allowedNamespaces other = spanRBAC allowedNamespaces span := by
  have bySets : (∀ span ∈ trace.spans, ∀ other, relation span other →
        spanRBAC allowedNamespaces other = spanRBAC allowedNamespaces span) ↔
      ∀ set ∈ trace.spanSets ++ trace.spanSet.toList, ∀ other, set.Related relation other →
        spanSetRBAC allowedNamespaces other = spanSetRBAC allowedNamespaces set := by
    rw [TraceSearchMetadata.spans, List.forall_mem_flatMap]
    exact forall₂_congr fun set _ =>
      (spanSetRBAC_alike_iff allowedNamespaces relation reflexive set).symm
  rw [bySets, List.forall_mem_append,
    ← forall₂_map_iff (SpanSet.Related relation) (SpanSet.related_refl relation reflexive)
      (spanSetRBAC allowedNamespaces) trace.spanSets,
    ← rel_map_iff (SpanSet.Related relation) (spanSetRBAC allowedNamespaces) trace.spanSet]
  obtain ⟨ownSets, ownSet, _⟩ := TraceSearchMetadata.related_refl relation reflexive trace
  constructor
  · intro same
    constructor
    · intro other related
      exact congrArg TraceSearchMetadata.spanSets
        (same ⟨other, trace.spanSet, trace.fields⟩ ⟨related, ownSet, rfl⟩)
    · intro other related
      exact congrArg TraceSearchMetadata.spanSet
        (same ⟨trace.spanSets, other, trace.fields⟩ ⟨ownSets, related, rfl⟩)
  · rintro ⟨sameSets, sameSet⟩ other ⟨sets, set, fields⟩
    rw [traceSearchMetadataRBAC, traceSearchMetadataRBAC, sameSets _ sets, sameSet _ set, fields]

theorem searchResponseRBAC_alike_iff (response : SearchResponse) :
    (∀ other, response.Related relation other →
        searchResponseRBAC allowedNamespaces other =
          searchResponseRBAC allowedNamespaces response) ↔
      ∀ span ∈ response.spans, ∀ other, relation span other →
        spanRBAC allowedNamespaces other = spanRBAC allowedNamespaces span := by
  have byTraces : (∀ span ∈ response.spans, ∀ other, relation span other →
        spanRBAC allowedNamespaces other = spanRBAC allowedNamespaces span) ↔
      ∀ trace ∈ response.traces, ∀ other, trace.Related relation other →
        traceSearchMetadataRBAC allowedNamespaces other =
          traceSearchMetadataRBAC allowedNamespaces trace := by
    rw [SearchResponse.spans, List.forall_mem_flatMap]
    exact forall₂_congr fun trace _ =>
      (traceSearchMetadataRBAC_alike_iff allowedNamespaces relation reflexive trace).symm
  rw [byTraces, ← forall₂_map_iff (TraceSearchMetadata.Related relation)
    (TraceSearchMetadata.related_refl relation reflexive)
    (traceSearchMetadataRBAC allowedNamespaces) response.traces]
  constructor
  · intro same other related
    exact congrArg SearchResponse.traces (same ⟨other, response.fields⟩ ⟨related, rfl⟩)
  · rintro same other ⟨related, fields⟩
    rw [searchResponseRBAC, searchResponseRBAC, same _ related, fields]

end

theorem searchResponseRBAC_related (relation : SearchSpan → SearchSpan → Prop)
    (redacted : ∀ span, relation span (spanRBAC allowedNamespaces span))
    (response : SearchResponse) :
    response.Related relation (searchResponseRBAC allowedNamespaces response) := by
  have related : ∀ {α : Type} (relation : α → α → Prop) (f : α → α),
      (∀ a, relation a (f a)) → ∀ list : List α, List.Forall₂ relation list (list.map f) := by
    intro α relation f holds list
    rw [List.forall₂_map_right_iff, List.forall₂_same]
    exact fun a _ => holds a
  have sets : ∀ set : SpanSet, set.Related relation (spanSetRBAC allowedNamespaces set) :=
    fun set => ⟨related _ _ redacted _, rfl⟩
  refine ⟨related _ _ ?_ _, rfl⟩
  intro trace
  refine ⟨related _ _ sets _, ?_, rfl⟩
  unfold traceSearchMetadataRBAC
  cases trace.spanSet with
  | none => exact .none
  | some set => exact .some (sets set)

/-! ### The condition -/

/-- A hidden span is redacted alike for all its variants exactly if a namespace
that it has and that is refused has a text. -/
theorem spanRBAC_alike_iff (span : SearchSpan) :
    (∀ other, SpanVariant allowedNamespaces span other →
        spanRBAC allowedNamespaces other = spanRBAC allowedNamespaces span) ↔
      (refusedOf allowedNamespaces span.attributes ≠ [] →
        lastRefused allowedNamespaces span.attributes ≠ []) := by
  constructor
  · intro same refused noText
    have hasNamespace : namespacesOf span.attributes ≠ [] := by
      intro noNamespace
      rw [refusedOf, noNamespace] at refused
      exact refused rfl
    -- One more attribute is shown next to an empty namespace.
    have namespaces : namespacesOf (span.attributes ++ [noise]) =
        namespacesOf span.attributes := by
      rw [namespacesOf, List.filter_append, ← namespacesOf]
      exact List.append_nil _
    have noisyText : lastRefused allowedNamespaces (span.attributes ++ [noise]) = [] := by
      rw [← lastRefused_namespacesOf, namespaces, lastRefused_namespacesOf, noText]
    have redacted := same ⟨span.attributes ++ [noise], span.fields⟩
      (Or.inr ⟨Or.inr refused, namespaces, rfl⟩)
    rw [spanRBAC_eq, spanRBAC_eq, if_neg hasNamespace, if_neg (not_not.mpr noText)] at redacted
    dsimp only at redacted
    rw [namespaces, if_neg hasNamespace, if_neg (not_not.mpr noisyText)] at redacted
    have lengths := congrArg (fun s => s.attributes.length) redacted
    simp at lengths
  · intro hasText other variant
    rcases variant with isSame | ⟨hidden, namespaces, fields⟩
    · rw [isSame]
    · have text : lastRefused allowedNamespaces other.attributes =
          lastRefused allowedNamespaces span.attributes := by
        rw [← lastRefused_namespacesOf, namespaces, lastRefused_namespacesOf]
      rw [spanRBAC_eq, spanRBAC_eq, namespaces, text]
      by_cases noNamespace : namespacesOf span.attributes = []
      · rw [if_pos noNamespace, if_pos noNamespace, fields]
      · have shown := hasText (hidden.resolve_left noNamespace)
        rw [if_neg noNamespace, if_pos shown, if_neg noNamespace, if_pos shown, fields]

/-- The redaction keeps the secrets of a search response exactly if in each span
with a refused namespace the last one has a text. -/
theorem searchNoninterfering_iff (response : SearchResponse) :
    SearchNoninterfering allowedNamespaces response ↔
      ∀ span ∈ response.spans, refusedOf allowedNamespaces span.attributes ≠ [] →
        lastRefused allowedNamespaces span.attributes ≠ [] := by
  have alike := searchResponseRBAC_alike_iff allowedNamespaces (SpanVariant allowedNamespaces)
    (fun _ => Or.inl rfl) response
  constructor
  · intro holds span member
    exact (spanRBAC_alike_iff allowedNamespaces span).mp (alike.mp holds.alike span member)
  · intro texts
    constructor
    · apply alike.mpr
      intro span member
      exact (spanRBAC_alike_iff allowedNamespaces span).mpr (texts span member)
    · exact searchResponseRBAC_related allowedNamespaces _
        (fun span => spanRBAC_visible allowedNamespaces span) response

end

/-! A span whose namespace is not a text. -/

def searchSpanOf (secret : String) : SearchResponse :=
  ⟨[⟨[⟨[⟨[⟨namespaceAttributeKey, .other (ascii "42")⟩,
    ⟨ascii "user", .stringValue (ascii secret)⟩], []⟩], []⟩], none, []⟩], []⟩

/-- Two responses that differ in an attribute of a hidden span, and are returned
as they are. -/
theorem numericNamespace_interferes :
    (searchSpanOf "alice").Related (SpanVariant (fun _ => false)) (searchSpanOf "bob") ∧
      searchResponseRBAC (fun _ => false) (searchSpanOf "alice") ≠
        searchResponseRBAC (fun _ => false) (searchSpanOf "bob") := by
  refine ⟨⟨.cons ⟨.cons ⟨.cons (Or.inr ⟨Or.inr ?_, ?_, rfl⟩) .nil, rfl⟩ .nil, .none, rfl⟩ .nil,
    rfl⟩, ?_⟩
  · decide +kernel
  · decide +kernel
  · decide +kernel

end McoaGateway.Traces
