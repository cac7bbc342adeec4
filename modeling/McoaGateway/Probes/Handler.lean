/-
The probes handler (`api/probes/v1/http.go`).

The director of the proxy sets the tenant header and, for a `POST`, rewrites the
body: a JSON object gets the tenant as the value of its label `tenant`.  Bodies
that are no JSON object go on as they came, and so do the bodies of all other
methods.  The body `null` decodes to a nil map, into which the director writes.
-/

import McoaGateway.JsonText
import McoaGateway.Metrics.LabelsEnforcer
import McoaGateway.Server

namespace McoaGateway

open GoString JsonText

namespace Probes

structure HandlerOptions where
  tenantHeader : GoString
  -- The director of `httputil.NewSingleHostReverseProxy`, which changes the URL only.
  rewriteRequestURL : Url → Url

/-- `json.Unmarshal` into a `map[string]interface{}`, which may stay nil. -/
def unmarshalPayload (numbers : Numbers) (body : GoString) :
    Option (Option (List (GoString × Json))) :=
  match decode (.value numbers) body with
  | some (.object members) => some (some members)
  | some .null => some none
  | _ => none

def labelsKey : GoString := ascii "labels"

def tenantKey : GoString := ascii "tenant"

def payloadLabels (payload : List (GoString × Json)) : List (GoString × Json) :=
  match payload.lookup labelsKey with
  | some (.object labels) => labels
  | _ => []

def labelled (tenant : GoString) (payload : List (GoString × Json)) :
    List (GoString × Json) :=
  insert labelsKey (.object (insert tenantKey (.string tenant) (payloadLabels payload))) payload

/-- A request without a length has no body for the director.  There is no result
when the director panics. -/
def director (numbers : Numbers) (options : HandlerOptions) (request : Request) :
    Option Request :=
  let request := { request with url := options.rewriteRequestURL request.url }
  if options.tenantHeader = [] then some request
  else
    match request.context.tenant with
    | none => some request
    | some tenant =>
        let request := { request with header := request.header.set options.tenantHeader tenant }
        if request.method = methodPost ∧ request.contentLength ≠ 0 then
          match unmarshalPayload numbers request.body with
          | none => some request
          | some none => none
          | some (some payload) =>
              some (request.setBody (encode (.object (labelled tenant payload))))
        else some request

/-- The recoverer of the root router answers for a handler that panics. -/
def proxyHandler (numbers : Numbers) (options : HandlerOptions) : Handler Proxy :=
  fun request =>
    match director numbers options request with
    | some sent => [.forwarded .probes sent]
    | none => [.answered ⟨.internalServerError, []⟩]

def newHandler (numbers : Numbers) (options : HandlerOptions)
    (readMiddlewares writeMiddlewares : List (Middleware Proxy)) : Router Proxy :=
  Router.group readMiddlewares
      (Router.method methodGet (ascii "/*") (proxyHandler numbers options)) ++
    Router.group writeMiddlewares
      (Router.method methodPost (ascii "/*") (proxyHandler numbers options) ++
        Router.method methodPatch (ascii "/*") (proxyHandler numbers options) ++
        Router.method methodDelete (ascii "/*") (proxyHandler numbers options))

/-! ### The labels of a payload -/

theorem unmarshalPayload_cases (numbers : Numbers) (body : GoString) :
    (∃ payload, decode (.value numbers) body = some (.object payload) ∧
      unmarshalPayload numbers body = some (some payload)) ∨
    (decode (.value numbers) body = some .null ∧ unmarshalPayload numbers body = some none) ∨
    ((∀ payload, decode (.value numbers) body ≠ some (.object payload)) ∧
      decode (.value numbers) body ≠ some .null ∧ unmarshalPayload numbers body = none) := by
  unfold unmarshalPayload
  split
  · rename_i payload decoded
    exact Or.inl ⟨payload, decoded, rfl⟩
  · rename_i decoded
    exact Or.inr (Or.inl ⟨decoded, rfl⟩)
  · rename_i notObject notNull
    exact Or.inr (Or.inr ⟨notObject, notNull, rfl⟩)

/-- The tenant is one of the labels, and all else is as in the payload. -/
structure Labelled (tenant : GoString) (payload document : List (GoString × Json)) : Prop where
  labels : ∃ labels, document.lookup labelsKey = some (.object labels) ∧
    labels.lookup tenantKey = some (.string tenant) ∧
    ∀ key, key ≠ tenantKey → labels.lookup key = (payloadLabels payload).lookup key
  others : ∀ key, key ≠ labelsKey → document.lookup key = payload.lookup key

theorem labelled_spec (tenant : GoString) (payload : List (GoString × Json)) :
    Labelled tenant payload (labelled tenant payload) where
  labels := by
    refine ⟨insert tenantKey (.string tenant) (payloadLabels payload), ?_, ?_, ?_⟩
    · rw [labelled, lookup_insert, if_pos rfl]
    · rw [lookup_insert, if_pos rfl]
    · intro key other
      rw [lookup_insert, if_neg other]
  others := by
    intro key other
    rw [labelled, lookup_insert, if_neg other]

private theorem sorted_of_kept {members : List (GoString × Json)}
    (kept : collect members = members) : Sorted members :=
  kept ▸ collect_sorted members

private theorem labelsKey_valid : ValidUtf8 labelsKey :=
  .ascii (List.forall_iff_forall_mem.mp (by decide))

private theorem tenantKey_valid : ValidUtf8 tenantKey :=
  .ascii (List.forall_iff_forall_mem.mp (by decide))

theorem payloadLabels_canonical {numbers : Numbers} {depth : Nat}
    {payload : List (GoString × Json)}
    (each : ∀ m ∈ payload, Canonical (.value numbers) depth m.2) :
    Sorted (payloadLabels payload) ∧ (∀ m ∈ payloadLabels payload, ValidUtf8 m.1) ∧
      ∀ m ∈ payloadLabels payload, Canonical (.value numbers) (depth - 1) m.2 := by
  unfold payloadLabels
  split
  · rename_i labels found
    have canonical := each _ (mem_of_lookup found)
    cases canonical with
    | object depth labels kept keys each => exact ⟨sorted_of_kept kept, keys, each⟩
  · exact ⟨List.Pairwise.nil, by simp, by simp⟩

theorem labelled_canonical {numbers : Numbers} {depth : Nat} (payload : List (GoString × Json))
    (tenant : GoString) (valid : ValidUtf8 tenant)
    (canonical : Canonical (.value numbers) (depth + 2) (.object payload)) :
    Canonical (.value numbers) (depth + 2) (.object (labelled tenant payload)) := by
  cases canonical with
  | object _ _ kept keys each =>
      obtain ⟨labelsSorted, labelKeys, labelsEach⟩ := payloadLabels_canonical each
      have labels : Canonical (.value numbers) (depth + 1)
          (.object (insert tenantKey (.string tenant) (payloadLabels payload))) := by
        apply Canonical.object
        · exact collect_of_sorted _ (insert_sorted _ _ _ labelsSorted)
        · intro m member
          rcases mem_insert _ _ _ _ member with rfl | old
          · exact tenantKey_valid
          · exact labelKeys m old
        · intro m member
          rcases mem_insert _ _ _ _ member with rfl | old
          · exact .string depth tenant valid
          · exact labelsEach m old
      apply Canonical.object
      · exact collect_of_sorted _ (insert_sorted _ _ _ (sorted_of_kept kept))
      · intro m member
        rcases mem_insert _ _ _ _ member with rfl | old
        · exact labelsKey_valid
        · exact keys m old
      · intro m member
        rcases mem_insert _ _ _ _ member with rfl | old
        · exact labels
        · exact each m old

/-! ### What the director sends -/

def Labels (numbers : Numbers) (options : HandlerOptions) (received : Request)
    (payload : List (GoString × Json)) : Prop :=
  options.tenantHeader ≠ [] ∧ received.method = methodPost ∧ received.contentLength ≠ 0 ∧
    decode (.value numbers) received.body = some (.object payload)

structure Directed (numbers : Numbers) (options : HandlerOptions) (tenant : GoString)
    (received sent : Request) : Prop where
  method : sent.method = received.method
  url : sent.url = options.rewriteRequestURL received.url
  -- A header that is also the one for the length is overwritten with that of a new body.
  tenantHeader : options.tenantHeader ≠ [] →
    (canonicalHeaderKey options.tenantHeader ≠ canonicalHeaderKey (ascii "Content-Length") ∨
      ∀ payload, ¬ Labels numbers options received payload) →
    sent.header.get options.tenantHeader = tenant
  -- Read as JSON, a rewritten body differs from the received one in one label.
  rewritten : ∀ payload, Labels numbers options received payload →
    (∃ document, decode (.value numbers) sent.body = some (.object document) ∧
      Labelled tenant payload document) ∧
      sent.contentLength = sent.body.length ∧
      sent.header.get (ascii "Content-Length") = itoa sent.body.length
  unchanged : (∀ payload, ¬ Labels numbers options received payload) →
    sent.body = received.body ∧ sent.contentLength = received.contentLength

def Panics (numbers : Numbers) (options : HandlerOptions) (received : Request) : Prop :=
  options.tenantHeader ≠ [] ∧ received.method = methodPost ∧ received.contentLength ≠ 0 ∧
    decode (.value numbers) received.body = some .null

theorem decode_labelled (numbers : Numbers) (body tenant : GoString)
    (payload : List (GoString × Json)) (valid : ValidUtf8 tenant)
    (decoded : decode (.value numbers) body = some (.object payload)) :
    decode (.value numbers) (encode (.object (labelled tenant payload))) =
      some (.object (labelled tenant payload)) :=
  (labelled_canonical payload tenant valid (decode_canonical body _ decoded)).decode_encode

theorem director_cases (numbers : Numbers) (options : HandlerOptions) (received : Request)
    (tenant : GoString) (named : received.context.tenant = some tenant)
    (valid : ValidUtf8 tenant) :
    (Panics numbers options received ∧ director numbers options received = none) ∨
    (¬ Panics numbers options received ∧ ∃ sent, director numbers options received = some sent ∧
      Directed numbers options tenant received sent) := by
  unfold director
  dsimp only
  by_cases configured : options.tenantHeader = []
  · rw [if_pos configured]
    have stays : ∀ payload, ¬ Labels numbers options received payload :=
      fun payload labels => labels.1 configured
    refine Or.inr ⟨fun panics => panics.1 configured, _, rfl, rfl, rfl, ?_, ?_, fun _ => ⟨rfl, rfl⟩⟩
    · exact absurd configured
    · exact fun payload labels => (stays payload labels).elim
  rw [if_neg configured, named]
  dsimp only
  -- What is sent when the body stays.
  have kept (stays : ∀ payload, ¬ Labels numbers options received payload) :
      Directed numbers options tenant received
        { received with
          url := options.rewriteRequestURL received.url
          header := received.header.set options.tenantHeader tenant } :=
    { method := rfl
      url := rfl
      tenantHeader := fun _ _ => Header.get_set_self _ _ _
      rewritten := fun payload labels => (stays payload labels).elim
      unchanged := fun _ => ⟨rfl, rfl⟩ }
  by_cases post : received.method = methodPost ∧ received.contentLength ≠ 0
  · rw [if_pos post]
    rcases unmarshalPayload_cases numbers received.body with
      ⟨payload, decoded, unmarshalled⟩ | ⟨decoded, unmarshalled⟩ |
      ⟨notObject, notNull, unmarshalled⟩
    · have labels : Labels numbers options received payload :=
        ⟨configured, post.1, post.2, decoded⟩
      rw [unmarshalled]
      apply Or.inr
      refine ⟨?_, _, rfl, rfl, rfl, ?_, ?_, ?_⟩
      · intro panics
        rw [panics.2.2.2] at decoded
        cases decoded
      · intro _ notLength
        rw [Request.setBody]
        dsimp only
        rw [Header.get_set_of_ne _ _ _ _ (notLength.resolve_right fun stays => stays _ labels),
          Header.get_set_self]
      · intro other own
        rw [own.2.2.2] at decoded
        cases decoded
        exact ⟨⟨_, decode_labelled numbers _ tenant payload valid own.2.2.2,
          labelled_spec tenant payload⟩, rfl, Header.get_set_self _ _ _⟩
      · intro stays
        exact (stays payload labels).elim
    · rw [unmarshalled]
      exact Or.inl ⟨⟨configured, post.1, post.2, decoded⟩, rfl⟩
    · rw [unmarshalled]
      apply Or.inr
      refine ⟨?_, _, rfl, kept ?_⟩
      · intro panics
        exact notNull panics.2.2.2
      · intro payload labels
        exact notObject payload labels.2.2.2
  · rw [if_neg post]
    apply Or.inr
    refine ⟨?_, _, rfl, kept ?_⟩
    · intro panics
      exact post ⟨panics.2.1, panics.2.2.1⟩
    · intro payload labels
      exact post ⟨labels.2.1, labels.2.2.1⟩

end Probes

end McoaGateway
