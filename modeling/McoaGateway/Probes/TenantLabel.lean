/-
The tenant label of probes that are written.

The director puts the tenant into the labels of a posted object.  The bodies of
`PATCH` requests go on as they came, so a label in them is the caller's, and the
posted body `null` makes the director panic.
-/

import McoaGateway.Probes.Forwarding

namespace McoaGateway

open GoString JsonText

namespace Probes

/-- The request goes on for the tenant: as its header, and as the label of every
object with labels, which otherwise has what was received. -/
def TenantKept (numbers : Numbers) (options : HandlerOptions) (tenant : GoString)
    (received : Request) : Prop :=
  ∃ sent, director numbers options received = some sent ∧
    sent.header.get options.tenantHeader = tenant ∧
    ∀ document labels, decode (.value numbers) sent.body = some (.object document) →
      document.lookup labelsKey = some labels →
      ∃ payload, decode (.value numbers) received.body = some (.object payload) ∧
        Labelled tenant payload document

/-- The labels of a received object, if it has any, are those of the tenant. -/
def OwnLabels (numbers : Numbers) (tenant : GoString) (received : Request) : Prop :=
  ∀ document labels, decode (.value numbers) received.body = some (.object document) →
    document.lookup labelsKey = some labels →
    ∃ members, labels = .object members ∧ members.lookup tenantKey = some (.string tenant)

theorem labelled_self_iff (tenant : GoString) (document : List (GoString × Json)) (labels : Json)
    (present : document.lookup labelsKey = some labels) :
    Labelled tenant document document ↔
      ∃ members, labels = .object members ∧ members.lookup tenantKey = some (.string tenant) := by
  constructor
  · rintro ⟨⟨members, isLabels, own, -⟩, -⟩
    rw [present] at isLabels
    exact ⟨members, Option.some.inj isLabels, own⟩
  · rintro ⟨members, rfl, own⟩
    refine ⟨⟨members, present, own, fun key _ => ?_⟩, fun _ _ => rfl⟩
    rw [payloadLabels, present]

/-- Of the bodies that go on as they came, those are for the tenant whose labels are. -/
theorem tenantKept_unchanged_iff {numbers : Numbers} {options : HandlerOptions}
    {tenant : GoString} {received sent : Request}
    (directed : director numbers options received = some sent)
    (header : sent.header.get options.tenantHeader = tenant)
    (unchanged : sent.body = received.body) :
    TenantKept numbers options tenant received ↔ OwnLabels numbers tenant received := by
  unfold TenantKept OwnLabels
  constructor
  · rintro ⟨own, isOwn, -, labelled⟩ document labels decoded present
    rw [directed] at isOwn
    cases isOwn
    rw [unchanged] at labelled
    obtain ⟨payload, same, property⟩ := labelled document labels decoded present
    rw [decoded] at same
    cases same
    exact (labelled_self_iff tenant document labels present).mp property
  · intro own
    refine ⟨sent, directed, header, ?_⟩
    rw [unchanged]
    intro document labels decoded present
    exact ⟨document, decoded,
      (labelled_self_iff tenant document labels present).mpr (own document labels decoded present)⟩

/-- A probe that the tenant `a` writes. -/
def writeRequest (method body : GoString) : Request :=
  { probeRequest with
    method := method
    body := body
    contentLength := body.length
    context := { Context.background with tenant := some (ascii "a") } }

def probeOptions : HandlerOptions :=
  ⟨ascii "X-Scope-OrgID", id⟩

theorem canonical_empty : Canonical (.value verbatim) maxDepth (.object []) :=
  .object _ [] rfl (List.forall_mem_nil _) (List.forall_mem_nil _)

/-- A probe with the labels of the tenant `b`. -/
def foreignLabels : GoString := ascii "\x7b\"labels\":\x7b\"tenant\":\"b\"\x7d\x7d"

theorem decode_foreignLabels :
    decode (.value verbatim) foreignLabels =
      some (.object [(labelsKey, .object [(tenantKey, .string (ascii "b"))])]) := by
  have valid : ValidUtf8 (ascii "b") := by
    refine ValidUtf8.ascii (List.forall_mem_singleton.mpr ?_)
    decide
  have written : encode (.object (labelled (ascii "b") [])) = foreignLabels := by decide +kernel
  rw [← written]
  exact (labelled_canonical [] (ascii "b") valid canonical_empty).decode_encode

end Probes

end McoaGateway
