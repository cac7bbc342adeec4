/-
The authentication chain of the read paths: tenants from the header, the
provider for the joined tenant string, the tenant label.

The first and the last stage treat the tenant string as a list of names, the
stage between them as one key.  `readChain_serve` says what the three stages do
together; the remaining theorems compare the tenants that the matcher admits
with the tenants whose provider was asked.
-/

import McoaGateway.Authentication.Providers
import McoaGateway.Authorization.Tenant

namespace McoaGateway

open GoString

section ReadChain

variable (tenantHeader : GoString) (pm : ProviderManager) (tenantLabel : TenantLabel)

def readChain {Upstream : Type} : Middleware Upstream :=
  chain [withTenantFromHeader tenantHeader, withTenantMiddlewares [pm.middlewares],
    withTenantLabel tenantLabel]

def readRequest (request : Request) (identity : Identity) : Request :=
  ((tenantRequest tenantHeader request).withIdentity identity).withData
    (.document ⟨[tenantMatcher tenantLabel
      (headerTenants (request.header.values tenantHeader))], []⟩)

theorem readChain_serve {Upstream : Type} (next : Handler Upstream) (request : Request) :
    (∃ registered identity, Admits tenantHeader pm request registered identity ∧
      readChain tenantHeader pm tenantLabel next request =
        .passed .tenantHeader :: .authenticated registered true ::
          next (readRequest tenantHeader tenantLabel request identity)) ∨
    ((∀ registered identity, ¬ Admits tenantHeader pm request registered identity) ∧
      ∀ event ∈ readChain tenantHeader pm tenantLabel next request, event.Refusal) := by
  have stages : readChain tenantHeader pm tenantLabel next request =
      authChain tenantHeader pm (withTenantLabel tenantLabel next) request := rfl
  rw [stages]
  rcases authChain_serve tenantHeader pm (withTenantLabel tenantLabel next) request with
    ⟨registered, identity, admitted, served⟩ | refused
  · apply Or.inl
    refine ⟨registered, identity, admitted, ?_⟩
    rw [served]
    simp only [withTenantLabel, tenantRequest, Request.withIdentity_tenant,
      Request.withTenant_tenant, tenantMatchers_join tenantLabel _ admitted.1,
      readRequest]
  · exact Or.inr refused

theorem readChain_verdict (request : Request) :
    Verdict tenantHeader pm request (readRequest tenantHeader tenantLabel request)
      (readChain tenantHeader pm tenantLabel deliver request) :=
  readChain_serve tenantHeader pm tenantLabel deliver request

/-! ### A tenant's own provider -/

/-- If the chain passes the request on with a matcher that accepts `t`, and `t`
has a provider, then this provider was called and accepted the request. -/
def AuthenticatedByOwn (engine : RegexpEngine) (request : Request) (t : GoString) :
    Prop :=
  ∀ sent m, PassesOn (readChain tenantHeader pm tenantLabel) request sent →
    sent.context.data = some (.document ⟨[m], []⟩) →
    m.matches engine t = true →
    (List.lookup t pm).isSome = true →
    Event.authenticated t true ∈ readChain tenantHeader pm tenantLabel deliver request

/-- The header is admissible and lists `t` among other names, `t` has a provider,
and the request is accepted by another one: the provider entered under the
joined names, or, when there is none, the default provider. -/
def OtherProviderAccepts (request : Request) (t : GoString) : Prop :=
  let names := headerTenants (request.header.values tenantHeader)
  AdmissibleTenants names ∧ t ∈ names ∧ names ≠ [t] ∧
    (List.lookup t pm).isSome = true ∧
    ∃ registered authenticator identity,
      List.lookup registered pm = some authenticator ∧
      authenticator (tenantRequest tenantHeader request) = .ok identity ∧
      (registered = join (byte '|') names ∨
        registered = defaultTenantName ∧ t ≠ defaultTenantName ∧
          List.lookup (join (byte '|') names) pm = none)

private theorem join_eq_listed (names : List GoString) (t : GoString)
    (admissible : AdmissibleTenants names) (listed : t ∈ names)
    (joined : join (byte '|') names = t) : names = [t] := by
  have noBar : byte '|' ∉ t := by
    intro bar
    exact absurd (admissible.alphabet t listed _ bar) (by decide)
  have parts := admissible.split_join
  rw [joined, split_of_not_mem _ t noBar] at parts
  exact parts.symm

theorem authenticatedByOwn_iff (engine : RegexpEngine) (request : Request)
    (t : GoString) :
    AuthenticatedByOwn tenantHeader pm tenantLabel engine request t ↔
      ¬ OtherProviderAccepts tenantHeader pm request t := by
  have verdict := readChain_verdict tenantHeader pm tenantLabel request
  constructor
  · intro own other
    obtain ⟨admissible, listed, several, hasProvider, registered, authenticator,
      identity, found, accepts, key⟩ := other
    have selected : pm.select
        (join (byte '|') (headerTenants (request.header.values tenantHeader))) =
          some (registered, authenticator) := by
      rw [pm.select_eq_some]
      rcases key with same | ⟨isDefault, -, unregistered⟩
      · exact ⟨found, Or.inl same⟩
      · exact ⟨found, Or.inr ⟨isDefault, unregistered⟩⟩
    have admitted : Admits tenantHeader pm request registered identity :=
      ⟨admissible, authenticator, selected, accepts⟩
    have passed := (verdict.forwarded_iff _).mpr ⟨registered, identity, admitted, rfl⟩
    have accepted :=
      (tenantMatcher_matches engine tenantLabel _ admissible t).mpr listed
    have recorded := own _ _ passed rfl accepted hasProvider
    rw [verdict.authenticated_iff] at recorded
    obtain ⟨ownIdentity, ownAdmitted⟩ := recorded
    have isOwn := (admitted.unique tenantHeader pm ownAdmitted).1
    rcases key with same | ⟨isDefault, notDefault, -⟩
    · exact several (join_eq_listed _ t admissible listed (same.symm.trans isOwn))
    · exact notDefault (isOwn.symm.trans isDefault)
  · intro noOther sent m passed data accepted hasProvider
    obtain ⟨registered, identity, admitted, rfl⟩ :=
      (verdict.forwarded_iff sent).mp passed
    cases data
    have listed :=
      (tenantMatcher_matches engine tenantLabel _ admitted.1 t).mp accepted
    rw [verdict.authenticated_iff]
    refine ⟨identity, ?_⟩
    obtain ⟨admissible, authenticator, selected, accepts⟩ := id admitted
    obtain ⟨found, origin⟩ := (pm.select_eq_some _ _ _).mp selected
    by_cases single : headerTenants (request.header.values tenantHeader) = [t]
    · -- The joined string is `t` itself, and `t` has a provider of its own.
      have whole : join (byte '|')
          (headerTenants (request.header.values tenantHeader)) = t := by
        rw [single]
        simp [join]
      rw [whole] at origin
      rcases origin with same | ⟨-, absent⟩
      · rw [← same]
        exact admitted
      · simp [absent] at hasProvider
    · rcases origin with same | ⟨isDefault, unregistered⟩
      · exact absurd ⟨admissible, listed, single, hasProvider, registered,
          authenticator, identity, found, accepts, Or.inl same⟩ noOther
      · by_cases tIsDefault : t = defaultTenantName
        · rw [tIsDefault, ← isDefault]
          exact admitted
        · exact absurd ⟨admissible, listed, single, hasProvider, registered,
            authenticator, identity, found, accepts,
            Or.inr ⟨isDefault, tIsDefault, unregistered⟩⟩ noOther

end ReadChain

/-! ### A header that lists two tenants -/

/-- Tenant `a` has a provider that refuses every request, and the default
provider accepts every request. -/
def strictManager : ProviderManager :=
  [(ascii "a", fun _ => .error ⟨.unauthorized, ascii "failed to find token"⟩),
    (defaultTenantName, fun _ => .ok ⟨ascii "guest", []⟩)]

/-- `X-Scope-OrgID: a|b` is passed on with a matcher that accepts `a`, though
the provider of `a` refuses the request. -/
theorem twoTenants_bypass_own_provider :
    ¬ AuthenticatedByOwn (ascii "X-Scope-OrgID") strictManager tenantIdLabel
        RegexpEngine.literals (scopedRequest [ascii "a|b"]) (ascii "a") := by
  intro own
  have passed : PassesOn
      (readChain (ascii "X-Scope-OrgID") strictManager tenantIdLabel)
      (scopedRequest [ascii "a|b"])
      (readRequest (ascii "X-Scope-OrgID") tenantIdLabel
        (scopedRequest [ascii "a|b"]) ⟨ascii "guest", []⟩) := by
    unfold PassesOn
    decide +kernel
  have recorded := own _ _ passed rfl (by decide +kernel) (by decide +kernel)
  exact absurd recorded (by decide +kernel)

end McoaGateway
