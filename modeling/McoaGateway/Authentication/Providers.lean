/-
Authentication providers (`authentication/authentication.go`,
`authentication/http.go`, `authentication/mtls_tenant.go`).

A provider's middleware is modelled by its verdict on a request: an identity to
leave in the context, or an error to answer.  The manager maps tenant names to
providers and falls back to the provider of the default tenant; which of the
two was consulted is what `ProviderManager.select` tells.
-/

import McoaGateway.Authentication.TenantHeader

namespace McoaGateway

open GoString

def defaultTenantName : GoString :=
  ascii "__mcoa_default__"

/-- What an authenticator learns about the caller. -/
structure Identity where
  subject : GoString
  groups : List GoString
deriving DecidableEq, Repr

abbrev Authenticator := Request → Except HttpError Identity

def Request.withIdentity (request : Request) (identity : Identity) : Request :=
  { request with
    context := { request.context with
      subject := some identity.subject
      groups := some identity.groups } }

@[simp] theorem Request.withIdentity_tenant (request : Request) (identity : Identity) :
    (request.withIdentity identity).context.tenant = request.context.tenant := rfl

/-- The middleware of the provider that is registered under a name. -/
def authenticate {Upstream : Type} (registered : GoString)
    (authenticator : Authenticator) : Middleware Upstream :=
  fun next request =>
    match authenticator request with
    | .error error => [.authenticated registered false, .answered error]
    | .ok identity =>
        .authenticated registered true :: next (request.withIdentity identity)

/-- The map `ProviderManager.middlewares`. -/
abbrev ProviderManager := List (GoString × Authenticator)

/-- The entry which `Middlewares` chooses for a tenant, with its key. -/
def ProviderManager.select (pm : ProviderManager) (tenant : GoString) :
    Option (GoString × Authenticator) :=
  match List.lookup tenant pm with
  | some authenticator => some (tenant, authenticator)
  | none =>
      match List.lookup defaultTenantName pm with
      | some authenticator => some (defaultTenantName, authenticator)
      | none => none

def ProviderManager.middlewares {Upstream : Type} (pm : ProviderManager)
    (tenant : GoString) : Option (Middleware Upstream) :=
  (pm.select tenant).map fun entry => authenticate entry.1 entry.2

abbrev MiddlewareFunc (Upstream : Type) := GoString → Option (Middleware Upstream)

/-- The loop of `WithTenantMiddlewares` over the functions it was given. -/
def firstMiddleware {Upstream : Type} (tenant : GoString) :
    List (MiddlewareFunc Upstream) → Option (Middleware Upstream)
  | [] => none
  | mwFn :: rest =>
      match mwFn tenant with
      | some m => some m
      | none => firstMiddleware tenant rest

def withTenantMiddlewares {Upstream : Type} (mwFns : List (MiddlewareFunc Upstream)) :
    Middleware Upstream :=
  fun next request =>
    match request.context.tenant with
    | none => prometheusAPIError .badRequest (ascii "error finding tenant")
    | some tenant =>
        match firstMiddleware tenant mwFns with
        | some m => m next request
        | none =>
            prometheusAPIError .unauthorized
              (ascii "tenant not found, have you registered it?")

def withMTLSTenantExtraction {Upstream : Type} (tenantHeader : GoString) :
    Middleware Upstream :=
  fun next request =>
    match request.tls with
    | none => prometheusAPIError .unauthorized (ascii "TLS connection required")
    | some [] => prometheusAPIError .unauthorized (ascii "client certificate required")
    | some (cert :: _) =>
        match cert.organizationalUnit with
        | [] =>
            prometheusAPIError .badRequest (ascii "tenant not found in certificate OU")
        | tenant :: _ =>
            .passed .mtlsTenant ::
              next { request.withTenant tenant with
                header := request.header.set tenantHeader tenant }

/-- A forwarded access token takes the place of a missing one.  The token which
the source also leaves in the context is not modelled. -/
def withAccessToken {Upstream : Type} : Middleware Upstream :=
  fun next request =>
    let proxyToken := request.header.get (ascii "X-Forwarded-Access-Token")
    if request.header.get (ascii "Authorization") = [] ∧ proxyToken ≠ [] then
      next { request with
        header := request.header.set (ascii "Authorization")
          (ascii "Bearer " ++ proxyToken) }
    else next request

/-! ### Which provider is consulted -/

theorem ProviderManager.select_of_registered (pm : ProviderManager) (tenant : GoString)
    (authenticator : Authenticator)
    (registered : List.lookup tenant pm = some authenticator) :
    pm.select tenant = some (tenant, authenticator) := by
  simp [ProviderManager.select, registered]

theorem ProviderManager.select_of_unregistered (pm : ProviderManager)
    (tenant : GoString) (unregistered : List.lookup tenant pm = none) :
    pm.select tenant =
      (List.lookup defaultTenantName pm).map fun authenticator =>
        (defaultTenantName, authenticator) := by
  rw [ProviderManager.select, unregistered]
  cases List.lookup defaultTenantName pm <;> rfl

/-- The consulted provider is the tenant's own, or the default one when the
tenant has none. -/
theorem ProviderManager.select_eq_some (pm : ProviderManager)
    (tenant registered : GoString) (authenticator : Authenticator) :
    pm.select tenant = some (registered, authenticator) ↔
      List.lookup registered pm = some authenticator ∧
        (registered = tenant ∨
          registered = defaultTenantName ∧ List.lookup tenant pm = none) := by
  cases own : List.lookup tenant pm with
  | some other =>
      rw [pm.select_of_registered tenant other own]
      constructor
      · intro selected
        cases selected
        exact ⟨own, Or.inl rfl⟩
      · rintro ⟨found, rfl | ⟨-, absent⟩⟩
        · rw [own] at found
          cases found
          rfl
        · cases absent
  | none =>
      rw [pm.select_of_unregistered tenant own]
      constructor
      · intro selected
        obtain ⟨fallback, found, same⟩ := Option.map_eq_some_iff.mp selected
        cases same
        exact ⟨found, Or.inr ⟨rfl, rfl⟩⟩
      · rintro ⟨found, rfl | ⟨rfl, -⟩⟩
        · rw [own] at found
          cases found
        · rw [found]
          rfl

/-- The middleware of the manager, for any handler behind it: an error, or the
verdict of the selected provider. -/
theorem withTenantMiddlewares_serve {Upstream : Type} (pm : ProviderManager)
    (tenant : GoString) (next : Handler Upstream) (request : Request)
    (named : request.context.tenant = some tenant) :
    withTenantMiddlewares [pm.middlewares] next request =
      match pm.select tenant with
      | some entry => authenticate entry.1 entry.2 next request
      | none =>
          prometheusAPIError .unauthorized
            (ascii "tenant not found, have you registered it?") := by
  simp only [withTenantMiddlewares, named, firstMiddleware,
    ProviderManager.middlewares]
  cases pm.select tenant <;> rfl

/-! ### Tenants from the header, then the selected provider -/

section AuthChain

variable (tenantHeader : GoString) (pm : ProviderManager)

def authChain {Upstream : Type} : Middleware Upstream :=
  chain [withTenantFromHeader tenantHeader, withTenantMiddlewares [pm.middlewares]]

def tenantRequest (request : Request) : Request :=
  request.withTenant
    (join (byte '|') (headerTenants (request.header.values tenantHeader)))

/-- The provider selected for the tenants of the request accepts it. -/
def Admits (request : Request) (registered : GoString) (identity : Identity) : Prop :=
  AdmissibleTenants (headerTenants (request.header.values tenantHeader)) ∧
    ∃ authenticator,
      pm.select (join (byte '|') (headerTenants (request.header.values tenantHeader))) =
        some (registered, authenticator) ∧
      authenticator (tenantRequest tenantHeader request) = .ok identity

theorem authChain_serve {Upstream : Type} (next : Handler Upstream) (request : Request) :
    (∃ registered identity, Admits tenantHeader pm request registered identity ∧
      authChain tenantHeader pm next request =
        .passed .tenantHeader :: .authenticated registered true ::
          next ((tenantRequest tenantHeader request).withIdentity identity)) ∨
    ((∀ registered identity, ¬ Admits tenantHeader pm request registered identity) ∧
      ∀ event ∈ authChain tenantHeader pm next request, event.Refusal) := by
  rw [authChain, chain_cons, chain_cons, chain_nil, withTenantFromHeader]
  cases listed : tenantsFromHeader tenantHeader
      (request.header.values tenantHeader) with
  | error error =>
      apply Or.inr
      constructor
      · intro registered identity admitted
        have accepted :=
          (tenantsFromHeader_eq_ok tenantHeader _ _).mpr ⟨rfl, admitted.1⟩
        rw [listed] at accepted
        cases accepted
      · simp [Event.Refusal]
  | ok names =>
      obtain ⟨rfl, admissible⟩ := (tenantsFromHeader_eq_ok tenantHeader _ _).mp listed
      have asked := withTenantMiddlewares_serve pm _ next
        (tenantRequest tenantHeader request) rfl
      rw [tenantRequest] at asked
      simp only [asked]
      cases selected : pm.select
          (join (byte '|') (headerTenants (request.header.values tenantHeader))) with
      | none =>
          apply Or.inr
          constructor
          · intro registered identity admitted
            obtain ⟨-, authenticator, found, -⟩ := admitted
            rw [selected] at found
            cases found
          · simp [prometheusAPIError, Event.Refusal]
      | some entry =>
          obtain ⟨registered, authenticator⟩ := entry
          simp only [authenticate]
          cases verdict : authenticator (tenantRequest tenantHeader request) with
          | error error =>
              rw [tenantRequest] at verdict
              apply Or.inr
              constructor
              · intro other identity admitted
                obtain ⟨-, otherAuthenticator, found, accepted⟩ := admitted
                rw [selected] at found
                cases found
                rw [tenantRequest, verdict] at accepted
                cases accepted
              · simp [verdict, Event.Refusal]
          | ok identity =>
              apply Or.inl
              refine ⟨registered, identity,
                ⟨admissible, authenticator, selected, verdict⟩, ?_⟩
              rw [tenantRequest] at verdict
              simp only [verdict, tenantRequest]

theorem Admits.unique {request : Request} {registered other : GoString}
    {identity otherIdentity : Identity}
    (admitted : Admits tenantHeader pm request registered identity)
    (otherAdmitted : Admits tenantHeader pm request other otherIdentity) :
    registered = other ∧ identity = otherIdentity := by
  obtain ⟨-, authenticator, selected, accepted⟩ := admitted
  obtain ⟨-, otherAuthenticator, otherSelected, otherAccepted⟩ := otherAdmitted
  rw [selected] at otherSelected
  cases otherSelected
  rw [accepted] at otherAccepted
  cases otherAccepted
  exact ⟨rfl, rfl⟩

/-- What the events of a chain with an authentication stage look like when only
the delivery of the request is observed behind it. -/
def Verdict (request : Request) (sent : Identity → Request)
    (events : List (Event Unit)) : Prop :=
  (∃ registered identity, Admits tenantHeader pm request registered identity ∧
    events = [.passed .tenantHeader, .authenticated registered true,
      .forwarded () (sent identity)]) ∨
  ((∀ registered identity, ¬ Admits tenantHeader pm request registered identity) ∧
    ∀ event ∈ events, event.Refusal)

theorem authChain_verdict (request : Request) :
    Verdict tenantHeader pm request
      (fun identity => (tenantRequest tenantHeader request).withIdentity identity)
      (authChain tenantHeader pm deliver request) :=
  authChain_serve tenantHeader pm deliver request

variable {tenantHeader pm}

theorem Verdict.forwarded_iff {request : Request} {sent : Identity → Request}
    {events : List (Event Unit)} (verdict : Verdict tenantHeader pm request sent events)
    (outgoing : Request) :
    Event.forwarded () outgoing ∈ events ↔
      ∃ registered identity, Admits tenantHeader pm request registered identity ∧
        outgoing = sent identity := by
  rcases verdict with ⟨registered, identity, admitted, rfl⟩ | ⟨refused, refusals⟩
  · constructor
    · intro forwarded
      refine ⟨registered, identity, admitted, ?_⟩
      simpa using forwarded
    · intro passed
      obtain ⟨other, otherIdentity, otherAdmitted, rfl⟩ := passed
      rw [(admitted.unique tenantHeader pm otherAdmitted).2]
      simp
  · constructor
    · intro forwarded
      exact (refusals _ forwarded).elim
    · intro passed
      obtain ⟨registered, identity, admitted, -⟩ := passed
      exact absurd admitted (refused registered identity)

theorem Verdict.authenticated_iff {request : Request} {sent : Identity → Request}
    {events : List (Event Unit)} (verdict : Verdict tenantHeader pm request sent events)
    (name : GoString) :
    Event.authenticated name true ∈ events ↔
      ∃ identity, Admits tenantHeader pm request name identity := by
  rcases verdict with ⟨registered, identity, admitted, rfl⟩ | ⟨refused, refusals⟩
  · constructor
    · intro recorded
      have same : name = registered := by simpa using recorded
      exact ⟨identity, same ▸ admitted⟩
    · intro known
      obtain ⟨otherIdentity, otherAdmitted⟩ := known
      rw [(admitted.unique tenantHeader pm otherAdmitted).1]
      simp
  · constructor
    · intro recorded
      exact absurd (refusals _ recorded) (by simp [Event.Refusal])
    · intro known
      obtain ⟨identity, admitted⟩ := known
      exact absurd admitted (refused name identity)

end AuthChain

/-- A plain `GET` request with the given tenant header values. -/
def scopedRequest (values : List GoString) : Request where
  method := ascii "GET"
  url := ⟨ascii "/api/logs/v1/loki/api/v1/query", [], []⟩
  header := [(canonicalHeaderKey (ascii "X-Scope-OrgID"), values)]
  body := []
  contentLength := 0
  tls := none
  context := .background

end McoaGateway
