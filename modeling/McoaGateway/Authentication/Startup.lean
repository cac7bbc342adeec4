/-
Providers that start while requests arrive (`ProviderManager.InitializeProvider`
and the loop over the tenants in `main.go`).

For each configured tenant one goroutine creates the provider and then enters
it in the manager; nothing orders these goroutines among each other or with the
requests.  A run is an arbitrary list of goroutine steps and requests, and its
log records each request with the state it met.
-/

import McoaGateway.Authentication.Providers

namespace McoaGateway

open GoString

structure TenantConfig where
  tenant : GoString
  authenticator : Authenticator

inductive Phase where
  | starting
  | registered
  | failed
deriving DecidableEq, Repr

structure Initialization where
  config : TenantConfig
  phase : Phase
  retries : Nat

structure Startup where
  initializations : List Initialization
  manager : ProviderManager

/-- How an attempt to create a provider ends.  Only `unreachable` is tried
again, and it may be tried forever. -/
inductive Attempt where
  | unsupportedType
  | factoryError
  | unreachable
  | created

inductive Action where
  | initializeProvider (index : Nat) (attempt : Attempt)
  | serve (request : Request)

def Startup.start (configs : List TenantConfig) : Startup where
  initializations := configs.map fun config => ⟨config, .starting, 0⟩
  manager := []

/-- One step of the goroutine with the given index.  A goroutine that has ended
takes no further step. -/
def Startup.initializeProvider (state : Startup) (index : Nat) (attempt : Attempt) : Startup :=
  match state.initializations[index]? with
  | none => state
  | some goroutine =>
      if goroutine.phase = .starting then
        match attempt with
        | .unsupportedType | .factoryError =>
            { state with
              initializations := state.initializations.set index
                { goroutine with phase := .failed } }
        | .unreachable =>
            { state with
              initializations := state.initializations.set index
                { goroutine with retries := goroutine.retries + 1 } }
        | .created =>
            { initializations := state.initializations.set index
                { goroutine with phase := .registered }
              manager := (goroutine.config.tenant, goroutine.config.authenticator) ::
                state.manager }
      else
        state

/-- A request, the state that it met and what serving it showed. -/
structure LogEntry where
  state : Startup
  request : Request
  events : List (Event Unit)

section Runs

variable (tenantHeader : GoString)

def Startup.serve (state : Startup) (request : Request) : List (Event Unit) :=
  authChain tenantHeader state.manager deliver request

def Startup.run : Startup → List Action → List LogEntry
  | _, [] => []
  | state, .initializeProvider index attempt :: rest =>
      Startup.run (state.initializeProvider index attempt) rest
  | state, .serve request :: rest =>
      ⟨state, request, state.serve tenantHeader request⟩ :: Startup.run state rest

/-! ### What every reachable state satisfies -/

def Startup.IsRegistered (state : Startup) (tenant : GoString) : Prop :=
  ∃ goroutine ∈ state.initializations,
    goroutine.config.tenant = tenant ∧ goroutine.phase = .registered

/-- The goroutines are those of the configuration, and the manager knows
exactly the tenants whose goroutine has registered. -/
structure Startup.Consistent (configs : List TenantConfig) (state : Startup) : Prop where
  configured : state.initializations.map (·.config) = configs
  registered : ∀ tenant,
    (List.lookup tenant state.manager).isSome = true ↔ state.IsRegistered tenant

theorem Startup.start_consistent (configs : List TenantConfig) :
    (Startup.start configs).Consistent configs := by
  constructor
  · simp [Startup.start, Function.comp_def]
  · intro tenant
    simp [Startup.start, Startup.IsRegistered]

/-- What one goroutine step can do: nothing, a change of one goroutine that is
not registered before or after it, or a registration. -/
theorem Startup.initializeProvider_cases (state : Startup) (index : Nat) (attempt : Attempt) :
    state.initializeProvider index attempt = state ∨
    ∃ goroutine, state.initializations[index]? = some goroutine ∧
      goroutine.phase = .starting ∧
      ((∃ phase retries, phase ≠ .registered ∧
          state.initializeProvider index attempt =
            ⟨state.initializations.set index ⟨goroutine.config, phase, retries⟩,
              state.manager⟩) ∨
        state.initializeProvider index attempt =
          ⟨state.initializations.set index
              ⟨goroutine.config, .registered, goroutine.retries⟩,
            (goroutine.config.tenant, goroutine.config.authenticator) ::
              state.manager⟩) := by
  unfold Startup.initializeProvider
  cases found : state.initializations[index]? with
  | none => exact Or.inl rfl
  | some goroutine =>
      by_cases running : goroutine.phase = .starting
      · apply Or.inr
        refine ⟨goroutine, rfl, running, ?_⟩
        simp only [if_pos running]
        cases attempt with
        | unsupportedType =>
            exact Or.inl ⟨.failed, goroutine.retries, by decide, rfl⟩
        | factoryError =>
            exact Or.inl ⟨.failed, goroutine.retries, by decide, rfl⟩
        | unreachable =>
            exact Or.inl ⟨goroutine.phase, goroutine.retries + 1,
              by rw [running]; decide, rfl⟩
        | created => exact Or.inr rfl
      · apply Or.inl
        simp only [if_neg running]

private theorem configs_set (goroutines : List Initialization) (index : Nat)
    (old new : Initialization) (found : goroutines[index]? = some old)
    (same : new.config = old.config) :
    (goroutines.set index new).map (·.config) = goroutines.map (·.config) := by
  obtain ⟨inside, rfl⟩ := List.getElem?_eq_some_iff.mp found
  have inMap : index < (goroutines.map (·.config)).length := by simpa using inside
  have unchanged := List.set_getElem_self inMap
  rw [List.getElem_map] at unchanged
  rw [List.map_set, same, unchanged]

private theorem mem_set_iff (goroutines : List Initialization) (index : Nat)
    (old new : Initialization) (found : goroutines[index]? = some old)
    (property : Initialization → Prop) (unmet : ¬ property old) :
    (∃ goroutine ∈ goroutines.set index new, property goroutine) ↔
      property new ∨ ∃ goroutine ∈ goroutines, property goroutine := by
  have inside : index < goroutines.length := by
    rw [List.getElem?_eq_some_iff] at found
    exact found.1
  simp only [List.mem_iff_getElem?, List.getElem?_set]
  constructor
  · rintro ⟨goroutine, ⟨position, atPosition⟩, holds⟩
    by_cases here : index = position
    · subst here
      simp only [if_pos, inside, Option.some.injEq] at atPosition
      exact Or.inl (atPosition ▸ holds)
    · rw [if_neg here] at atPosition
      exact Or.inr ⟨goroutine, ⟨position, atPosition⟩, holds⟩
  · rintro (holds | ⟨goroutine, ⟨position, atPosition⟩, holds⟩)
    · exact ⟨new, ⟨index, by simp [inside]⟩, holds⟩
    · have elsewhere : index ≠ position := by
        intro here
        subst here
        rw [found] at atPosition
        cases atPosition
        exact unmet holds
      exact ⟨goroutine, ⟨position, by rw [if_neg elsewhere]; exact atPosition⟩, holds⟩

theorem Startup.initializeProvider_consistent (configs : List TenantConfig) (state : Startup)
    (index : Nat) (attempt : Attempt) (consistent : state.Consistent configs) :
    (state.initializeProvider index attempt).Consistent configs := by
  rcases state.initializeProvider_cases index attempt with
    unchanged | ⟨goroutine, found, running, changed | created⟩
  · rw [unchanged]
    exact consistent
  · obtain ⟨phase, retries, notRegistered, result⟩ := changed
    rw [result]
    constructor
    · rw [← consistent.configured]
      exact configs_set _ index goroutine _ found rfl
    · intro tenant
      rw [consistent.registered tenant]
      unfold Startup.IsRegistered
      rw [mem_set_iff _ index goroutine _ found _ (by simp [running])]
      simp [notRegistered]
  · rw [created]
    constructor
    · rw [← consistent.configured]
      exact configs_set _ index goroutine _ found rfl
    · intro tenant
      unfold Startup.IsRegistered
      rw [mem_set_iff _ index goroutine _ found _ (by simp [running])]
      rw [List.lookup_cons]
      have known := consistent.registered tenant
      unfold Startup.IsRegistered at known
      by_cases same : tenant = goroutine.config.tenant
      · simp [same]
      · have different : (tenant == goroutine.config.tenant) = false := by
          simpa using same
        rw [different, ← known]
        simp [Ne.symm same]

/-- Every request of a run meets a consistent state, and is served by the
manager of that state. -/
theorem Startup.run_consistent (configs : List TenantConfig) (state : Startup)
    (actions : List Action) (consistent : state.Consistent configs) :
    ∀ entry ∈ state.run tenantHeader actions,
      entry.state.Consistent configs ∧
        entry.events = entry.state.serve tenantHeader entry.request := by
  induction actions generalizing state with
  | nil => simp [Startup.run]
  | cons action rest ih =>
      cases action with
      | initializeProvider index attempt =>
          exact ih _ (state.initializeProvider_consistent configs index attempt consistent)
      | serve request =>
          rw [Startup.run, List.forall_mem_cons]
          exact ⟨⟨consistent, rfl⟩, ih state consistent⟩

/-! ### The default provider -/

/-- A request for one configured tenant other than the default one is not
authenticated by the default provider: the tenant's own provider accepts it, or
it is refused. -/
def LogEntry.HandledByOwn (configs : List TenantConfig) (entry : LogEntry) : Prop :=
  ∀ tenant, headerTenants (entry.request.header.values tenantHeader) = [tenant] →
    tenant ∈ configs.map (·.tenant) → tenant ≠ defaultTenantName →
    Event.authenticated defaultTenantName true ∉ entry.events ∧
      ∀ sent, Event.forwarded () sent ∈ entry.events →
        Event.authenticated tenant true ∈ entry.events

/-- The request is for one configured tenant other than the default one, whose
provider is not registered, while the default provider is and would accept. -/
def LogEntry.MeetsStarting (configs : List TenantConfig) (entry : LogEntry) : Prop :=
  ∃ tenant, headerTenants (entry.request.header.values tenantHeader) = [tenant] ∧
    tenant ∈ configs.map (·.tenant) ∧ tenant ≠ defaultTenantName ∧
    AdmissibleTenants [tenant] ∧
    ¬ entry.state.IsRegistered tenant ∧
    ∃ authenticator identity,
      List.lookup defaultTenantName entry.state.manager = some authenticator ∧
      authenticator (entry.request.withTenant tenant) = .ok identity

private theorem join_single (tenant : GoString) : join (byte '|') [tenant] = tenant := by
  simp [join]

private theorem admits_default_iff (state : Startup) (request : Request)
    (tenant : GoString) (identity : Identity)
    (single : headerTenants (request.header.values tenantHeader) = [tenant])
    (other : tenant ≠ defaultTenantName) :
    Admits tenantHeader state.manager request defaultTenantName identity ↔
      AdmissibleTenants [tenant] ∧ List.lookup tenant state.manager = none ∧
        ∃ authenticator,
          List.lookup defaultTenantName state.manager = some authenticator ∧
          authenticator (request.withTenant tenant) = .ok identity := by
  unfold Admits tenantRequest
  rw [single, join_single]
  constructor
  · intro admitted
    obtain ⟨admissible, authenticator, selected, accepted⟩ := admitted
    rcases (ProviderManager.select_eq_some _ _ _ _).mp selected with
      ⟨found, same | ⟨-, unregistered⟩⟩
    · exact absurd same.symm other
    · exact ⟨admissible, unregistered, authenticator, found, accepted⟩
  · intro fallback
    obtain ⟨admissible, unregistered, authenticator, found, accepted⟩ := fallback
    refine ⟨admissible, authenticator, ?_, accepted⟩
    exact (ProviderManager.select_eq_some _ _ _ _).mpr
      ⟨found, Or.inr ⟨rfl, unregistered⟩⟩

theorem LogEntry.handledByOwn_iff (configs : List TenantConfig) (entry : LogEntry)
    (consistent : entry.state.Consistent configs)
    (served : entry.events = entry.state.serve tenantHeader entry.request) :
    entry.HandledByOwn tenantHeader configs ↔
      ¬ entry.MeetsStarting tenantHeader configs := by
  have verdict := authChain_verdict tenantHeader entry.state.manager entry.request
  rw [← Startup.serve, ← served] at verdict
  have unregistered_iff : ∀ tenant,
      List.lookup tenant entry.state.manager = none ↔
        ¬ entry.state.IsRegistered tenant := by
    intro tenant
    rw [← consistent.registered tenant]
    cases List.lookup tenant entry.state.manager <;> simp
  constructor
  · intro handled meets
    obtain ⟨tenant, single, configured, other, admissible, unregistered, authenticator,
      identity, found, accepted⟩ := meets
    apply (handled tenant single configured other).1
    rw [verdict.authenticated_iff]
    refine ⟨identity, ?_⟩
    rw [admits_default_iff tenantHeader _ _ tenant identity single other]
    exact ⟨admissible, (unregistered_iff tenant).mpr unregistered, authenticator, found,
      accepted⟩
  · intro avoids tenant single configured other
    have notDefault : ∀ identity, ¬ Admits tenantHeader entry.state.manager
        entry.request defaultTenantName identity := by
      intro identity admitted
      rw [admits_default_iff tenantHeader _ _ tenant identity single other] at admitted
      obtain ⟨admissible, unregistered, authenticator, found, accepted⟩ := admitted
      exact avoids ⟨tenant, single, configured, other, admissible,
        (unregistered_iff tenant).mp unregistered, authenticator, identity, found,
        accepted⟩
    constructor
    · rw [verdict.authenticated_iff]
      intro known
      obtain ⟨identity, admitted⟩ := known
      exact notDefault identity admitted
    · intro sent forwarded
      obtain ⟨registered, identity, admitted, -⟩ :=
        (verdict.forwarded_iff sent).mp forwarded
      rw [verdict.authenticated_iff]
      refine ⟨identity, ?_⟩
      obtain ⟨-, authenticator, selected, -⟩ := id admitted
      rw [single, join_single] at selected
      rcases (ProviderManager.select_eq_some _ _ _ _).mp selected with
        ⟨-, same | ⟨isDefault, -⟩⟩
      · rw [← same]
        exact admitted
      · rw [isDefault] at admitted
        exact absurd admitted (notDefault identity)

/-- In a run, no request for a configured tenant is authenticated by the default
provider exactly when none of them meets a state in which the tenant's provider
is missing and the default provider would accept. -/
theorem Startup.run_handledByOwn_iff (configs : List TenantConfig)
    (actions : List Action) :
    (∀ entry ∈ (Startup.start configs).run tenantHeader actions,
        entry.HandledByOwn tenantHeader configs) ↔
      ∀ entry ∈ (Startup.start configs).run tenantHeader actions,
        ¬ entry.MeetsStarting tenantHeader configs := by
  have reachable := Startup.run_consistent tenantHeader configs
    (Startup.start configs) actions (Startup.start_consistent configs)
  constructor
  · intro handled entry member
    obtain ⟨consistent, served⟩ := reachable entry member
    exact (entry.handledByOwn_iff tenantHeader configs consistent served).mp
      (handled entry member)
  · intro avoids entry member
    obtain ⟨consistent, served⟩ := reachable entry member
    exact (entry.handledByOwn_iff tenantHeader configs consistent served).mpr
      (avoids entry member)

end Runs

/-! ### A request during startup -/

/-- Tenant `a` has a provider that refuses every request, and the default
provider accepts every request. -/
def slowTenants : List TenantConfig :=
  [⟨ascii "a", fun _ => .error ⟨.unauthorized, ascii "failed to find token"⟩⟩,
    ⟨defaultTenantName, fun _ => .ok ⟨ascii "guest", []⟩⟩]

/-- The default provider registers first, and a request for `a` arrives before
the provider of `a` has registered. -/
def earlyRequest : List Action :=
  [.initializeProvider 0 .unreachable, .initializeProvider 1 .created,
    .serve (scopedRequest [ascii "a"])]

theorem earlyRequest_handled_by_default :
    ¬ ∀ entry ∈ (Startup.start slowTenants).run (ascii "X-Scope-OrgID") earlyRequest,
        entry.HandledByOwn (ascii "X-Scope-OrgID") slowTenants := by
  intro handled
  have first := handled _ List.mem_cons_self (ascii "a") (by decide +kernel)
    (by decide +kernel) (by decide +kernel)
  exact first.1 (by decide +kernel)

end McoaGateway
