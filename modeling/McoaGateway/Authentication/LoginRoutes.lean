/-
The login routes (`ProviderManager.PatternHandler` and its mounts in `main.go`).

A provider with a login flow registers a handler for its pattern, and the
manager looks the handler up by the tenant in the context of the request.  The
group in which `main` mounts the patterns puts no tenant there: the name in the
path is a parameter of the route only.  So every login and every callback is
answered with an error, whatever the providers have registered.
-/

import McoaGateway.Gateway

namespace McoaGateway

open GoString

/-! ### Routes with other endpoints -/

namespace Chi

variable {Endpoint Other : Type} (change : Endpoint → Other)

def Route.map (route : Route Endpoint) : Route Other :=
  ⟨route.method, route.pattern, change route.endpoint⟩

def Match.map (matched : Match Endpoint) : Match Other :=
  ⟨matched.pattern, change matched.endpoint, matched.params⟩

def Lookup.map : Lookup Endpoint → Lookup Other
  | .found endpoint params => .found (change endpoint) params
  | .methodNotAllowed => .methodNotAllowed
  | .notFound => .notFound

theorem Route.match_map (route : Route Endpoint) (method path : GoString) :
    (route.map change).match method path = (route.match method path).map (Match.map change) := by
  have serves : (route.map change).serves method = route.serves method := rfl
  unfold Route.match
  rw [serves]
  split
  · rw [Option.map_map]
    rfl
  · rfl

theorem foldl_better_map (candidates : List (Match Endpoint)) (best : Option (Match Endpoint)) :
    (candidates.map (Match.map change)).foldl better (best.map (Match.map change)) =
      (candidates.foldl better best).map (Match.map change) := by
  induction candidates generalizing best with
  | nil => rfl
  | cons candidate rest ih =>
      have step : better (best.map (Match.map change)) (candidate.map change) =
          (better best candidate).map (Match.map change) := by
        cases best with
        | none => rfl
        | some old =>
            have patterns : (old.map change).pattern = old.pattern ∧
                (candidate.map change).pattern = candidate.pattern := ⟨rfl, rfl⟩
            unfold better
            dsimp only [Option.map_some]
            rw [patterns.1, patterns.2]
            split <;> rfl
      rw [List.map_cons, List.foldl_cons, List.foldl_cons, step, ih]

theorem lookup_map (routes : List (Route Endpoint)) (method path : GoString) :
    lookup (routes.map (Route.map change)) method path =
      (lookup routes method path).map change := by
  have candidates : (routes.map (Route.map change)).filterMap (·.match method path) =
      (routes.filterMap (·.match method path)).map (Match.map change) := by
    rw [List.filterMap_map, List.map_filterMap]
    congr 1
    funext route
    exact route.match_map change method path
  have chosen := foldl_better_map change (routes.filterMap (·.match method path)) none
  have known : (routes.map (Route.map change)).any
      (fun route => (matchPattern route.pattern path).isSome) =
        routes.any (fun route => (matchPattern route.pattern path).isSome) := by
    rw [List.any_map]
    rfl
  unfold lookup
  rw [candidates, known]
  rw [Option.map_none] at chosen
  rw [chosen]
  by_cases unknown : method ∉ methods
  · rw [if_pos unknown, if_pos unknown]
    rfl
  · rw [if_neg unknown, if_neg unknown]
    cases (routes.filterMap (·.match method path)).foldl better none with
    | some best => rfl
    | none =>
        dsimp only [Option.map_none]
        split <;> rfl

end Chi

/-! ### Requests without a tenant -/

section Tenantless

variable {Upstream : Type}

/-- A handler as far as requests without a tenant can tell. -/
def tenantless (handler : Handler Upstream) : Handler Upstream :=
  fun request => if request.context.tenant = none then handler request else []

theorem Router.serve_tenantless (router : Router Upstream) (request : Request)
    (without : request.context.tenant = none) :
    Router.serve (router.map (Chi.Route.map tenantless)) request = router.serve request := by
  unfold Router.serve
  rw [Chi.lookup_map]
  cases Chi.lookup router request.method request.routePath with
  | found endpoint params => exact if_pos without
  | methodNotAllowed => rfl
  | notFound => rfl

end Tenantless

/-! ### `PatternHandler` -/

/-- The handlers that the providers have registered, for each pattern by tenant. -/
abbrev PatternHandlers := AuthnRoute → List (GoString × (Request → HttpError))

def errorFindingTenant (status : Status) : HttpError :=
  ⟨status, ascii "error finding tenant"⟩

def PatternHandlers.patternHandler (handlers : PatternHandlers) (route : AuthnRoute)
    (request : Request) : HttpError :=
  match request.context.tenant with
  | none => errorFindingTenant .internalServerError
  | some tenant =>
      match List.lookup tenant (handlers route) with
      | none => errorFindingTenant .unauthorized
      | some handler => handler request

/-- The gateway with the given handlers for the login routes. -/
def Environment.withPatternHandlers (env : Environment) (handlers : PatternHandlers) :
    Environment :=
  { env with patternHandler := handlers.patternHandler }

/-- The gateway whose login routes know one answer only. -/
def Environment.withoutLogin (env : Environment) : Environment :=
  { env with patternHandler := fun _ _ => errorFindingTenant .internalServerError }

section Login

variable (config : Config) (env : Environment) (handlers : PatternHandlers)

private theorem mount_tenantless (route : AuthnRoute) :
    tenantless (chain [withAccessToken] (mountHandler fun request =>
        [(.answered (handlers.patternHandler route request) : Event Proxy)])) =
      tenantless (chain [withAccessToken] (mountHandler fun _ =>
        [.answered (errorFindingTenant .internalServerError)])) := by
  funext request
  unfold tenantless
  by_cases without : request.context.tenant = none
  · rw [if_pos without, if_pos without]
    -- Neither the mount nor the access token changes the tenant of the context.
    have answer (sent : Request) (same : sent.context.tenant = request.context.tenant) :
        handlers.patternHandler route sent.mounted =
          errorFindingTenant .internalServerError := by
      have mounted : sent.mounted.context.tenant = none := same.trans without
      rw [PatternHandlers.patternHandler, mounted]
    simp only [chain_cons, chain_nil, withAccessToken, mountHandler]
    split
    · exact congrArg (fun error => [Event.answered error]) (answer _ rfl)
    · exact congrArg (fun error => [Event.answered error]) (answer _ rfl)
  · rw [if_neg without, if_neg without]

private theorem authnMounts_tenantless :
    (Router.group [withAccessToken] (authnMounts (env.withPatternHandlers handlers))).map
        (Chi.Route.map tenantless) =
      (Router.group [withAccessToken] (authnMounts env.withoutLogin)).map
        (Chi.Route.map tenantless) := by
  have each (route : AuthnRoute) :
      (Router.group [withAccessToken] (Router.mount route.pattern fun request =>
          [(.answered (handlers.patternHandler route request) : Event Proxy)])).map
          (Chi.Route.map tenantless) =
        (Router.group [withAccessToken] (Router.mount route.pattern fun _ =>
          [.answered (errorFindingTenant .internalServerError)])).map
          (Chi.Route.map tenantless) := by
    unfold Router.mount Chi.mount Router.group
    split
    · simp only [List.map_cons, List.map_nil, Chi.Route.map, mount_tenantless]
    · simp only [List.map_cons, List.map_nil, Chi.Route.map, mount_tenantless]
  unfold authnMounts Router.group at *
  rw [List.map_flatMap, List.map_flatMap, List.map_flatMap, List.map_flatMap]
  exact congrArg (env.authnRoutes.flatMap ·) (funext each)

private theorem rootRouter_tenantless :
    (rootRouter config (env.withPatternHandlers handlers)).map (Chi.Route.map tenantless) =
      (rootRouter config env.withoutLogin).map (Chi.Route.map tenantless) := by
  -- All other mounts are the same in both environments.
  have shape (other : Environment) : rootRouter config other =
      Router.group [withAccessToken] (authnMounts other) ++
        Router.group [withAccessToken] (alertmanagerMount config other ++
          (metricsMounts config other ++ (logsMount config other ++ tracesMount config other))) ++
        (Router.method methodGet (ascii "/openapi.yaml") (fun _ => []) ++
          Router.method methodGet (ascii "/") (fun _ => [])) := by
    unfold rootRouter apiMounts Router.group
    simp only [List.map_append, List.append_assoc]
  rw [shape, shape, List.map_append, List.map_append, authnMounts_tenantless,
    ← List.map_append, ← List.map_append]
  rfl

theorem gateway_withPatternHandlers :
    gateway config (env.withPatternHandlers handlers) = gateway config env.withoutLogin := by
  funext request
  rw [gateway_eq, gateway_eq]
  have entered : request.entered.context.tenant = none := rfl
  have served : (rootRouter config (env.withPatternHandlers handlers)).serve request.entered =
      (rootRouter config env.withoutLogin).serve request.entered := by
    rw [← Router.serve_tenantless _ _ entered, rootRouter_tenantless,
      Router.serve_tenantless _ _ entered]
  unfold throttle
  rw [served]
  rfl

/-! ### Requests to log in -/

def AuthnRoute.base : AuthnRoute → GoString
  | .oidc => ascii "/oidc/"
  | .openshift => ascii "/openshift/"

theorem AuthnRoute.pattern_unclosed (route : AuthnRoute) :
    route.pattern.getLast? ≠ some slash := by
  cases route <;> decide +kernel

/-- A path below the mount for a tenant, such as its login or its callback. -/
def AuthnRoute.LoginPath (route : AuthnRoute) (path : GoString) : Prop :=
  ∃ tenant rest, slash ∉ tenant ∧ path = route.base ++ (tenant ++ slash :: rest)

private theorem loginPath_match (route : AuthnRoute) (path : GoString)
    (login : route.LoginPath path) :
    ∃ params, Chi.matchPattern (Chi.pattern (route.pattern ++ slash :: Chi.star)) path =
      some params := by
  obtain ⟨tenant, rest, noSlash, rfl⟩ := login
  have shape : Chi.pattern (route.pattern ++ slash :: Chi.star) =
      route.base.map .literal ++ [.param (ascii "tenant") slash, .literal slash, .catchAll] := by
    cases route <;> decide +kernel
  have cut : Chi.cutParam slash (tenant ++ slash :: rest) = some (tenant, slash :: rest) :=
    (Chi.cutParam_slash _ _ _).mpr ⟨by simp, rfl, noSlash, Or.inr rfl⟩
  refine ⟨[(ascii "tenant", tenant), (Chi.star, rest)], ?_⟩
  rw [shape, Chi.matchPattern_literals]
  refine ⟨_, rfl, ?_⟩
  rw [Chi.matchPattern, cut]
  dsimp only
  rw [Chi.matchPattern, if_pos rfl, Chi.matchPattern]
  rfl

private theorem mount_clash (text base : GoString) (condition : Prop) [Decidable condition]
    (handler : Handler Proxy)
    (clash : (Chi.mount base ()).all (fun route => Chi.clashes text route.pattern) = true) :
    (if condition then Router.mount base handler else []).all
      (fun route => Chi.clashes text route.pattern) = true := by
  split
  · rw [Router.all_mount]
    exact clash
  · rfl

private theorem otherMounts_clash :
    (alertmanagerMount config env ++ metricsMounts config env ++ logsMount config env ++
      tracesMount config env).all
        (fun route => Chi.clashes (ascii "/o") route.pattern) = true := by
  rw [List.all_append, List.all_append, List.all_append, Bool.and_eq_true,
    Bool.and_eq_true, Bool.and_eq_true]
  refine ⟨⟨⟨?_, ?_⟩, ?_⟩, ?_⟩
  · exact mount_clash _ _ _ _ (by decide +kernel)
  · unfold metricsMounts
    split
    · rw [List.all_append, List.all_append, Bool.and_eq_true, Bool.and_eq_true]
      refine ⟨⟨?_, mount_clash _ _ _ _ (by decide +kernel)⟩, ?_⟩
      · rw [Router.all_mount]
        decide +kernel
      · rw [Router.all_mount]
        decide +kernel
    · rfl
  · exact mount_clash _ _ _ _ (by decide +kernel)
  · exact mount_clash _ _ _ _ (by decide +kernel)

private theorem authnMounts_endpoint (own : Chi.Route (Handler Proxy))
    (member : own ∈ authnMounts env.withoutLogin) :
    own.endpoint = mountHandler fun _ =>
      [.answered (errorFindingTenant .internalServerError)] := by
  obtain ⟨authn, -, inMount⟩ := List.mem_flatMap.mp member
  obtain ⟨last, -, rfl⟩ :=
    (Chi.mem_mount authn.pattern _ authn.pattern_unclosed own).mp inMount
  rfl

private theorem login_answered (route : AuthnRoute) (mounted : route ∈ env.authnRoutes)
    (request : Request) (admitted : env.throttled = none)
    (known : request.method ∈ Chi.methods) (login : route.LoginPath request.routingPath) :
    gateway config env.withoutLogin request =
      [.answered (errorFindingTenant .internalServerError)] := by
  have begins : route.base <+: request.entered.routePath := by
    obtain ⟨tenant, rest, -, path⟩ := login
    rw [request.entered_routePath, path]
    exact List.prefix_append _ _
  obtain ⟨params, matched⟩ := loginPath_match route _ login
  rw [← request.entered_routePath] at matched
  have inRoot : (⟨none, Chi.pattern (route.pattern ++ slash :: Chi.star),
      chain [withAccessToken] (mountHandler fun request =>
        [.answered (env.withoutLogin.patternHandler route request)])⟩ :
        Chi.Route (Handler Proxy)) ∈ rootRouter config env.withoutLogin := by
    apply List.mem_append_left
    apply List.mem_append_left
    apply List.mem_map.mpr
    refine ⟨⟨none, Chi.pattern (route.pattern ++ slash :: Chi.star), _⟩, ?_, rfl⟩
    apply List.mem_append_left
    apply List.mem_append_left
    apply List.mem_append_left
    apply List.mem_append_left
    apply List.mem_flatMap.mpr
    refine ⟨route, mounted, (Chi.mem_mount route.pattern _ route.pattern_unclosed _).mpr ?_⟩
    exact ⟨slash :: Chi.star, by simp, rfl⟩
  obtain ⟨chosen, member, values, -, fits, served⟩ :=
    (rootRouter config env.withoutLogin).serve_of_match request.entered known _ inRoot rfl _
      matched
  have same : env.withoutLogin.throttled = none := admitted
  rw [gateway_eq]
  unfold throttle
  rw [same]
  dsimp only
  rw [served]
  rcases mem_rootRouter config env.withoutLogin chosen member with
    ⟨own, inMounts, rfl⟩ | rfl | rfl
  · have inAuthn : own ∈ authnMounts env.withoutLogin := by
      unfold apiMounts at inMounts
      rw [List.append_assoc, List.append_assoc, List.append_assoc] at inMounts
      rcases List.mem_append.mp inMounts with isAuthn | isOther
      · exact isAuthn
      · rw [← List.append_assoc, ← List.append_assoc] at isOther
        have short : ascii "/o" <+: request.entered.routePath :=
          List.IsPrefix.trans (by cases route <;> decide +kernel) begins
        exact absurd isOther
          (not_mem_of_clash (otherMounts_clash config env.withoutLogin) short fits)
    dsimp only
    rw [authnMounts_endpoint env own inAuthn]
    simp only [chain_cons, chain_nil, withAccessToken, mountHandler, ite_self]
  · have clash : Chi.clashes route.base (Chi.pattern (ascii "/openapi.yaml")) = true := by
      cases route <;> decide +kernel
    exact absurd fits (Chi.not_match_of_clashes _ _ _ _ clash begins)
  · have clash : Chi.clashes route.base (Chi.pattern (ascii "/")) = true := by
      cases route <;> decide +kernel
    exact absurd fits (Chi.not_match_of_clashes _ _ _ _ clash begins)

/-- Whatever handlers the providers have registered, the gateway behaves as if
there were none, and a request to log in fails. -/
theorem login_fails :
    gateway config (env.withPatternHandlers handlers) = gateway config env.withoutLogin ∧
      ∀ route ∈ env.authnRoutes, ∀ request, env.throttled = none →
        request.method ∈ Chi.methods → route.LoginPath request.routingPath →
          gateway config (env.withPatternHandlers handlers) request =
            [.answered (errorFindingTenant .internalServerError)] := by
  refine ⟨gateway_withPatternHandlers config env handlers, ?_⟩
  intro route mounted request admitted known login
  rw [gateway_withPatternHandlers]
  exact login_answered config env route mounted request admitted known login

end Login

/-- A provider for `a` that sends every caller to its login page. -/
def redirecting : PatternHandlers :=
  fun _ => [(ascii "a", fun _ => ⟨.found, []⟩)]

/-- The login of the tenant `a` does not redirect. -/
theorem login_fails_oidc :
    gateway (installation true true true)
        ((openEnvironment Metrics.bareMetrics).withPatternHandlers redirecting)
        (getRequest (ascii "/oidc/a/login") [] []) =
      [.answered (errorFindingTenant .internalServerError)] := by
  refine (login_fails (installation true true true) (openEnvironment Metrics.bareMetrics)
    redirecting).2 .oidc ?_ _ rfl ?_ ⟨ascii "a", ascii "login", ?_, ?_⟩
  · exact List.mem_singleton.mpr rfl
  · decide +kernel
  · decide +kernel
  · decide +kernel

end McoaGateway
