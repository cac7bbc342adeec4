/-
Mediation of upstream access in the wired gateway.

Every use of a proxy must be preceded, in the events of its request, by the
checks for the kind of access.  A router is treated group by group: the first
middlewares of a group grant the access, the other ones are transparent, and
the proxies at its end need what was granted.  The routes of Tempo are the one
group without middlewares; `gateway_mediated_iff` says exactly which requests
reach it.
-/

import McoaGateway.Gateway

namespace McoaGateway

open GoString

inductive Access where
  | read
  | write
deriving DecidableEq, Repr

/-- The access which a proxy gives; the rules of the logs are read and written
through one proxy. -/
def Proxy.access (proxy : Proxy) (method : GoString) : Access :=
  match proxy with
  | .metricsWrite | .metricsRulesPut | .alertFanout | .logsWrite | .tracesOTLP => .write
  | .logsRules => if method = methodGet then .read else .write
  | _ => .read

def Access.Granted : Access → List (Event Proxy) → Prop
  | .read, earlier =>
      .passed .tenantHeader ∈ earlier ∧
        ∃ registered, .authenticated registered true ∈ earlier
  | .write, earlier => .passed .mtlsTenant ∈ earlier

section Mediation

variable (queryRBAC : Bool)

def Permitted (earlier : List (Event Proxy)) : Event Proxy → Prop
  | .forwarded proxy sent =>
      (proxy.access sent.method).Granted earlier ∧
        (queryRBAC = true → proxy = .tempo →
          proxy.modifyResponse = some .responseRBACModifier)
  | _ => True

def Mediated : List (Event Proxy) → List (Event Proxy) → Prop
  | _, [] => True
  | earlier, event :: later =>
      Permitted queryRBAC earlier event ∧ Mediated (earlier ++ [event]) later

theorem mediated_answered (earlier : List (Event Proxy)) (error : HttpError) :
    Mediated queryRBAC earlier [.answered error] :=
  ⟨trivial, trivial⟩

theorem mediated_of_refusal (earlier trace : List (Event Proxy))
    (refused : ∀ event ∈ trace, event.Refusal) : Mediated queryRBAC earlier trace := by
  induction trace generalizing earlier with
  | nil => trivial
  | cons event later ih =>
      constructor
      · cases event with
        | forwarded proxy sent => exact (refused _ List.mem_cons_self).elim
        | _ => trivial
      · exact ih _ fun event member => refused event (List.mem_cons_of_mem _ member)

/-! ### Transparent middlewares -/

/-- A middleware that calls the next handler at once, or answers. -/
def Transparent (middleware : Middleware Proxy) : Prop :=
  ∀ next request,
    (∃ sent, middleware next request = next sent ∧ sent.method = request.method) ∨
      ∃ error, middleware next request = [.answered error]

theorem transparent_filter (filter : Filter) : Transparent filter.middleware := by
  intro next request
  unfold Filter.middleware
  cases verdict : filter.run request with
  | error error => exact Or.inr ⟨error, rfl⟩
  | ok sent => exact Or.inl ⟨sent, rfl, (filter.keeps request sent verdict).1⟩

theorem transparent_stripPrefix (start : GoString) : Transparent (stripPrefix start) := by
  intro next request
  unfold stripPrefix
  dsimp only
  split
  · exact Or.inl ⟨_, rfl, rfl⟩
  · exact Or.inr ⟨_, rfl⟩

theorem transparent_withAccessToken : Transparent withAccessToken := by
  intro next request
  unfold withAccessToken
  dsimp only
  split
  · exact Or.inl ⟨_, rfl, rfl⟩
  · exact Or.inl ⟨_, rfl, rfl⟩

theorem transparent_withTenantLabel (tenantLabel : TenantLabel) :
    Transparent (withTenantLabel tenantLabel) := by
  intro next request
  unfold withTenantLabel
  cases request.context.tenant with
  | none => exact Or.inr ⟨_, rfl⟩
  | some tenant =>
      dsimp only
      cases tenantMatchers tenantLabel tenant with
      | error error => exact Or.inr ⟨_, rfl⟩
      | ok matchers => exact Or.inl ⟨_, rfl, rfl⟩

theorem transparent_ruleNamespace :
    Transparent Logs.withEnforceTenantAsRuleNamespace := by
  intro next request
  unfold Logs.withEnforceTenantAsRuleNamespace
  cases Logs.ruleNamespaceError request with
  | some error => exact Or.inr ⟨_, rfl⟩
  | none => exact Or.inl ⟨_, rfl, rfl⟩

theorem transparent_alertTenantHeader (header : GoString)
    (tenantIDs : List (GoString × GoString)) :
    Transparent (alertTenantHeader header tenantIDs) := by
  intro next request
  unfold alertTenantHeader
  cases request.context.tenant with
  | none => exact Or.inr ⟨_, rfl⟩
  | some tenant =>
      dsimp only
      split
      · exact Or.inr ⟨_, rfl⟩
      · exact Or.inl ⟨_, rfl, rfl⟩

theorem transparent_accessorToken (token : GoString) :
    Transparent (accessorToken token) := by
  intro next request
  exact Or.inl ⟨_, rfl, rfl⟩

theorem transparent_chain (middlewares : List (Middleware Proxy))
    (transparent : ∀ middleware ∈ middlewares, Transparent middleware) :
    Transparent (chain middlewares) := by
  induction middlewares with
  | nil =>
      intro next request
      exact Or.inl ⟨request, rfl, rfl⟩
  | cons middleware rest ih =>
      intro next request
      rw [chain_cons]
      rcases transparent middleware List.mem_cons_self (chain rest next) request with
        ⟨sent, passed, method⟩ | answered
      · rw [passed, ← method]
        exact ih (fun other member => transparent other (List.mem_cons_of_mem _ member))
          next sent
      · exact Or.inr answered

/-! ### Routers -/

/-- Once access is granted, every route of the router is mediated. -/
def Mediates (granted : List (Event Proxy) → Prop) (router : Router Proxy) : Prop :=
  ∀ route ∈ router, ∀ request earlier, route.serves request.method = true →
    granted earlier → Mediated queryRBAC earlier (route.endpoint request)

def Unconditional : List (Event Proxy) → Prop :=
  fun _ => True

variable {queryRBAC} {granted : List (Event Proxy) → Prop}

theorem mediates_nil : Mediates queryRBAC granted [] := by
  intro route member
  cases member

theorem mediates_append {first second : Router Proxy}
    (left : Mediates queryRBAC granted first)
    (right : Mediates queryRBAC granted second) :
    Mediates queryRBAC granted (first ++ second) := by
  intro route member
  rcases List.mem_append.mp member with inFirst | inSecond
  · exact left route inFirst
  · exact right route inSecond

theorem mediates_elim {Endpoint : Type} (endpoint : Option Endpoint)
    {routes : Endpoint → Router Proxy}
    (each : ∀ value, Mediates queryRBAC granted (routes value)) :
    Mediates queryRBAC granted (endpoint.elim [] routes) := by
  cases endpoint with
  | none => exact mediates_nil
  | some value => exact each value

theorem mediates_ite (condition : Prop) [Decidable condition] {router : Router Proxy}
    (mediates : Mediates queryRBAC granted router) :
    Mediates queryRBAC granted (if condition then router else []) := by
  split
  · exact mediates
  · exact mediates_nil

theorem mediates_group {middlewares : List (Middleware Proxy)} {router : Router Proxy}
    (transparent : ∀ middleware ∈ middlewares, Transparent middleware)
    (mediates : Mediates queryRBAC granted router) :
    Mediates queryRBAC granted (Router.group middlewares router) := by
  intro route member request earlier serves given
  obtain ⟨own, inRouter, rfl⟩ := List.mem_map.mp member
  rcases transparent_chain middlewares transparent own.endpoint request with
    ⟨sent, passed, method⟩ | ⟨error, answered⟩
  · simp only [passed]
    apply mediates own inRouter sent earlier _ given
    rw [method]
    exact serves
  · simp only [answered]
    exact mediated_answered queryRBAC earlier error

theorem mediates_readGroup {tenantHeader : GoString} {pm : ProviderManager}
    {rest : List (Middleware Proxy)} {router : Router Proxy}
    (transparent : ∀ middleware ∈ rest, Transparent middleware)
    (mediates : Mediates queryRBAC Access.read.Granted router) :
    Mediates queryRBAC Unconditional
      (Router.group (withTenantFromHeader tenantHeader ::
        withTenantMiddlewares [pm.middlewares] :: rest) router) := by
  intro route member request earlier serves _
  obtain ⟨own, inRouter, rfl⟩ := List.mem_map.mp member
  have inner := mediates_group transparent mediates
    { own with endpoint := chain rest own.endpoint } (List.mem_map.mpr ⟨own, inRouter, rfl⟩)
  rcases authChain_serve tenantHeader pm (chain rest own.endpoint) request with
    ⟨registered, identity, -, served⟩ | ⟨-, refused⟩
  · have given : Access.read.Granted
        (earlier ++ [.passed .tenantHeader] ++ [.authenticated registered true]) := by
      constructor
      · simp
      · exact ⟨registered, by simp⟩
    have trace : chain (withTenantFromHeader tenantHeader ::
        withTenantMiddlewares [pm.middlewares] :: rest) own.endpoint request =
          authChain tenantHeader pm (chain rest own.endpoint) request := rfl
    simp only [trace, served]
    exact ⟨trivial, trivial, inner _ _ serves given⟩
  · exact mediated_of_refusal queryRBAC earlier _ refused

theorem mediates_writeGroup {tenantHeader : GoString}
    {rest : List (Middleware Proxy)} {router : Router Proxy}
    (transparent : ∀ middleware ∈ rest, Transparent middleware)
    (mediates : Mediates queryRBAC Access.write.Granted router) :
    Mediates queryRBAC Unconditional
      (Router.group (withMTLSTenantExtraction tenantHeader :: rest) router) := by
  intro route member request earlier serves _
  obtain ⟨own, inRouter, rfl⟩ := List.mem_map.mp member
  have inner := mediates_group transparent mediates
    { own with endpoint := chain rest own.endpoint } (List.mem_map.mpr ⟨own, inRouter, rfl⟩)
  simp only [chain_cons, withMTLSTenantExtraction]
  split
  · exact mediated_answered queryRBAC earlier _
  · exact mediated_answered queryRBAC earlier _
  · split
    · exact mediated_answered queryRBAC earlier _
    · refine ⟨trivial, inner _ _ serves ?_⟩
      simp [Access.Granted]

theorem mediates_mount {base : GoString} {handler : Handler Proxy}
    (mediated : ∀ request earlier, granted earlier →
      Mediated queryRBAC earlier (handler request)) :
    Mediates queryRBAC granted (Router.mount base handler) := by
  intro route member request earlier _ given
  rw [Router.endpoint_of_mem_mount member]
  exact mediated _ earlier given

theorem mediated_serve {router : Router Proxy} (mediates : Mediates queryRBAC granted router)
    (request : Request) (earlier : List (Event Proxy)) (given : granted earlier) :
    Mediated queryRBAC earlier (router.serve request) := by
  rcases router.serve_cases request with
    ⟨route, member, params, serves, -, served⟩ | ⟨error, answered⟩
  · rw [served]
    exact mediates route member _ earlier serves given
  · rw [answered]
    exact mediated_answered queryRBAC earlier error

/-! ### Proxies at the end of a route -/

theorem mediated_reverseProxy {proxy : Proxy} {steps : List ProxyMiddleware}
    {access : Access} {request : Request} {earlier : List (Event Proxy)}
    (keeps : ∀ step ∈ steps, ∀ request, (step request).method = request.method)
    (own : proxy.access request.method = access) (notTempo : proxy ≠ .tempo)
    (given : access.Granted earlier) :
    Mediated queryRBAC earlier (reverseProxy proxy steps request) := by
  have method : ∀ sent : Request,
      (steps.foldl (fun sent step => step sent) sent).method = sent.method := by
    induction steps with
    | nil =>
        intro sent
        rfl
    | cons step rest ih =>
        intro sent
        rw [List.foldl_cons,
          ih (fun other member => keeps other (List.mem_cons_of_mem _ member)),
          keeps step List.mem_cons_self]
  refine ⟨⟨?_, fun _ isTempo => absurd isTempo notTempo⟩, trivial⟩
  rw [method, own]
  exact given

theorem director_keeps (base : GoString) :
    ∀ step ∈ [setUpstream base, setPrefixHeader], ∀ request : Request,
      (step request).method = request.method := by
  intro step member request
  simp only [List.mem_cons, List.not_mem_nil, or_false] at member
  rcases member with rfl | rfl
  · rfl
  · exact setPrefixHeader_method request

theorem mediates_handle {text : GoString} {handler : Handler Proxy}
    (mediated : ∀ request earlier, granted earlier →
      Mediated queryRBAC earlier (handler request)) :
    Mediates queryRBAC granted (Router.handle text handler) := by
  intro route member request earlier _ given
  rw [Router.handle, List.mem_singleton] at member
  rw [member]
  exact mediated request earlier given

theorem mediates_method {method text : GoString} {handler : Handler Proxy}
    (mediated : ∀ request earlier, request.method = method → granted earlier →
      Mediated queryRBAC earlier (handler request)) :
    Mediates queryRBAC granted (Router.method method text handler) := by
  intro route member request earlier serves given
  rw [Router.method, List.mem_singleton] at member
  rw [member] at serves ⊢
  exact mediated request earlier (beq_iff_eq.mp serves).symm given

/-! ### The routers of the gateway -/

variable (config : Config) (env : Environment)

theorem mediated_proxyTo {proxy : Proxy} {base : GoString} {access : Access}
    (own : ∀ method, proxy.access method = access) (notTempo : proxy ≠ .tempo)
    (request : Request) (earlier : List (Event Proxy)) (given : access.Granted earlier) :
    Mediated queryRBAC earlier
      (reverseProxy proxy [setUpstream base, setPrefixHeader] request) :=
  mediated_reverseProxy (director_keeps base) (own request.method) notTempo given

private theorem metricsRest_transparent (own : List (Middleware Proxy))
    (transparent : ∀ middleware ∈ own, Transparent middleware) (start : GoString) :
    ∀ middleware ∈ [withTenantLabel config.metrics.tenantLabel,
      env.rateLimit.middleware] ++ own ++ [stripPrefix start],
      Transparent middleware := by
  intro middleware member
  simp only [List.mem_append, List.mem_cons, List.not_mem_nil, or_false] at member
  rcases member with ((rfl | rfl) | inOwn) | rfl
  · exact transparent_withTenantLabel _
  · exact transparent_filter _
  · exact transparent middleware inOwn
  · exact transparent_stripPrefix start

private theorem transparent_singleton {middleware : Middleware Proxy}
    (transparent : Transparent middleware) :
    ∀ other ∈ [middleware], Transparent other := by
  intro other member
  rw [List.mem_singleton] at member
  rw [member]
  exact transparent

private theorem metrics_readGroup (own : List (Middleware Proxy))
    (transparent : ∀ middleware ∈ own, Transparent middleware) (start : GoString)
    {router : Router Proxy} (mediates : Mediates queryRBAC Access.read.Granted router) :
    Mediates queryRBAC Unconditional
      (Metrics.strippedGroup (metricsReadMiddlewares config env ++ own) start router) :=
  mediates_readGroup (metricsRest_transparent config env own transparent start) mediates

private theorem metrics_writeGroup {router : Router Proxy}
    (mediates : Mediates queryRBAC Access.write.Granted router) :
    Mediates queryRBAC Unconditional
      (Metrics.strippedGroup
        [withMTLSTenantExtraction config.metrics.tenantHeader, env.rateLimit.middleware]
        Metrics.routePrefix router) := by
  change Mediates queryRBAC Unconditional
    (Router.group (withMTLSTenantExtraction config.metrics.tenantHeader ::
      [env.rateLimit.middleware, stripPrefix Metrics.routePrefix]) router)
  apply mediates_writeGroup _ mediates
  intro middleware member
  simp only [List.mem_cons, List.not_mem_nil, or_false] at member
  rcases member with rfl | rfl
  · exact transparent_filter _
  · exact transparent_stripPrefix _

private theorem metrics_enforcedGroup {router : Router Proxy}
    (mediates : Mediates queryRBAC Access.read.Granted router) :
    Mediates queryRBAC Unconditional
      (Metrics.strippedGroup (metricsReadMiddlewares config env ++ [enforceMetrics env])
        Metrics.routePrefix router) :=
  metrics_readGroup config env _ (transparent_singleton (transparent_filter _)) _ mediates

private theorem metricsReadRoutes_mediates (endpoint : BasePath) :
    Mediates queryRBAC Unconditional
      (Metrics.readRoutes
        (Metrics.configure (enforceAlertmanager config env) (metricsHandlerOptions config env))
        endpoint) := by
  have proxied : ∀ proxy : Proxy, (∀ method, proxy.access method = .read) →
      proxy ≠ .tempo → ∀ request earlier, Access.read.Granted earlier →
        Mediated queryRBAC earlier (Metrics.proxyTo proxy endpoint request) :=
    fun _ own notTempo => mediated_proxyTo own notTempo
  have query := proxied .metricsQuery (fun _ => rfl) (by decide)
  have read := proxied .metricsRead (fun _ => rfl) (by decide)
  have ui := proxied .metricsUI (fun _ => rfl) (by decide)
  unfold Metrics.readRoutes
  refine mediates_append (mediates_append (mediates_append (mediates_append
    (mediates_append (mediates_append ?_ ?_) ?_) ?_) ?_) ?_) ?_
  · exact metrics_enforcedGroup config env (mediates_handle query)
  · exact metrics_enforcedGroup config env (mediates_handle query)
  · exact metrics_enforcedGroup config env (mediates_handle read)
  · exact metrics_enforcedGroup config env (mediates_handle read)
  · exact metrics_enforcedGroup config env (mediates_handle read)
  · exact metrics_enforcedGroup config env (mediates_handle read)
  · exact metrics_enforcedGroup config env (mediates_mount ui)

private theorem metricsRulesRoutes_mediates :
    Mediates queryRBAC Unconditional
      (Metrics.rulesRoutes
        (Metrics.configure (enforceAlertmanager config env)
          (metricsHandlerOptions config env))) := by
  unfold Metrics.rulesRoutes
  apply mediates_append
  · apply metrics_enforcedGroup config env
    apply mediates_method
    intro request earlier _ given
    exact mediated_reverseProxy (by simp) rfl (by decide) given
  · apply metrics_writeGroup config env
    apply mediates_method
    intro request earlier _ given
    exact mediated_reverseProxy (by simp) rfl (by decide) given

private theorem metricsAlertmanagerRoutes_mediates (endpoint : BasePath) :
    Mediates queryRBAC Unconditional
      (Metrics.alertmanagerRoutes
        (Metrics.configure (enforceAlertmanager config env) (metricsHandlerOptions config env))
        endpoint) := by
  have routed : ∀ (filter : Filter) (method text : GoString),
      Mediates queryRBAC Unconditional
        (Metrics.strippedGroup (metricsReadMiddlewares config env ++ [filter.middleware])
          Metrics.alertmanagerPrefix
          (Router.method method text (Metrics.proxyTo .metricsAlertmanager endpoint))) := by
    intro filter method text
    apply metrics_readGroup config env _ (transparent_singleton (transparent_filter filter))
    apply mediates_method
    intro request earlier _ given
    exact mediated_proxyTo (fun _ => rfl) (by decide) request earlier given
  exact mediates_append (mediates_append (mediates_append (mediates_append
    (routed _ _ _) (routed _ _ _)) (routed _ _ _)) (routed _ _ _)) (routed _ _ _)

theorem metricsHandler_mediates :
    Mediates queryRBAC Unconditional (metricsHandler config env) := by
  unfold metricsHandler Metrics.newHandler
  refine mediates_append (mediates_append (mediates_append ?_ ?_) ?_) ?_
  · exact mediates_elim _ (metricsReadRoutes_mediates config env)
  · apply mediates_elim
    intro endpoint
    exact metrics_writeGroup config env (mediates_handle
      (mediated_proxyTo (fun _ => rfl) (by decide)))
  · apply mediates_elim
    intro endpoint
    exact metricsRulesRoutes_mediates config env
  · exact mediates_elim _ (metricsAlertmanagerRoutes_mediates config env)

theorem legacyMetricsHandler_mediates :
    Mediates queryRBAC Unconditional (legacyMetricsHandler config env) := by
  have grouped : ∀ {router : Router Proxy},
      Mediates queryRBAC Access.read.Granted router →
      Mediates queryRBAC Unconditional
        (Router.group (metricsReadMiddlewares config env ++ [enforceMetrics env]) router) := by
    intro router mediates
    apply mediates_readGroup _ mediates
    intro middleware member
    simp only [List.append_eq, List.nil_append, List.cons_append, List.mem_cons,
      List.not_mem_nil, or_false] at member
    rcases member with rfl | rfl | rfl
    · exact transparent_withTenantLabel _
    · exact transparent_filter _
    · exact transparent_filter _
  have proxied : ∀ request earlier, Access.read.Granted earlier →
      Mediated queryRBAC earlier
        (Metrics.legacyProxy config.metrics.endpoints.readEndpoint request) := by
    intro request earlier given
    unfold Metrics.legacyProxy
    cases config.metrics.endpoints.readEndpoint with
    | none => exact mediated_answered queryRBAC earlier _
    | some endpoint =>
        exact mediated_reverseProxy (by simp [setUpstream]) rfl (by decide) given
  refine mediates_append (mediates_append ?_ ?_) ?_
  · exact grouped (mediates_handle proxied)
  · exact grouped (mediates_handle proxied)
  · apply grouped
    apply mediates_handle
    intro request earlier _
    exact mediated_answered queryRBAC earlier _

theorem probesHandler_mediates :
    Mediates queryRBAC Unconditional (probesHandler config env) := by
  have grouped : ∀ {router : Router Proxy},
      Mediates queryRBAC Access.read.Granted router →
      Mediates queryRBAC Unconditional
        (Router.group (probesMiddlewares config env) router) :=
    fun mediates => mediates_readGroup (transparent_singleton (transparent_filter _)) mediates
  have routed : ∀ method, Mediates queryRBAC Access.read.Granted
      (Router.method method (ascii "/*")
        (Probes.proxyHandler env.numbers config.probes.options)) := by
    intro method
    apply mediates_method
    intro request earlier _ given
    unfold Probes.proxyHandler
    split
    · exact ⟨⟨given, fun _ isTempo => by cases isTempo⟩, trivial⟩
    · exact mediated_answered queryRBAC earlier _
  exact mediates_append (grouped (routed _))
    (grouped (mediates_append (mediates_append (routed _) (routed _)) (routed _)))

private theorem mediated_fanout (endpoints : List BasePath) (request : Request)
    (earlier : List (Event Proxy)) (given : Access.write.Granted earlier) :
    Mediated queryRBAC earlier (fanoutRequestToEndpoints endpoints request) := by
  unfold fanoutRequestToEndpoints
  split
  · exact mediated_answered queryRBAC earlier _
  · induction endpoints generalizing earlier with
    | nil => trivial
    | cons endpoint rest ih =>
        rw [List.map_cons]
        refine ⟨⟨given, fun _ isTempo => by cases isTempo⟩, ?_⟩
        have still : Access.write.Granted (earlier ++ [.forwarded .alertFanout
            { request with
              method := methodPost
              url := ⟨pathJoin (if endpoint.path = [] then [slash] else endpoint.path)
                alertsRoute, [], []⟩ }]) :=
          List.mem_append_left _ given
        by_cases more : rest.length = 0
        · rw [List.length_eq_zero_iff.mp more]
          trivial
        · exact ih _ still more

theorem alertsHandler_mediates :
    Mediates queryRBAC Unconditional (alertsHandler config env) := by
  change Mediates queryRBAC Unconditional
    (Router.group (withMTLSTenantExtraction config.alertmanager.tenantHeader ::
      ((if config.alertmanager.tenantHeader = [] then []
        else [alertTenantHeader config.alertmanager.tenantHeader config.tenantIDs]) ++
      (if config.alertmanager.accessorToken = [] then []
        else [accessorToken config.alertmanager.accessorToken]) ++
      [env.rateLimit.middleware])) _)
  apply mediates_writeGroup
  · intro middleware member
    simp only [List.mem_append, List.mem_singleton] at member
    rcases member with (inHeader | inToken) | rfl
    · split at inHeader
      · cases inHeader
      · exact transparent_singleton (transparent_alertTenantHeader _ _) _ inHeader
    · split at inToken
      · cases inToken
      · exact transparent_singleton (transparent_accessorToken _) _ inToken
    · exact transparent_filter _
  · apply mediates_method
    intro request earlier _ given
    exact mediated_fanout _ request earlier given

private theorem logs_readGroup (own : List (Middleware Proxy))
    (transparent : ∀ middleware ∈ own, Transparent middleware)
    {router : Router Proxy} (mediates : Mediates queryRBAC Access.read.Granted router) :
    Mediates queryRBAC Unconditional
      (Router.group ((logsConfiguration config env).readMiddlewares ++ own ++
        [stripPrefix Logs.routePrefix]) router) := by
  change Mediates queryRBAC Unconditional
    (Router.group (withTenantFromHeader config.logs.tenantHeader ::
      withTenantMiddlewares [env.pm.middlewares] ::
      ([withTenantLabel config.logs.tenantLabel, env.enforceLogs.middleware] ++ own ++
        [stripPrefix Logs.routePrefix])) router)
  apply mediates_readGroup _ mediates
  intro middleware member
  simp only [List.mem_append, List.mem_cons, List.not_mem_nil, or_false] at member
  rcases member with ((rfl | rfl) | inOwn) | rfl
  · exact transparent_withTenantLabel _
  · exact transparent_filter _
  · exact transparent middleware inOwn
  · exact transparent_stripPrefix _

/-- Reading through a proxy of the logs, for every method or for `GET`. -/
private theorem logs_readRoute {proxy : Proxy} (endpoint : BasePath) (text : GoString)
    (own : ∀ method, proxy.access method = .read) (notTempo : proxy ≠ .tempo) :
    Mediates queryRBAC Access.read.Granted
      (Router.handle text (Logs.proxyTo proxy endpoint)) :=
  mediates_handle (mediated_proxyTo own notTempo)

private theorem logs_getRoute {proxy : Proxy} (endpoint : BasePath) (text : GoString)
    (own : proxy.access methodGet = .read) (notTempo : proxy ≠ .tempo) :
    Mediates queryRBAC Access.read.Granted
      (Router.method methodGet text (Logs.proxyTo proxy endpoint)) := by
  apply mediates_method
  intro request earlier isGet given
  rw [← isGet] at own
  exact mediated_reverseProxy (director_keeps _) own notTempo given

private theorem logs_ruleWriteRoute (endpoint : BasePath) (method text : GoString)
    (notGet : method ≠ methodGet) :
    Mediates queryRBAC Access.write.Granted
      (Router.method method text (Logs.proxyTo .logsRules endpoint)) := by
  apply mediates_method
  intro request earlier isMethod given
  have own : Proxy.logsRules.access request.method = .write := by
    rw [isMethod]
    exact if_neg notGet
  exact mediated_reverseProxy (director_keeps _) own (by decide) given

private theorem logsReadRoutes_mediates (endpoint : BasePath) :
    Mediates queryRBAC Unconditional
      (Logs.readRoutes (logsConfiguration config env) endpoint) := by
  have routed : ∀ text, Mediates queryRBAC Access.read.Granted
      (Router.handle text (Logs.proxyTo .logsRead endpoint)) :=
    fun text => logs_readRoute endpoint text (fun _ => rfl) (by decide)
  apply logs_readGroup config env [] (by simp)
  repeat' apply mediates_append
  all_goals exact routed _

private theorem logsRulesReadRoutes_mediates (endpoint : BasePath) :
    Mediates queryRBAC Unconditional
      (Logs.rulesReadRoutes (logsConfiguration config env) endpoint) := by
  have rules : ∀ text, Mediates queryRBAC Access.read.Granted
      (Router.method methodGet text (Logs.proxyTo .logsRules endpoint)) :=
    fun text => logs_getRoute endpoint text (by decide) (by decide)
  have prometheus : ∀ text, Mediates queryRBAC Access.read.Granted
      (Router.method methodGet text (Logs.proxyTo .logsPrometheusRules endpoint)) :=
    fun text => logs_getRoute endpoint text (by decide) (by decide)
  apply logs_readGroup config env _ (transparent_singleton transparent_ruleNamespace)
  exact mediates_append (mediates_append (mediates_append (mediates_append
    (mediates_append (mediates_append (mediates_append (rules _) (rules _)) (rules _))
      (prometheus _)) (prometheus _)) (rules _)) (rules _)) (rules _)

private theorem logsRulesWriteRoutes_mediates (endpoint : BasePath) :
    Mediates queryRBAC Unconditional
      (Logs.rulesWriteRoutes (logsConfiguration config env) endpoint) := by
  have post : ∀ text, Mediates queryRBAC Access.write.Granted
      (Router.method methodPost text (Logs.proxyTo .logsRules endpoint)) :=
    fun text => logs_ruleWriteRoute endpoint methodPost text (by decide)
  have delete : ∀ text, Mediates queryRBAC Access.write.Granted
      (Router.method methodDelete text (Logs.proxyTo .logsRules endpoint)) :=
    fun text => logs_ruleWriteRoute endpoint methodDelete text (by decide)
  apply mediates_writeGroup
  · intro middleware member
    simp only [logsConfiguration, List.nil_append, List.append_eq, List.mem_cons,
      List.not_mem_nil, or_false] at member
    rcases member with rfl | rfl
    · exact transparent_ruleNamespace
    · exact transparent_filter _
  · exact mediates_append (mediates_append (mediates_append (mediates_append
      (mediates_append (post _) (delete _)) (delete _)) (post _)) (delete _)) (delete _)

theorem logsHandler_mediates :
    Mediates queryRBAC Unconditional (logsHandler config env) := by
  unfold logsHandler Logs.newHandler
  refine mediates_append (mediates_append (mediates_append ?_ ?_) ?_) ?_
  · exact mediates_elim _ (logsReadRoutes_mediates config env)
  · apply mediates_elim
    intro rules
    apply mediates_append (logsRulesReadRoutes_mediates config env rules)
    split
    · exact mediates_nil
    · exact logsRulesWriteRoutes_mediates config env rules
  · apply mediates_elim
    intro endpoint
    apply logs_readGroup config env [] (by simp)
    exact mediates_append (logs_readRoute endpoint _ (fun _ => rfl) (by decide))
      (logs_readRoute endpoint _ (fun _ => rfl) (by decide))
  · apply mediates_elim
    intro endpoint
    have written : ∀ text, Mediates queryRBAC Access.write.Granted
        (Router.handle text (Logs.proxyTo .logsWrite endpoint)) :=
      fun _ => mediates_handle (mediated_proxyTo (fun _ => rfl) (by decide))
    exact mediates_writeGroup (transparent_singleton (transparent_stripPrefix _))
      (mediates_append (written _) (written _))

/-! ### Traces and the route of Tempo -/

private theorem tracesReadRoutes_mediates (proxy : Handler Proxy)
    (proxied : ∀ request earlier, Access.read.Granted earlier →
      Mediated queryRBAC earlier (proxy request)) :
    Mediates queryRBAC Unconditional
      (Traces.readRoutes (Traces.configure (tracesHandlerOptions config env)) proxy) := by
  have routed : ∀ text, Mediates queryRBAC Access.read.Granted
      (Router.method methodGet text proxy) := by
    intro text
    apply mediates_method
    intro request earlier _ given
    exact proxied request earlier given
  change Mediates queryRBAC Unconditional
    (Router.group (withTenantFromHeader config.traces.tenantHeader ::
      withTenantMiddlewares [env.pm.middlewares] :: []) _)
  apply mediates_readGroup (by simp)
  repeat' apply mediates_append
  all_goals exact routed _

private theorem mediated_tracesRead (request : Request) (earlier : List (Event Proxy))
    (given : Access.read.Granted earlier) :
    Mediated queryRBAC earlier
      (Traces.proxyRead env.expandTemplatedUpstream config.traces.endpoints request) := by
  unfold Traces.proxyRead
  cases config.traces.endpoints.read with
  | some read =>
      exact mediated_reverseProxy (director_keeps _) rfl (by decide) given
  | none =>
      dsimp only
      unfold Traces.proxyReadTemplate
      split
      · exact mediated_reverseProxy (director_keeps _) rfl (by decide) given
      · exact mediated_answered queryRBAC earlier _

private theorem tracesRest_mediates :
    Mediates queryRBAC Unconditional
      ((if config.traces.endpoints.read.isSome ∨
          config.traces.endpoints.readTemplate ≠ [] then
        Traces.readRoutes (Traces.configure (tracesHandlerOptions config env))
          (Traces.proxyRead env.expandTemplatedUpstream config.traces.endpoints)
      else []) ++
      config.traces.endpoints.writeOTLPHttp.elim []
        (Traces.writeRoutes (Traces.configure (tracesHandlerOptions config env)))) := by
  apply mediates_append
  · exact mediates_ite _
      (tracesReadRoutes_mediates config env _ (mediated_tracesRead config env))
  · apply mediates_elim
    intro endpoint
    apply mediates_writeGroup (by simp)
    apply mediates_method
    intro request earlier _ given
    exact mediated_reverseProxy (director_keeps _) rfl (by decide) given

/-- A request for the Tempo route of the traces router. -/
def AsksTempo (config : Config) (request : Request) : Prop :=
  config.traces.endpoints.tempo.isSome = true ∧ request.method = methodGet ∧
    Traces.tempoRoute <+: request.routePath

private theorem tempoRoute_prefix (path : GoString) (params : Chi.Params)
    (matched : Chi.matchPattern (Chi.pattern (Traces.tempoRoute ++ Chi.star)) path =
      some params) : Traces.tempoRoute <+: path :=
  Chi.plain_prefix_of_match Traces.tempoRoute Chi.star path params (by decide) matched

theorem tracesHandler_mediated (request : Request) (earlier : List (Event Proxy))
    (elsewhere : ¬ AsksTempo config request) :
    Mediated queryRBAC earlier ((tracesHandler config env).serve request) := by
  rcases (tracesHandler config env).serve_cases request with
    ⟨route, member, params, serves, matched, served⟩ | ⟨error, answered⟩
  · rw [served]
    rcases List.mem_append.mp member with inRest | inTempo
    · exact tracesRest_mediates config env route inRest _ earlier serves trivial
    · cases configured : config.traces.endpoints.tempo with
      | none =>
          rw [configured] at inTempo
          cases inTempo
      | some tempo =>
          rw [configured] at inTempo
          simp only [Option.elim, Traces.tempoRoutes, Router.group, Router.method,
            List.map_cons, List.map_nil, List.mem_singleton] at inTempo
          rw [inTempo] at serves matched
          apply absurd _ elsewhere
          refine ⟨by rw [configured]; rfl, (beq_iff_eq.mp serves).symm, ?_⟩
          exact tempoRoute_prefix _ params matched
  · rw [answered]
    exact mediated_answered queryRBAC earlier error

private theorem rootRest_mediates :
    Mediates queryRBAC Unconditional
      (authnMounts env ++ alertmanagerMount config env ++ metricsMounts config env ++
        logsMount config env) := by
  have mounted : ∀ (base : GoString) {router : Router Proxy},
      Mediates queryRBAC Unconditional router →
      Mediates queryRBAC Unconditional (Router.mount base router.serve) :=
    fun _ _ mediates => mediates_mount (mediated_serve mediates)
  refine mediates_append (mediates_append (mediates_append ?_ ?_) ?_) ?_
  · intro route member
    obtain ⟨authn, -, inMount⟩ := List.mem_flatMap.mp member
    have answers : Mediates queryRBAC Unconditional
        (Router.mount authn.pattern fun request =>
          [.answered (env.patternHandler authn request)]) :=
      mediates_mount fun request earlier _ => mediated_answered queryRBAC earlier _
    exact answers route inMount
  · exact mediates_ite _ (mounted _ (alertsHandler_mediates config env))
  · apply mediates_ite
    apply mediates_append (mediates_append _ _)
    · exact mounted _ (metricsHandler_mediates config env)
    · exact mounted _ (legacyMetricsHandler_mediates config env)
    · exact mediates_ite _ (mounted _ (probesHandler_mediates config env))
  · exact mediates_ite _ (mounted _ (logsHandler_mediates config env))

end Mediation

/-! ### The whole gateway -/

section Gateway

variable (config : Config) (env : Environment)

def tracesBase : GoString := ascii "/api/traces/v1"

/-- The requests for the Tempo upstream: it is configured, the throttle admits
the request, and the method and the path fit. -/
def ReachesTempo (request : Request) : Prop :=
  env.throttled = none ∧ config.traces.endpoints.tempo.isSome = true ∧
    request.method = methodGet ∧
    tracesBase ++ Traces.tempoRoute <+: request.routingPath

/-- A route of the traces mount, with the path that the traces router sees. -/
private theorem tracesMount_served (own : Chi.Route (Handler Proxy))
    (member : own ∈ tracesMount config env) (request : Request) (params : Chi.Params)
    (matched : Chi.matchPattern own.pattern request.routePath = some params) :
    ∃ sent rest, chain [withAccessToken] own.endpoint (request.routed params) =
        (tracesHandler config env).serve sent ∧
      sent.method = request.method ∧ sent.routePath = slash :: rest ∧
      (request.routePath = tracesBase ++ slash :: rest ∨
        request.routePath = tracesBase ∧ rest = []) := by
  unfold tracesMount at member
  split at member
  · have unclosed : tracesBase.getLast? ≠ some slash := by decide
    obtain ⟨rest, next, shape⟩ := Chi.mount_match tracesBase _ (by decide) unclosed own
      member request.routePath params matched
    obtain ⟨last, -, rfl⟩ := (Chi.mem_mount tracesBase _ unclosed own).mp member
    obtain ⟨sent, served, method, -, path, -⟩ :=
      accessToken_mounted (tracesHandler config env).serve request params
    exact ⟨sent, rest, served, method, path.trans next, shape⟩
  · cases member

private theorem mediated_of_not_tempo (request : Request)
    (elsewhere : ¬ ReachesTempo config env request) :
    Mediated config.traces.queryRBAC [] (gateway config env request) := by
  rw [gateway_eq]
  unfold throttle
  cases admitted : env.throttled with
  | some error => exact mediated_answered _ [] error
  | none =>
      dsimp only
      rcases (rootRouter config env).serve_cases request.entered with
        ⟨route, member, params, serves, matched, served⟩ | ⟨error, answered⟩
      · rw [served]
        rcases mem_rootRouter config env route member with
          ⟨own, inMounts, rfl⟩ | rfl | rfl
        · rcases List.mem_append.mp inMounts with inRest | inTraces
          · exact mediates_group (transparent_singleton transparent_withAccessToken)
              (rootRest_mediates config env) _ (List.mem_map.mpr ⟨own, inRest, rfl⟩) _ []
              serves trivial
          obtain ⟨sent, rest, handled, method, path, shape⟩ :=
            tracesMount_served config env own inTraces request.entered params matched
          dsimp only
          rw [handled]
          apply tracesHandler_mediated
          rintro ⟨configured, isGet, fits⟩
          rw [path] at fits
          rw [method] at isGet
          apply elsewhere
          refine ⟨admitted, configured, isGet, ?_⟩
          rw [← request.entered_routePath]
          rcases shape with below | ⟨-, rfl⟩
          · rw [below]
            exact (List.prefix_append_right_inj tracesBase).mpr fits
          · exact absurd fits (by decide)
        · trivial
        · trivial
      · rw [answered]
        exact mediated_answered _ [] error

/-! ### A request that reaches Tempo -/

private theorem rootRest_clashes :
    (authnMounts env ++ alertmanagerMount config env ++ metricsMounts config env ++
      logsMount config env).all
        (fun route => Chi.clashes (tracesBase ++ Traces.tempoRoute) route.pattern) =
      true := by
  rw [List.all_append, List.all_append, List.all_append, Bool.and_eq_true,
    Bool.and_eq_true, Bool.and_eq_true]
  refine ⟨⟨⟨?_, ?_⟩, ?_⟩, ?_⟩
  · rw [List.all_eq_true]
    intro route member
    obtain ⟨authn, -, inMount⟩ := List.mem_flatMap.mp member
    have clash : ∀ handler : Handler Proxy,
        (Router.mount authn.pattern handler).all
          (fun route => Chi.clashes (tracesBase ++ Traces.tempoRoute) route.pattern) =
        true := by
      intro handler
      rw [Router.all_mount]
      cases authn <;> decide +kernel
    exact List.all_eq_true.mp (clash _) route inMount
  · unfold alertmanagerMount
    split
    · rw [Router.all_mount]
      decide +kernel
    · rfl
  · unfold metricsMounts
    split
    · split
      · simp only [List.all_append, Router.all_mount]
        decide +kernel
      · simp only [List.all_append, Router.all_mount]
        decide +kernel
    · rfl
  · unfold logsMount
    split
    · rw [Router.all_mount]
      decide +kernel
    · rfl

private theorem tracesRest_clashes (c : Traces.HandlerConfiguration)
    (proxy : Handler Proxy) (condition : Prop) [Decidable condition]
    (writeOTLPHttp : Option BasePath) :
    ((if condition then Traces.readRoutes c proxy else []) ++
      writeOTLPHttp.elim [] (Traces.writeRoutes c)).all
        (fun route => Chi.clashes Traces.tempoRoute route.pattern) = true := by
  rw [List.all_append, Bool.and_eq_true]
  constructor
  · split
    · simp only [Traces.readRoutes, List.all_append, Router.all_group, Router.all_method]
      decide +kernel
    · rfl
  · cases writeOTLPHttp with
    | none => rfl
    | some endpoint =>
        simp only [Option.elim, Traces.writeRoutes, Router.all_group, Router.all_method]
        decide +kernel

private theorem tempo_served (tempo : BasePath)
    (configured : config.traces.endpoints.tempo = some tempo) (request : Request)
    (asks : AsksTempo config request) :
    ∃ params, (tracesHandler config env).serve request =
      Traces.tempoProxyRead tempo (request.routed params) := by
  obtain ⟨-, isGet, tail, path⟩ := asks
  have inTempo : ∀ route : Chi.Route (Handler Proxy),
      route ∈ config.traces.endpoints.tempo.elim []
        (Traces.tempoRoutes (Traces.configure (tracesHandlerOptions config env))) ↔
      route = ⟨some methodGet, Chi.pattern (Traces.tempoRoute ++ Chi.star),
        Traces.tempoProxyRead tempo⟩ := by
    intro route
    rw [configured]
    exact List.mem_singleton
  have known : request.method ∈ Chi.methods := by
    rw [isGet]
    decide
  have matched : Chi.matchPattern (Chi.pattern (Traces.tempoRoute ++ Chi.star))
      request.routePath = some [(Chi.star, tail)] := by
    rw [Chi.pattern_star _ (by decide), Chi.matchPattern_literals]
    exact ⟨tail, path.symm, rfl⟩
  obtain ⟨chosen, member, values, -, fits, served⟩ :=
    (tracesHandler config env).serve_of_match request known _
      (List.mem_append_right _ ((inTempo _).mpr rfl)) (beq_iff_eq.mpr isGet.symm) _ matched
  rcases List.mem_append.mp member with inRest | isTempo
  · exact absurd inRest (not_mem_of_clash (tracesRest_clashes _ _ _ _) ⟨tail, path⟩ fits)
  · rw [(inTempo chosen).mp isTempo] at served
    exact ⟨values, served⟩

theorem tempo_trace (request : Request) (reaches : ReachesTempo config env request) :
    ∃ sent, gateway config env request = [.forwarded .tempo sent] := by
  obtain ⟨admitted, isSome, isGet, tail, path⟩ := reaches
  obtain ⟨tempo, configured⟩ := Option.isSome_iff_exists.mp isSome
  -- The part of the path below the mount point.
  have below : request.entered.routePath =
      tracesBase ++ slash :: (ascii "tempo/api" ++ tail) := by
    rw [request.entered_routePath, ← path]
    rfl
  have begins : tracesBase ++ Traces.tempoRoute <+: request.entered.routePath := by
    rw [request.entered_routePath]
    exact ⟨tail, path⟩
  have mounted : config.traces.mounted := Or.inr (Or.inr isSome)
  have inTraces : (⟨none, Chi.pattern (tracesBase ++ slash :: Chi.star),
      chain [withAccessToken] (mountHandler (tracesHandler config env).serve)⟩ :
        Chi.Route (Handler Proxy)) ∈ rootRouter config env := by
    apply List.mem_append_left
    apply List.mem_append_left
    apply List.mem_map.mpr
    refine ⟨⟨none, Chi.pattern (tracesBase ++ slash :: Chi.star),
      mountHandler (tracesHandler config env).serve⟩, ?_, rfl⟩
    apply List.mem_append_right
    rw [tracesMount, if_pos mounted]
    apply (Chi.mem_mount tracesBase _ (by decide) _).mpr
    exact ⟨slash :: Chi.star, by simp, rfl⟩
  have known : request.entered.method ∈ Chi.methods := by
    have same : request.entered.method = methodGet := isGet
    rw [same]
    decide
  have matched := Chi.matchPattern_mount tracesBase (ascii "tempo/api" ++ tail) (by decide)
  rw [← below] at matched
  obtain ⟨chosen, member, values, -, fits, served⟩ :=
    (rootRouter config env).serve_of_match request.entered known _ inTraces rfl _ matched
  rw [gateway_eq]
  unfold throttle
  rw [admitted]
  dsimp only
  rw [served]
  rcases mem_rootRouter config env chosen member with ⟨own, inMounts, rfl⟩ | rfl | rfl
  · have inMount : own ∈ tracesMount config env := by
      rcases List.mem_append.mp inMounts with inRest | inTraces
      · exact absurd inRest
          (not_mem_of_clash (rootRest_clashes config env) begins fits)
      · exact inTraces
    obtain ⟨sent, rest, handled, method, seen, shape⟩ :=
      tracesMount_served config env own inMount request.entered values fits
    have sameRest : rest = ascii "tempo/api" ++ tail := by
      rcases shape with whole | ⟨whole, -⟩
      · rw [below] at whole
        exact (List.cons.inj (List.append_cancel_left whole)).2.symm
      · rw [below] at whole
        exact absurd whole (by simp)
    have asks : AsksTempo config sent := by
      refine ⟨isSome, method.trans isGet, tail, ?_⟩
      rw [seen, sameRest]
      rfl
    obtain ⟨params, proxied⟩ := tempo_served config env tempo configured sent asks
    dsimp only
    rw [handled, proxied]
    exact ⟨_, rfl⟩
  · exact absurd fits (Chi.not_match_of_clashes _ _ _ _ rfl begins)
  · exact absurd fits (Chi.not_match_of_clashes _ _ _ _ rfl begins)

/-- Access is mediated in exactly those runs of the gateway that do not reach
the Tempo upstream. -/
theorem gateway_mediated_iff (request : Request) :
    Mediated config.traces.queryRBAC [] (gateway config env request) ↔
      ¬ ReachesTempo config env request := by
  constructor
  · intro mediated reaches
    obtain ⟨sent, trace⟩ := tempo_trace config env request reaches
    rw [trace] at mediated
    obtain ⟨⟨⟨header, -⟩, -⟩, -⟩ := mediated
    cases header
  · exact mediated_of_not_tempo config env request

end Gateway

/-- `GET /api/traces/v1/tempo/api/search` reaches Tempo before anything is known
of the caller, and its response is sent on unchanged. -/
theorem tempoSearch_not_mediated :
    gateway (installation false false true) (openEnvironment Metrics.bareMetrics)
        (getRequest (ascii "/api/traces/v1/tempo/api/search") [] []) =
      [.forwarded .tempo
        ((getRequest (ascii "/api/traces/v1/tempo/api/search") [] []).received.withRoute
          { routePath := ascii "/tempo/api/search"
            routeParams := [(Chi.star, ascii "/search")]
            urlParams := [(Chi.star, []), (Chi.star, ascii "/search")] })] ∧
    Proxy.tempo.modifyResponse = none ∧
    ¬ Mediated true [] (gateway (installation false false true)
      (openEnvironment Metrics.bareMetrics)
      (getRequest (ascii "/api/traces/v1/tempo/api/search") [] [])) := by
  have trace : gateway (installation false false true)
      (openEnvironment Metrics.bareMetrics)
      (getRequest (ascii "/api/traces/v1/tempo/api/search") [] []) =
        [.forwarded .tempo
          ((getRequest (ascii "/api/traces/v1/tempo/api/search") [] []).received.withRoute
            { routePath := ascii "/tempo/api/search"
              routeParams := [(Chi.star, ascii "/search")]
              urlParams := [(Chi.star, []), (Chi.star, ascii "/search")] })] := by
    decide +kernel
  refine ⟨trace, rfl, ?_⟩
  rw [trace]
  intro mediated
  obtain ⟨⟨⟨header, -⟩, -⟩, -⟩ := mediated
  cases header

example : Proxy.access .logsRules methodGet = .read ∧
    Proxy.access .logsRules methodPost = .write := by
  decide +kernel

end McoaGateway
