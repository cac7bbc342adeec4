/-
Probes through the wired gateway.

The proxy of the probes is used by the routes of their handler and by no other
route of the gateway.  A request that it sends has therefore passed the access
token, the tenant header, the provider of its tenants and the rate limits, and
is what the director made of the request behind them.
-/

import McoaGateway.Mediation
import McoaGateway.RateLimit.Http

namespace McoaGateway

open GoString JsonText

namespace Probes

/-! ### Handlers that do not use the proxy of the probes -/

def Spares (handler : Handler Proxy) : Prop :=
  ∀ request sent, Event.forwarded .probes sent ∉ handler request

/-- A middleware without a use of the proxy of its own. -/
def Relays (middleware : Middleware Proxy) : Prop :=
  ∀ next, Spares next → Spares (middleware next)

def SparesAll (router : Router Proxy) : Prop :=
  ∀ route ∈ router, Spares route.endpoint

theorem relays_of_transparent {middleware : Middleware Proxy}
    (transparent : Transparent middleware) : Relays middleware := by
  intro next spares request sent
  rcases transparent next request with ⟨passed, same, -⟩ | ⟨error, answered⟩
  · rw [same]
    exact spares passed sent
  · rw [answered]
    simp

theorem relays_tenantHeader (tenantHeader : GoString) :
    Relays (withTenantFromHeader tenantHeader) := by
  intro next spares request sent
  unfold withTenantFromHeader
  split
  · simp
  · simpa using spares _ sent

theorem relays_tenantMiddlewares (pm : ProviderManager) :
    Relays (withTenantMiddlewares [pm.middlewares]) := by
  intro next spares request sent
  cases named : request.context.tenant with
  | none => simp [withTenantMiddlewares, named, prometheusAPIError]
  | some tenant =>
      rw [withTenantMiddlewares_serve pm tenant next request named]
      cases pm.select tenant with
      | none => simp [prometheusAPIError]
      | some entry =>
          dsimp only [authenticate]
          split
          · simp
          · simpa using spares _ sent

theorem relays_mtls (tenantHeader : GoString) :
    Relays (withMTLSTenantExtraction tenantHeader) := by
  intro next spares request sent
  unfold withMTLSTenantExtraction
  split
  · simp [prometheusAPIError]
  · simp [prometheusAPIError]
  · split
    · simp [prometheusAPIError]
    · simpa using spares _ sent

theorem relays_filter (filter : Filter) : Relays filter.middleware :=
  relays_of_transparent (transparent_filter filter)

theorem relays_stripPrefix (start : GoString) : Relays (stripPrefix start) :=
  relays_of_transparent (transparent_stripPrefix start)

theorem relays_tenantLabel (tenantLabel : TenantLabel) : Relays (withTenantLabel tenantLabel) :=
  relays_of_transparent (transparent_withTenantLabel tenantLabel)

theorem relays_enforceMetrics (env : Environment) : Relays (enforceMetrics env) :=
  relays_filter _

theorem relays_ruleNamespace : Relays Logs.withEnforceTenantAsRuleNamespace :=
  relays_of_transparent transparent_ruleNamespace

theorem Spares.chain {handler : Handler Proxy} (spares : Spares handler)
    (middlewares : List (Middleware Proxy))
    (relays : ∀ middleware ∈ middlewares, Relays middleware) :
    Spares (McoaGateway.chain middlewares handler) := by
  induction middlewares with
  | nil => exact spares
  | cons middleware rest ih =>
      have inner := ih fun other member => relays other (List.mem_cons_of_mem _ member)
      exact relays middleware List.mem_cons_self _ inner

theorem spares_answered (respond : Request → HttpError) :
    Spares fun request => [.answered (respond request)] := by
  intro request sent
  simp

theorem spares_reverseProxy {proxy : Proxy} (other : proxy ≠ .probes)
    (steps : List ProxyMiddleware) : Spares (reverseProxy proxy steps) := by
  intro request sent
  simp [reverseProxy, other.symm]

/-! ### Routers -/

theorem sparesAll_append {first second : Router Proxy} :
    SparesAll (first ++ second) ↔ SparesAll first ∧ SparesAll second := by
  simp only [SparesAll, List.mem_append, or_imp, forall_and]

theorem sparesAll_nil : SparesAll [] := by
  simp [SparesAll]

theorem sparesAll_elim {Endpoint : Type} (endpoint : Option Endpoint)
    {routes : Endpoint → Router Proxy} (each : ∀ value, SparesAll (routes value)) :
    SparesAll (endpoint.elim [] routes) := by
  cases endpoint with
  | none => exact sparesAll_nil
  | some value => exact each value

theorem sparesAll_ite (condition : Prop) [Decidable condition] {router : Router Proxy}
    (spares : SparesAll router) : SparesAll (if condition then router else []) := by
  split
  · exact spares
  · exact sparesAll_nil

theorem sparesAll_handle {text : GoString} {handler : Handler Proxy} :
    SparesAll (Router.handle text handler) ↔ Spares handler := by
  simp [SparesAll, Router.handle]

theorem sparesAll_method {method text : GoString} {handler : Handler Proxy} :
    SparesAll (Router.method method text handler) ↔ Spares handler := by
  simp [SparesAll, Router.method]

theorem sparesAll_group {middlewares : List (Middleware Proxy)} {router : Router Proxy}
    (relays : ∀ middleware ∈ middlewares, Relays middleware) (spares : SparesAll router) :
    SparesAll (Router.group middlewares router) := by
  intro route member
  obtain ⟨own, inRouter, rfl⟩ := List.mem_map.mp member
  exact (spares own inRouter).chain middlewares relays

theorem sparesAll_mount {base : GoString} {handler : Handler Proxy} (spares : Spares handler) :
    SparesAll (Router.mount base handler) := by
  intro route member request sent
  rw [Router.endpoint_of_mem_mount member]
  exact spares _ sent

theorem SparesAll.serve {router : Router Proxy} (spares : SparesAll router) :
    Spares router.serve := by
  intro request sent
  rcases router.serve_cases request with ⟨route, member, params, -, -, served⟩ | ⟨error, answered⟩
  · rw [served]
    exact spares route member _ sent
  · rw [answered]
    simp

/-! ### The other routers of the gateway -/

section Routers

variable (config : Config) (env : Environment)

private theorem relays_metricsRead (own : List (Middleware Proxy))
    (relays : ∀ middleware ∈ own, Relays middleware) :
    ∀ middleware ∈ metricsReadMiddlewares config env ++ own, Relays middleware := by
  simp only [metricsReadMiddlewares, List.cons_append, List.nil_append, List.forall_mem_cons]
  exact ⟨relays_tenantHeader _, relays_tenantMiddlewares _, relays_tenantLabel _,
    relays_filter _, relays⟩

private theorem metricsGroup_spares (own : List (Middleware Proxy))
    (relays : ∀ middleware ∈ own, Relays middleware) (start : GoString) {router : Router Proxy}
    (spares : SparesAll router) :
    SparesAll (Metrics.strippedGroup (metricsReadMiddlewares config env ++ own) start router) := by
  apply sparesAll_group _ spares
  rw [List.append_assoc]
  apply relays_metricsRead
  simp only [List.mem_append, or_imp, forall_and, List.mem_singleton, forall_eq]
  exact ⟨relays, relays_stripPrefix start⟩

private theorem metricsWrite_spares {router : Router Proxy} (spares : SparesAll router) :
    SparesAll (Metrics.strippedGroup
      [withMTLSTenantExtraction config.metrics.tenantHeader, env.rateLimit.middleware]
      Metrics.routePrefix router) := by
  apply sparesAll_group _ spares
  simp only [List.cons_append, List.nil_append, List.forall_mem_cons]
  exact ⟨relays_mtls _, relays_filter _, relays_stripPrefix _, by simp⟩

theorem metricsHandler_spares : SparesAll (metricsHandler config env) := by
  have enforced {router : Router Proxy} (spares : SparesAll router) :
      SparesAll (Metrics.strippedGroup (metricsReadMiddlewares config env ++ [enforceMetrics env])
        Metrics.routePrefix router) := by
    apply metricsGroup_spares config env _ _ _ spares
    simpa using relays_enforceMetrics env
  have checked (filter : Filter) {router : Router Proxy} (spares : SparesAll router) :
      SparesAll (Metrics.strippedGroup (metricsReadMiddlewares config env ++ [filter.middleware])
        Metrics.alertmanagerPrefix router) := by
    apply metricsGroup_spares config env _ _ _ spares
    simpa using relays_filter filter
  have proxied (proxy : Proxy) (other : proxy ≠ .probes) (endpoint : BasePath) :
      Spares (Metrics.proxyTo proxy endpoint) := spares_reverseProxy other _
  unfold metricsHandler Metrics.newHandler
  simp only [sparesAll_append]
  refine ⟨⟨⟨?_, ?_⟩, ?_⟩, ?_⟩
  · apply sparesAll_elim
    intro endpoint
    have query := proxied .metricsQuery (by decide) endpoint
    have read := proxied .metricsRead (by decide) endpoint
    have ui := proxied .metricsUI (by decide) endpoint
    unfold Metrics.readRoutes
    simp only [sparesAll_append]
    exact ⟨⟨⟨⟨⟨⟨enforced (sparesAll_handle.mpr query), enforced (sparesAll_handle.mpr query)⟩,
      enforced (sparesAll_handle.mpr read)⟩, enforced (sparesAll_handle.mpr read)⟩,
      enforced (sparesAll_handle.mpr read)⟩, enforced (sparesAll_handle.mpr read)⟩,
      enforced (sparesAll_mount ui)⟩
  · apply sparesAll_elim
    intro endpoint
    exact metricsWrite_spares config env (sparesAll_handle.mpr (proxied _ (by decide) endpoint))
  · apply sparesAll_elim
    intro endpoint
    unfold Metrics.rulesRoutes
    exact sparesAll_append.mpr ⟨enforced (sparesAll_method.mpr (spares_reverseProxy (by decide) _)),
      metricsWrite_spares config env (sparesAll_method.mpr (spares_reverseProxy (by decide) _))⟩
  · apply sparesAll_elim
    intro endpoint
    have routed (filter : Filter) (method text : GoString) :
        SparesAll (Metrics.strippedGroup (metricsReadMiddlewares config env ++ [filter.middleware])
          Metrics.alertmanagerPrefix
          (Router.method method text (Metrics.proxyTo .metricsAlertmanager endpoint))) :=
      checked filter (sparesAll_method.mpr (proxied _ (by decide) endpoint))
    unfold Metrics.alertmanagerRoutes
    simp only [sparesAll_append]
    exact ⟨⟨⟨⟨routed _ _ _, routed _ _ _⟩, routed _ _ _⟩, routed _ _ _⟩, routed _ _ _⟩

theorem legacyMetricsHandler_spares : SparesAll (legacyMetricsHandler config env) := by
  have enforced {router : Router Proxy} (spares : SparesAll router) :
      SparesAll (Router.group (metricsReadMiddlewares config env ++ [enforceMetrics env])
        router) := by
    apply sparesAll_group _ spares
    apply relays_metricsRead
    simpa using relays_enforceMetrics env
  have proxied : Spares (Metrics.legacyProxy config.metrics.endpoints.readEndpoint) := by
    intro request sent
    unfold Metrics.legacyProxy
    cases config.metrics.endpoints.readEndpoint with
    | none => simp
    | some endpoint => exact spares_reverseProxy (by decide) _ request sent
  refine sparesAll_append.mpr ⟨sparesAll_append.mpr ⟨?_, ?_⟩, ?_⟩
  · exact enforced (sparesAll_handle.mpr proxied)
  · exact enforced (sparesAll_handle.mpr proxied)
  · exact enforced (sparesAll_handle.mpr (spares_answered _))

theorem alertsHandler_spares : SparesAll (alertsHandler config env) := by
  apply sparesAll_group
  · intro middleware member
    simp only [alertsWriteMiddlewares, List.mem_append, List.mem_singleton] at member
    rcases member with ((rfl | inHeader) | inToken) | rfl
    · exact relays_mtls _
    · split at inHeader
      · cases inHeader
      · rw [List.mem_singleton.mp inHeader]
        exact relays_of_transparent (transparent_alertTenantHeader _ _)
    · split at inToken
      · cases inToken
      · rw [List.mem_singleton.mp inToken]
        exact relays_of_transparent (transparent_accessorToken _)
    · exact relays_filter _
  · apply sparesAll_method.mpr
    intro request sent
    unfold fanoutRequestToEndpoints
    split
    · simp
    · simp

theorem logsHandler_spares : SparesAll (logsHandler config env) := by
  have proxied (proxy : Proxy) (other : proxy ≠ .probes) (endpoint : BasePath) :
      Spares (Logs.proxyTo proxy endpoint) := spares_reverseProxy other _
  have reading (own : List (Middleware Proxy)) (relays : ∀ middleware ∈ own, Relays middleware)
      {router : Router Proxy} (spares : SparesAll router) :
      SparesAll (Router.group ((logsConfiguration config env).readMiddlewares ++ own ++
        [stripPrefix Logs.routePrefix]) router) := by
    apply sparesAll_group _ spares
    simp only [logsConfiguration, List.cons_append, List.nil_append, List.forall_mem_cons,
      List.mem_append, or_imp, forall_and, List.mem_singleton, forall_eq]
    exact ⟨relays_tenantHeader _, relays_tenantMiddlewares _, relays_tenantLabel _,
      relays_filter _, relays, relays_stripPrefix _⟩
  unfold logsHandler Logs.newHandler
  simp only [sparesAll_append]
  refine ⟨⟨⟨?_, ?_⟩, ?_⟩, ?_⟩
  · apply sparesAll_elim
    intro endpoint
    apply reading [] (by simp)
    simp only [sparesAll_append, sparesAll_handle]
    simp [proxied .logsRead (by decide) endpoint]
  · apply sparesAll_elim
    intro endpoint
    apply sparesAll_append.mpr
    constructor
    · apply reading _ (by simpa [logsConfiguration] using relays_ruleNamespace)
      simp only [sparesAll_append, sparesAll_method]
      simp [proxied .logsRules (by decide) endpoint,
        proxied .logsPrometheusRules (by decide) endpoint]
    · split
      · exact sparesAll_nil
      · apply sparesAll_group
        · simp only [logsConfiguration, List.cons_append, List.nil_append, List.forall_mem_cons]
          exact ⟨relays_mtls _, relays_ruleNamespace, relays_filter _, by simp⟩
        · simp only [sparesAll_append, sparesAll_method]
          simp [proxied .logsRules (by decide) endpoint]
  · apply sparesAll_elim
    intro endpoint
    apply reading [] (by simp)
    simp only [sparesAll_append, sparesAll_handle]
    simp [proxied .logsTail (by decide) endpoint]
  · apply sparesAll_elim
    intro endpoint
    apply sparesAll_group
    · simp only [logsConfiguration, List.cons_append, List.nil_append, List.forall_mem_cons]
      exact ⟨relays_mtls _, relays_stripPrefix _, by simp⟩
    · simp only [sparesAll_append, sparesAll_handle]
      simp [proxied .logsWrite (by decide) endpoint]

theorem tracesHandler_spares : SparesAll (tracesHandler config env) := by
  have read : Spares (Traces.proxyRead env.expandTemplatedUpstream config.traces.endpoints) := by
    intro request sent
    unfold Traces.proxyRead
    cases config.traces.endpoints.read with
    | some endpoint => exact spares_reverseProxy (by decide) _ request sent
    | none =>
        dsimp only [Traces.proxyReadTemplate]
        split
        · exact spares_reverseProxy (by decide) _ request sent
        · simp
  unfold tracesHandler Traces.newV2Handler
  refine sparesAll_append.mpr ⟨sparesAll_append.mpr ⟨?_, ?_⟩, ?_⟩
  · apply sparesAll_ite
    apply sparesAll_group
    · change ∀ middleware ∈ [withTenantFromHeader config.traces.tenantHeader,
        withTenantMiddlewares [env.pm.middlewares]], Relays middleware
      simp only [List.forall_mem_cons]
      exact ⟨relays_tenantHeader _, relays_tenantMiddlewares _, by simp⟩
    · simp only [sparesAll_append, sparesAll_method]
      simp [read]
  · apply sparesAll_elim
    intro endpoint
    apply sparesAll_group
    · change ∀ middleware ∈ [withMTLSTenantExtraction config.traces.tenantHeader],
        Relays middleware
      simpa using relays_mtls _
    · exact sparesAll_method.mpr (spares_reverseProxy (by decide) _)
  · apply sparesAll_elim
    intro endpoint
    apply sparesAll_group
    · change ∀ middleware ∈ ([] : List (Middleware Proxy)), Relays middleware
      simp
    · exact sparesAll_method.mpr (spares_reverseProxy (by decide) _)

/-- A mount of the root router is that of the probes or does not use their proxy. -/
theorem apiMounts_cases (own : Chi.Route (Handler Proxy)) (member : own ∈ apiMounts config env) :
    own.endpoint = mountHandler (probesHandler config env).serve ∨ Spares own.endpoint := by
  have elsewhere {base : GoString} {router : Router Proxy} {condition : Prop}
      [Decidable condition] (spares : SparesAll router)
      (inMount : own ∈ if condition then Router.mount base router.serve else []) :
      Spares own.endpoint :=
    sparesAll_ite condition (sparesAll_mount spares.serve) own inMount
  unfold apiMounts at member
  simp only [List.mem_append] at member
  rcases member with (((inAuthn | inAlerts) | inMetrics) | inLogs) | inTraces
  · obtain ⟨route, -, inMount⟩ := List.mem_flatMap.mp inAuthn
    exact Or.inr (sparesAll_mount (spares_answered (env.patternHandler route)) own inMount)
  · exact Or.inr (elsewhere (alertsHandler_spares config env) inAlerts)
  · unfold metricsMounts at inMetrics
    split at inMetrics
    · simp only [List.mem_append] at inMetrics
      rcases inMetrics with (inLegacy | inProbes) | inMount
      · exact Or.inr (sparesAll_mount (legacyMetricsHandler_spares config env).serve own inLegacy)
      · split at inProbes
        · exact Or.inl (Router.endpoint_of_mem_mount inProbes)
        · cases inProbes
      · exact Or.inr (sparesAll_mount (metricsHandler_spares config env).serve own inMount)
    · cases inMetrics
  · exact Or.inr (elsewhere (logsHandler_spares config env) inLogs)
  · exact Or.inr (elsewhere (tracesHandler_spares config env) inTraces)

end Routers

/-! ### From the gateway to the director -/

theorem probesHandler_endpoint (config : Config) (env : Environment)
    (route : Chi.Route (Handler Proxy)) (member : route ∈ probesHandler config env) :
    route.endpoint = chain (probesMiddlewares config env)
      (proxyHandler env.numbers config.probes.options) := by
  simp only [probesHandler, newHandler, Router.group, Router.method, List.map_append,
    List.map_cons, List.map_nil, List.mem_append, List.mem_singleton] at member
  rcases member with rfl | (rfl | rfl) | rfl <;> rfl

/-- A request as the handler of the probes gets it. -/
structure Reaches (request received : Request) : Prop where
  method : received.method = request.method
  url : received.url = request.url
  body : received.body = request.body
  contentLength : received.contentLength = request.contentLength
  -- A forwarded access token may have been made the authorization.
  header : received.header = request.header ∨
    received.header = request.header.set (ascii "Authorization")
      (ascii "Bearer " ++ request.header.get (ascii "X-Forwarded-Access-Token"))

section Reaches

variable {numbers : Numbers} {options : HandlerOptions} {request received : Request}

theorem Reaches.labels_iff (reaches : Reaches request received)
    (payload : List (GoString × Json)) :
    Labels numbers options received payload ↔ Labels numbers options request payload := by
  unfold Labels
  rw [reaches.method, reaches.contentLength, reaches.body]

theorem Reaches.panics_iff (reaches : Reaches request received) :
    Panics numbers options received ↔ Panics numbers options request := by
  unfold Panics
  rw [reaches.method, reaches.contentLength, reaches.body]

theorem Reaches.directed {tenant : GoString} {sent : Request} (reaches : Reaches request received)
    (directed : Directed numbers options tenant received sent) :
    Directed numbers options tenant request sent where
  method := directed.method.trans reaches.method
  url := by rw [directed.url, reaches.url]
  tenantHeader := by
    simpa only [reaches.labels_iff] using directed.tenantHeader
  rewritten := by
    simpa only [reaches.labels_iff] using directed.rewritten
  unchanged := by
    simpa only [reaches.labels_iff, reaches.body, reaches.contentLength] using directed.unchanged

end Reaches

theorem probesHandler_reached (config : Config) (env : Environment) (request sent : Request)
    (forwarded : Event.forwarded .probes sent ∈ gateway config env request) :
    ∃ received, Reaches request received ∧
      Event.forwarded .probes sent ∈ chain (probesMiddlewares config env)
        (proxyHandler env.numbers config.probes.options) received := by
  have unused (error : HttpError) :
      Event.forwarded .probes sent ∉ [(.answered error : Event Proxy)] := by simp
  rw [gateway_eq] at forwarded
  unfold throttle at forwarded
  split at forwarded
  · exact (unused _ forwarded).elim
  rcases (rootRouter config env).serve_cases request.entered with
    ⟨route, member, params, -, -, served⟩ | ⟨error, answered⟩
  · rw [served] at forwarded
    rcases mem_rootRouter config env route member with ⟨own, inMounts, rfl⟩ | rfl | rfl
    · rcases apiMounts_cases config env own inMounts with probes | spares
      · dsimp only at forwarded
        rw [probes] at forwarded
        obtain ⟨received, handled, reaches⟩ :
            ∃ received, chain [withAccessToken] (mountHandler (probesHandler config env).serve)
                (request.entered.routed params) = (probesHandler config env).serve received ∧
              Reaches request received := by
          simp only [chain_cons, chain_nil, withAccessToken]
          split
          · exact ⟨_, rfl, rfl, rfl, rfl, rfl, Or.inr rfl⟩
          · exact ⟨_, rfl, rfl, rfl, rfl, rfl, Or.inl rfl⟩
        rw [handled] at forwarded
        rcases (probesHandler config env).serve_cases received with
          ⟨route, inRouter, params, -, -, served⟩ | ⟨error, answered⟩
        · rw [served] at forwarded
          refine ⟨received.routed params,
            ⟨reaches.method, reaches.url, reaches.body, reaches.contentLength, reaches.header⟩, ?_⟩
          rw [← probesHandler_endpoint config env route inRouter]
          exact forwarded
        · rw [answered] at forwarded
          exact (unused _ forwarded).elim
      · have relays : ∀ middleware ∈ [(withAccessToken : Middleware Proxy)], Relays middleware := by
          simpa using relays_of_transparent transparent_withAccessToken
        exact (spares.chain _ relays _ sent forwarded).elim
    · cases forwarded
    · cases forwarded
  · rw [answered] at forwarded
    exact (unused _ forwarded).elim

theorem validUtf8_join (names : List GoString) (admissible : AdmissibleTenants names) :
    ValidUtf8 (join (byte '|') names) := by
  apply ValidUtf8.ascii
  intro b member
  rcases mem_join _ _ _ member with rfl | ⟨name, isName, inName⟩
  · decide
  · have plain := admissible.alphabet name isName b inName
    simp only [isTenantNameByte, Bool.or_eq_true, Bool.and_eq_true, decide_eq_true_eq,
      UInt8.le_iff_toNat_le] at plain
    have codes : (byte 'z').toNat = 0x7A ∧ (byte 'Z').toNat = 0x5A ∧ (byte '9').toNat = 0x39 := by
      decide
    rcases plain with (((lower | upper) | digit) | rfl) | rfl
    · omega
    · omega
    · omega
    · decide
    · decide

def probesConfig : Config :=
  { installation true false false with probes := ⟨true, ascii "X-Scope-OrgID", id⟩ }

/-- A limiter of the tenant that has room for every probe. -/
def probesEnvironment : Environment :=
  { openEnvironment Metrics.bareMetrics with
    rateLimit := RateLimit.rateLimitFilter (fun _ store => (.admitted, store))
      (RateLimit.middlewaresOf .inMemory [⟨ascii "a", fun _ => true, ascii ".*", 10, 1000, false⟩])
      () }

def probeRequest : Request :=
  { getRequest (ascii "/api/metrics/v1/probes/probes") [] [] with
    method := methodPost
    body := ascii "\x7b\x7d"
    contentLength := 2 }

def probeSent : Request :=
  { probeRequest with
    header := (probeRequest.header.set (ascii "X-Scope-OrgID") (ascii "a")).set
      (ascii "Content-Length") (ascii "25")
    body := ascii "\x7b\"labels\":\x7b\"tenant\":\"a\"\x7d\x7d"
    contentLength := 25
    context :=
      { Context.background with
        tenant := some (ascii "a")
        subject := some (ascii "user")
        groups := some []
        route := some ⟨ascii "/probes", [(ascii "*", ascii "probes")],
          [(ascii "*", []), (ascii "*", ascii "probes")]⟩ } }

end Probes

end McoaGateway
