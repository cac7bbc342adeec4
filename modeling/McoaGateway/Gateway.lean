/-
The wired gateway (`main.go`), with the router of alerts (`api/alerts/v1/http.go`).

`main` mounts one router for each configured kind of upstream and gives each of
them its middlewares.  The filters whose verdict does not matter for the wiring
are parameters, and so are the identity providers.
-/

import McoaGateway.Authorization.ReadChain
import McoaGateway.Logs.Handler
import McoaGateway.Metrics.Handler
import McoaGateway.Metrics.LabelsEnforcer
import McoaGateway.Metrics.Silences
import McoaGateway.Probes.Handler
import McoaGateway.Traces.Handler

namespace McoaGateway

open GoString

/-! ### Configuration -/

structure MetricsConfig where
  endpoints : Metrics.Endpoints
  tenantHeader : GoString
  tenantLabel : TenantLabel

def MetricsConfig.enabled (metrics : MetricsConfig) : Bool :=
  metrics.endpoints.readEndpoint.isSome || metrics.endpoints.writeEndpoint.isSome ||
    metrics.endpoints.rulesEndpoint.isSome ||
    metrics.endpoints.alertmanagerEndpoint.isSome

structure ProbesConfig where
  enabled : Bool
  tenantHeader : GoString
  -- The director of `httputil.NewSingleHostReverseProxy` for the endpoint.
  rewriteRequestURL : Url → Url

structure LogsConfig where
  endpoints : Logs.Endpoints
  rulesReadOnly : Bool
  tenantHeader : GoString
  tenantLabel : TenantLabel

def LogsConfig.enabled (logs : LogsConfig) : Bool :=
  logs.endpoints.read.isSome || logs.endpoints.tail.isSome ||
    logs.endpoints.write.isSome || logs.endpoints.rules.isSome

structure TracesConfig where
  endpoints : Traces.Endpoints
  tenantHeader : GoString
  queryRBAC : Bool

/-- There is something to read; an endpoint for writing alone mounts no
router. -/
def TracesConfig.mounted (traces : TracesConfig) : Prop :=
  traces.endpoints.read.isSome = true ∨ traces.endpoints.readTemplate ≠ [] ∨
    traces.endpoints.tempo.isSome = true

instance (traces : TracesConfig) : Decidable traces.mounted :=
  inferInstanceAs (Decidable (_ ∨ _ ∨ _))

structure AlertmanagerConfig where
  endpoints : List BasePath
  tenantHeader : GoString
  accessorToken : GoString

def AlertmanagerConfig.isEnabled (alertmanager : AlertmanagerConfig) : Bool :=
  0 < alertmanager.endpoints.length

structure Config where
  metrics : MetricsConfig
  probes : ProbesConfig
  logs : LogsConfig
  traces : TracesConfig
  alertmanager : AlertmanagerConfig
  -- The tenants that have an ID of their own for the Alertmanager.
  tenantIDs : List (GoString × GoString)

/-- The login routes, which a provider of their kind mounts. -/
inductive AuthnRoute where
  | oidc
  | openshift
deriving DecidableEq, Repr

def AuthnRoute.pattern : AuthnRoute → GoString
  | .oidc => ascii "/oidc/{tenant}"
  | .openshift => ascii "/openshift/{tenant}"

/-- What the wiring uses of the rest of the gateway, at the time of a
request. -/
structure Environment where
  pm : ProviderManager
  authnRoutes : List AuthnRoute
  patternHandler : AuthnRoute → Request → HttpError
  promql : PromQL
  unicode : Unicode
  -- The answer of the throttle, when it does not admit the request.
  throttled : Option HttpError
  rateLimit : Filter
  enforceLogs : Filter
  enforceRuleLabels : Filter
  -- What the checks before the Alertmanager use.
  regexp : RegexpEngine
  SilenceFields : Type
  silenceCodec : Metrics.SilenceCodec SilenceFields
  getSilenceByID : GoString → Metrics.SilenceLookup
  -- The numbers in the bodies of probes.
  numbers : JsonText.Numbers
  expandTemplatedUpstream : Traces.ExpandTemplatedUpstream

/-! ### Alerts -/

/-- The middleware of the option `WithTenantHeader`. -/
def alertTenantHeader (header : GoString) (tenantIDs : List (GoString × GoString)) :
    Middleware Proxy :=
  fun next request =>
    match request.context.tenant with
    | none => [.answered ⟨.badRequest, ascii "tenant not found"⟩]
    | some tenant =>
        if tenant = [] then [.answered ⟨.badRequest, ascii "tenant not found"⟩]
        else
          let tenantID := (List.lookup tenant tenantIDs).getD []
          let sent := if tenantID ≠ [] then tenantID else tenant
          next { request with header := request.header.set header sent }

/-- The middleware of the option `WithAccessorToken`. -/
def accessorToken (token : GoString) : Middleware Proxy :=
  fun next request =>
    next { request with
      header := request.header.set (ascii "Authorization") (ascii "Bearer " ++ token) }

def alertsRoute : GoString := ascii "/api/v2/alerts"

def fanoutRequestToEndpoints (endpoints : List BasePath) : Handler Proxy :=
  fun request =>
    if endpoints.length = 0 then
      [.answered ⟨.badRequest, ascii "fanout endpoints not loaded"⟩]
    else
      endpoints.map fun endpoint =>
        let base := if endpoint.path = [] then [slash] else endpoint.path
        .forwarded .alertFanout
          { request with
            method := methodPost
            url := ⟨pathJoin base alertsRoute, [], []⟩ }

def alertsWriteMiddlewares (config : Config) (env : Environment) :
    List (Middleware Proxy) :=
  let alertmanager := config.alertmanager
  [withMTLSTenantExtraction alertmanager.tenantHeader] ++
    (if alertmanager.tenantHeader = [] then []
      else [alertTenantHeader alertmanager.tenantHeader config.tenantIDs]) ++
    (if alertmanager.accessorToken = [] then []
      else [accessorToken alertmanager.accessorToken]) ++
    [env.rateLimit.middleware]

def alertsHandler (config : Config) (env : Environment) : Router Proxy :=
  Router.group (alertsWriteMiddlewares config env)
    (Router.method methodPost alertsRoute
      (fanoutRequestToEndpoints config.alertmanager.endpoints))

/-! ### Metrics and probes -/

def enforceMetrics (env : Environment) : Middleware Proxy :=
  Metrics.withEnforceAuthorizationLabels env.promql env.unicode

def metricsReadMiddlewares (config : Config) (env : Environment) :
    List (Middleware Proxy) :=
  [withTenantFromHeader config.metrics.tenantHeader,
    withTenantMiddlewares [env.pm.middlewares],
    withTenantLabel config.metrics.tenantLabel,
    env.rateLimit.middleware]

def metricsHandlerOptions (config : Config) (env : Environment) :
    List Metrics.HandlerOption :=
  [Metrics.withWriteMiddleware (withMTLSTenantExtraction config.metrics.tenantHeader),
    Metrics.withWriteMiddleware env.rateLimit.middleware,
    Metrics.withGlobalMiddleware (metricsReadMiddlewares config env),
    Metrics.withQueryMiddleware (enforceMetrics env),
    Metrics.withReadMiddleware (enforceMetrics env),
    Metrics.withUIMiddleware (enforceMetrics env)]

def enforceAlertmanager (config : Config) (env : Environment) : Metrics.AlertmanagerEnforcers :=
  Metrics.alertmanagerEnforcers env.silenceCodec env.regexp env.unicode env.getSilenceByID
    config.metrics.tenantLabel.name

def metricsHandler (config : Config) (env : Environment) : Router Proxy :=
  Metrics.newHandler config.metrics.endpoints
    (Metrics.configure (enforceAlertmanager config env) (metricsHandlerOptions config env))

def legacyMetricsHandler (config : Config) (env : Environment) : Router Proxy :=
  Metrics.legacyHandler config.metrics.endpoints.readEndpoint
    (metricsReadMiddlewares config env ++ [enforceMetrics env])

/-- The middlewares of the probes are the same for reading and for writing. -/
def probesMiddlewares (config : Config) (env : Environment) : List (Middleware Proxy) :=
  [withTenantFromHeader config.probes.tenantHeader,
    withTenantMiddlewares [env.pm.middlewares],
    env.rateLimit.middleware]

def ProbesConfig.options (probes : ProbesConfig) : Probes.HandlerOptions :=
  ⟨probes.tenantHeader, probes.rewriteRequestURL⟩

def probesHandler (config : Config) (env : Environment) : Router Proxy :=
  Probes.newHandler env.numbers config.probes.options (probesMiddlewares config env)
    (probesMiddlewares config env)

/-! ### Logs and traces -/

def logsConfiguration (config : Config) (env : Environment) :
    Logs.HandlerConfiguration where
  writeMiddlewares := [withMTLSTenantExtraction config.logs.tenantHeader]
  readMiddlewares :=
    [withTenantFromHeader config.logs.tenantHeader,
      withTenantMiddlewares [env.pm.middlewares],
      withTenantLabel config.logs.tenantLabel,
      env.enforceLogs.middleware]
  rulesReadMiddlewares := [Logs.withEnforceTenantAsRuleNamespace]
  rulesWriteMiddlewares :=
    [Logs.withEnforceTenantAsRuleNamespace, env.enforceRuleLabels.middleware]

def logsHandler (config : Config) (env : Environment) : Router Proxy :=
  Logs.newHandler config.logs.endpoints config.logs.rulesReadOnly
    (logsConfiguration config env)

def tracesHandlerOptions (config : Config) (env : Environment) :
    List Traces.HandlerOption :=
  [Traces.withWriteMiddleware (withMTLSTenantExtraction config.traces.tenantHeader),
    Traces.withReadMiddleware (withTenantFromHeader config.traces.tenantHeader),
    Traces.withReadMiddleware (withTenantMiddlewares [env.pm.middlewares])]

def tracesHandler (config : Config) (env : Environment) : Router Proxy :=
  Traces.newV2Handler env.expandTemplatedUpstream config.traces.endpoints
    (Traces.configure (tracesHandlerOptions config env))

/-! ### The root router -/

def authnMounts (env : Environment) : Router Proxy :=
  env.authnRoutes.flatMap fun route =>
    Router.mount route.pattern fun request => [.answered (env.patternHandler route request)]

def alertmanagerMount (config : Config) (env : Environment) : Router Proxy :=
  if config.alertmanager.isEnabled then
    Router.mount (ascii "/api/alertmanager/v2") (alertsHandler config env).serve
  else []

def metricsMounts (config : Config) (env : Environment) : Router Proxy :=
  if config.metrics.enabled then
    Router.mount (ascii "/api/v1") (legacyMetricsHandler config env).serve ++
      (if config.probes.enabled then
        Router.mount (ascii "/api/metrics/v1/probes") (probesHandler config env).serve
      else []) ++
      Router.mount (ascii "/api/metrics/v1") (metricsHandler config env).serve
  else []

def logsMount (config : Config) (env : Environment) : Router Proxy :=
  if config.logs.enabled then
    Router.mount (ascii "/api/logs/v1") (logsHandler config env).serve
  else []

def tracesMount (config : Config) (env : Environment) : Router Proxy :=
  if config.traces.mounted then
    Router.mount (ascii "/api/traces/v1") (tracesHandler config env).serve
  else []

def apiMounts (config : Config) (env : Environment) : Router Proxy :=
  authnMounts env ++ alertmanagerMount config env ++ metricsMounts config env ++
    logsMount config env ++ tracesMount config env

/-- The routes of the gateway itself answer without an upstream. -/
def rootRouter (config : Config) (env : Environment) : Router Proxy :=
  Router.group [withAccessToken] (apiMounts config env) ++
    Router.method methodGet (ascii "/openapi.yaml") (fun _ => []) ++
    Router.method methodGet (ascii "/") (fun _ => [])

/-- A request as the server hands it to the root router. -/
def Request.received (request : Request) : Request :=
  { request with context := { Context.background with route := some .start } }

def throttle (env : Environment) : Middleware Proxy :=
  fun next request =>
    match env.throttled with
    | some error => [.answered error]
    | none => next request

def gateway (config : Config) (env : Environment) : Handler Proxy :=
  fun request =>
    stripSlashes (throttle env (rootRouter config env).serve) request.received

def Request.routingPath (request : Request) : GoString :=
  if 1 < request.url.path.length ∧ request.url.path.getLast? = some slash then
    request.url.path.dropLast
  else if request.url.rawPath ≠ [] then request.url.rawPath
  else if request.url.path ≠ [] then request.url.path
  else [slash]

def Request.entered (request : Request) : Request :=
  request.received.withRoute
    { RouteContext.start with
      routePath :=
        if 1 < request.url.path.length ∧ request.url.path.getLast? = some slash then
          request.url.path.dropLast
        else [] }

theorem Request.entered_routePath (request : Request) :
    request.entered.routePath = request.routingPath := by
  have shape : request.entered.routeContext.routePath =
      if 1 < request.url.path.length ∧ request.url.path.getLast? = some slash then
        request.url.path.dropLast
      else [] := rfl
  have url : request.entered.url = request.url := rfl
  unfold Request.routePath Request.routingPath
  rw [shape, url]
  by_cases trailing : 1 < request.url.path.length ∧
      request.url.path.getLast? = some slash
  · have nonempty : request.url.path.dropLast ≠ [] := by
      intro empty
      have length := congrArg List.length empty
      rw [List.length_dropLast, List.length_nil] at length
      omega
    rw [if_pos trailing, if_pos trailing, if_pos nonempty]
  · rw [if_neg trailing, if_neg trailing, if_neg (not_not.mpr rfl)]

theorem gateway_eq (config : Config) (env : Environment) (request : Request) :
    gateway config env request =
      throttle env (rootRouter config env).serve request.entered := by
  unfold gateway stripSlashes
  have start : request.received.routeContext = .start := rfl
  have url : request.received.url = request.url := rfl
  rw [start]
  simp only [RouteContext.start, ne_eq, not_true_eq_false, if_false, url]
  by_cases trailing : 1 < request.url.path.length ∧
      request.url.path.getLast? = some slash
  · rw [if_pos trailing]
    unfold Request.entered
    rw [if_pos trailing]
    rfl
  · rw [if_neg trailing]
    unfold Request.entered
    rw [if_neg trailing]
    rfl

/-! ### From the root router to a mounted one -/

theorem mem_rootRouter (config : Config) (env : Environment)
    (route : Chi.Route (Handler Proxy)) (member : route ∈ rootRouter config env) :
    (∃ own ∈ apiMounts config env,
      route = { own with endpoint := chain [withAccessToken] own.endpoint }) ∨
    route = ⟨some methodGet, Chi.pattern (ascii "/openapi.yaml"), fun _ => []⟩ ∨
    route = ⟨some methodGet, Chi.pattern (ascii "/"), fun _ => []⟩ := by
  rcases List.mem_append.mp member with grouped | isRoot
  · rcases List.mem_append.mp grouped with inGroup | isSpec
    · obtain ⟨own, inMounts, same⟩ := List.mem_map.mp inGroup
      exact Or.inl ⟨own, inMounts, same.symm⟩
    · exact Or.inr (Or.inl (List.mem_singleton.mp isSpec))
  · exact Or.inr (Or.inr (List.mem_singleton.mp isRoot))

theorem accessToken_mounted (handler : Handler Proxy) (request : Request)
    (params : Chi.Params) :
    ∃ sent, chain [withAccessToken] (mountHandler handler) (request.routed params) =
        handler sent ∧
      sent.method = request.method ∧ sent.url = request.url ∧
      sent.routePath = Chi.nextRoutePath params ∧
      sent.routeContext.urlParams =
        resetWildcard (request.routeContext.urlParams ++ params) := by
  simp only [chain_cons, chain_nil, withAccessToken]
  split
  · exact ⟨_, rfl, rfl, rfl, Request.mounted_routePath _, rfl⟩
  · exact ⟨_, rfl, rfl, rfl, Request.mounted_routePath _, rfl⟩

theorem not_mem_of_clash {text : GoString} {router : Router Proxy}
    (clash : router.all (fun route => Chi.clashes text route.pattern) = true)
    {route : Chi.Route (Handler Proxy)} {path : GoString} {params : Chi.Params}
    (begins : text <+: path)
    (matched : Chi.matchPattern route.pattern path = some params) : route ∉ router := by
  intro member
  exact Chi.not_match_of_clashes text route.pattern path params
    (List.all_eq_true.mp clash route member) begins matched

/-! ### A small installation -/

def Filter.pass : Filter where
  run := .ok
  keeps := by
    intro request sent passed
    cases passed
    exact ⟨rfl, rfl, rfl, rfl⟩

/-- One provider, which knows every caller; nothing else stops a request. -/
def openEnvironment (promql : PromQL) : Environment where
  pm := [(defaultTenantName, fun _ => .ok ⟨ascii "user", []⟩)]
  authnRoutes := [.oidc]
  patternHandler _ _ := ⟨.found, []⟩
  promql := promql
  unicode := Unicode.asciiOnly
  throttled := none
  rateLimit := Filter.pass
  enforceLogs := Filter.pass
  enforceRuleLabels := Filter.pass
  regexp := RegexpEngine.literals
  SilenceFields := Unit
  silenceCodec := ⟨fun _ => .error [], fun _ => .error []⟩
  getSilenceByID _ := .notFound
  numbers := JsonText.verbatim
  expandTemplatedUpstream _ _ := none

/-- The upstreams have the path `/`, where there are any. -/
def installation (metrics logs tempo : Bool) : Config :=
  let root : BasePath := ⟨[slash], Or.inr rfl⟩
  let given := fun present : Bool => if present then some root else none
  { metrics := ⟨⟨given metrics, none, none, none⟩, ascii "X-Scope-OrgID", tenantIdLabel⟩
    probes := ⟨false, [], id⟩
    logs := ⟨⟨given logs, none, none, given logs⟩, false, ascii "X-Scope-OrgID",
      tenantIdLabel⟩
    traces := ⟨⟨none, [], given tempo, none⟩, ascii "X-Scope-OrgID", true⟩
    alertmanager := ⟨[], [], []⟩
    tenantIDs := [] }

/-- A `GET` request of the tenant `a`. -/
def getRequest (path rawPath rawQuery : GoString) : Request where
  method := methodGet
  url := ⟨path, rawPath, rawQuery⟩
  header := [(ascii "X-Scope-Orgid", [ascii "a"])]
  body := []
  contentLength := 0
  tls := none
  context := .background

end McoaGateway
