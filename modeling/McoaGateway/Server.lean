/-
Routers of handlers, path prefixes and proxies (`server/paths.go`,
`proxy/proxy.go`).

A router keeps its state in the request context.  A mounted router looks its
routes up with what its parent's catch-all matched, and never returns to the
parent.  The routing path and the path of the URL are two views of one request:
`stripSlashes` changes the first, `stripPrefix` and `setUpstream` the second.
-/

import McoaGateway.Http

namespace McoaGateway

open GoString

def trimPrefix (text start : GoString) : GoString :=
  if hasPrefix text start then text.drop start.length else text

theorem trimPrefix_append (start rest : GoString) :
    trimPrefix (start ++ rest) start = rest := by
  have begins : hasPrefix (start ++ rest) start = true :=
    List.isPrefixOf_iff_prefix.mpr (List.prefix_append start rest)
  rw [trimPrefix, if_pos begins, List.drop_left]

/-- `strings.TrimLeft` with the bytes of `cutset`. -/
def trimLeft (text cutset : GoString) : GoString :=
  text.dropWhile fun code => cutset.contains code

/-- `strings.Trim` with the bytes of `cutset`. -/
def trim (text cutset : GoString) : GoString :=
  (trimLeft (trimLeft text cutset).reverse cutset).reverse

def RouteContext.start : RouteContext :=
  ⟨[], [], []⟩

def Request.routeContext (request : Request) : RouteContext :=
  request.context.route.getD .start

def Request.routePath (request : Request) : GoString :=
  if request.routeContext.routePath ≠ [] then request.routeContext.routePath
  else if request.url.rawPath ≠ [] then request.url.rawPath
  else if request.url.path ≠ [] then request.url.path
  else [slash]

section Routers

variable {Upstream : Type}

abbrev Router (Upstream : Type) := List (Chi.Route (Handler Upstream))

def notFound : List (Event Upstream) :=
  [.answered ⟨.notFound, ascii "404 page not found"⟩]

/-- The request as the endpoint of a lookup sees it. -/
def Request.routed (request : Request) (params : Chi.Params) : Request :=
  request.withRoute
    { request.routeContext with
      routeParams := params
      urlParams := request.routeContext.urlParams ++ params }

theorem Request.routed_url (request : Request) (params : Chi.Params) :
    (request.routed params).url = request.url := rfl

def Router.serve (router : Router Upstream) : Handler Upstream :=
  fun request =>
    match Chi.lookup router request.method request.routePath with
    | .found endpoint params => endpoint (request.routed params)
    | .methodNotAllowed => [.answered ⟨.methodNotAllowed, []⟩]
    | .notFound => notFound

/-- The parameters without the value of a catch-all at their end. -/
def resetWildcard (params : Chi.Params) : Chi.Params :=
  match params.getLast? with
  | some (name, _) =>
      if name = Chi.star then params.dropLast ++ [(name, [])] else params
  | none => params

def Request.mounted (request : Request) : Request :=
  request.withRoute
    { request.routeContext with
      routePath := Chi.nextRoutePath request.routeContext.routeParams
      urlParams := resetWildcard request.routeContext.urlParams }

def mountHandler (handler : Handler Upstream) : Handler Upstream :=
  fun request => handler request.mounted

def Router.mount (base : GoString) (handler : Handler Upstream) : Router Upstream :=
  Chi.mount base (mountHandler handler)

def Router.handle (text : GoString) (handler : Handler Upstream) : Router Upstream :=
  [⟨none, Chi.pattern text, handler⟩]

def Router.method (method text : GoString) (handler : Handler Upstream) :
    Router Upstream :=
  [⟨some method, Chi.pattern text, handler⟩]

/-- The routes of a group; its middlewares run once a route is chosen. -/
def Router.group (middlewares : List (Middleware Upstream)) (router : Router Upstream) :
    Router Upstream :=
  router.map fun route => { route with endpoint := chain middlewares route.endpoint }

/-- The routing path loses one slash at its end.  The path it starts from is the
decoded one. -/
def stripSlashes : Middleware Upstream :=
  fun next request =>
    let context := request.routeContext
    let path := if context.routePath ≠ [] then context.routePath else request.url.path
    if 1 < path.length ∧ path.getLast? = some slash then
      next (request.withRoute { context with routePath := path.dropLast })
    else next (request.withRoute context)

def stripPrefix (start : GoString) : Middleware Upstream :=
  fun next request =>
    let path := trimPrefix request.url.path start
    let rawPath := trimPrefix request.url.rawPath start
    if path.length < request.url.path.length ∧
        (request.url.rawPath = [] ∨ rawPath.length < request.url.rawPath.length) then
      next { request with
        url := { request.url with path, rawPath }
        context := { request.context with forwardedPrefix := some start } }
    else notFound

end Routers

/-! ### Proxies -/

abbrev ProxyMiddleware := Request → Request

def prefixHeader : GoString := ascii "X-Forwarded-Prefix"

/-- The scheme and the host of the upstream are not modelled; `base` is its
path. -/
def setUpstream (base : GoString) : ProxyMiddleware :=
  fun request =>
    { request with url := { request.url with path := pathJoin base request.url.path } }

def removeURLPrefix (cutset : GoString) : ProxyMiddleware :=
  fun request =>
    { request with
      url := { request.url with
        path := slash :: trimLeft (trim request.url.path [slash]) cutset } }

def setPrefixHeader : ProxyMiddleware :=
  fun request =>
    match request.context.forwardedPrefix with
    | none => request
    | some start =>
        if request.header.get prefixHeader ≠ [] then request
        else { request with header := request.header.set prefixHeader start }

theorem setPrefixHeader_eq (request : Request) :
    setPrefixHeader request =
      { request with header := (setPrefixHeader request).header } := by
  unfold setPrefixHeader
  split
  · rfl
  · split <;> rfl

@[simp] theorem setPrefixHeader_method (request : Request) :
    (setPrefixHeader request).method = request.method := by
  rw [setPrefixHeader_eq]

@[simp] theorem setPrefixHeader_url (request : Request) :
    (setPrefixHeader request).url = request.url := by
  rw [setPrefixHeader_eq]

@[simp] theorem setPrefixHeader_body (request : Request) :
    (setPrefixHeader request).body = request.body := by
  rw [setPrefixHeader_eq]

def reverseProxy {Upstream : Type} (upstream : Upstream)
    (middlewares : List ProxyMiddleware) : Handler Upstream :=
  fun request =>
    [.forwarded upstream (middlewares.foldl (fun sent step => step sent) request)]

inductive ResponseModifier where
  | jaegerUIResponseModifier
  | responseRBACModifier
deriving DecidableEq, Repr

/-- The proxies and clients through which the gateway reaches its upstreams. -/
inductive Proxy where
  | metricsQuery
  | metricsRead
  | metricsUI
  | metricsWrite
  | metricsRulesGet
  | metricsRulesPut
  | metricsAlertmanager
  | metricsLegacy
  | probes
  | alertFanout
  | logsRead
  | logsRules
  | logsPrometheusRules
  | logsTail
  | logsWrite
  | tracesRead
  | tracesOTLP
  | tempo
deriving DecidableEq, Repr

def Proxy.modifyResponse : Proxy → Option ResponseModifier
  | .tracesRead => some .jaegerUIResponseModifier
  | _ => none

/-- The requests that a trace sends through a proxy. -/
def sentThrough (proxy : Proxy) (trace : List (Event Proxy)) : List Request :=
  trace.filterMap fun event =>
    match event with
    | .forwarded own sent => if own = proxy then some sent else none
    | _ => none

theorem mem_sentThrough (proxy : Proxy) (trace : List (Event Proxy)) (sent : Request) :
    sent ∈ sentThrough proxy trace ↔ .forwarded proxy sent ∈ trace := by
  unfold sentThrough
  rw [List.mem_filterMap]
  constructor
  · intro found
    obtain ⟨event, member, isSent⟩ := found
    cases event with
    | forwarded own request =>
        dsimp only at isSent
        split at isSent
        · rename_i same
          cases isSent
          rw [← same]
          exact member
        · cases isSent
    | _ => cases isSent
  · intro member
    exact ⟨_, member, by simp⟩

/-- The path of an upstream URL that was parsed from the configuration. -/
structure BasePath where
  path : GoString
  wellFormed : path = [] ∨ isRooted path = true

/-! ### Filters -/

/-- A check that answers a request or passes it on with another query, body or
header. -/
structure Filter where
  run : Request → Except HttpError Request
  keeps : ∀ request sent, run request = .ok sent →
    sent.method = request.method ∧ sent.url.path = request.url.path ∧
      sent.url.rawPath = request.url.rawPath ∧ sent.context = request.context

def Filter.middleware {Upstream : Type} (filter : Filter) : Middleware Upstream :=
  fun next request =>
    match filter.run request with
    | .error error => [.answered error]
    | .ok sent => next sent

/-! ### What a router does with a request -/

section Served

variable {Upstream : Type}

/-! A check of the patterns of a router does not look at its handlers. -/

section Patterns

variable (check : Chi.Pattern → Bool)

@[simp] theorem Router.all_handle (text : GoString) (handler : Handler Upstream) :
    (Router.handle text handler).all (fun route => check route.pattern) =
      check (Chi.pattern text) :=
  Bool.and_true _

@[simp] theorem Router.all_method (method text : GoString) (handler : Handler Upstream) :
    (Router.method method text handler).all (fun route => check route.pattern) =
      check (Chi.pattern text) :=
  Bool.and_true _

@[simp] theorem Router.all_mount (base : GoString) (handler : Handler Upstream) :
    (Router.mount base handler).all (fun route => check route.pattern) =
      (Chi.mount base ()).all (fun route => check route.pattern) := by
  unfold Router.mount Chi.mount
  split <;> rfl

@[simp] theorem Router.all_group (middlewares : List (Middleware Upstream))
    (router : Router Upstream) :
    (Router.group middlewares router).all (fun route => check route.pattern) =
      router.all (fun route => check route.pattern) := by
  rw [Router.group, List.all_map]
  rfl

end Patterns

theorem Router.endpoint_of_mem_mount {base : GoString} {handler : Handler Upstream}
    {route : Chi.Route (Handler Upstream)} (member : route ∈ Router.mount base handler) :
    route.endpoint = mountHandler handler := by
  unfold Router.mount Chi.mount at member
  split at member
  · rw [List.mem_singleton.mp member]
  · simp only [List.mem_cons, List.not_mem_nil, or_false] at member
    rcases member with rfl | rfl | rfl <;> rfl

/-- A request is answered, or served by a route for its method and path. -/
theorem Router.serve_cases (router : Router Upstream) (request : Request) :
    (∃ route ∈ router, ∃ params, route.serves request.method = true ∧
      Chi.matchPattern route.pattern request.routePath = some params ∧
      router.serve request = route.endpoint (request.routed params)) ∨
    ∃ error, router.serve request = [.answered error] := by
  unfold Router.serve
  cases looked : Chi.lookup router request.method request.routePath with
  | found endpoint params =>
      obtain ⟨-, route, member, own, matched, rfl⟩ :=
        Chi.lookup_found router _ _ endpoint params looked
      exact Or.inl ⟨route, member, params, own, matched, rfl⟩
  | methodNotAllowed => exact Or.inr ⟨_, rfl⟩
  | notFound => exact Or.inr ⟨_, rfl⟩

theorem Router.serve_of_match (router : Router Upstream) (request : Request)
    (known : request.method ∈ Chi.methods) (route : Chi.Route (Handler Upstream))
    (member : route ∈ router) (own : route.serves request.method = true)
    (params : Chi.Params)
    (matched : Chi.matchPattern route.pattern request.routePath = some params) :
    ∃ chosen ∈ router, ∃ values, chosen.serves request.method = true ∧
      Chi.matchPattern chosen.pattern request.routePath = some values ∧
      router.serve request = chosen.endpoint (request.routed values) := by
  obtain ⟨endpoint, values, looked⟩ :=
    Chi.lookup_of_match router _ _ known route member own params matched
  obtain ⟨-, chosen, inRouter, serves, fits, rfl⟩ :=
    Chi.lookup_found router _ _ endpoint values looked
  refine ⟨chosen, inRouter, values, serves, fits, ?_⟩
  rw [Router.serve, looked]

theorem Request.mounted_routePath (request : Request) :
    request.mounted.routePath =
      Chi.nextRoutePath request.routeContext.routeParams := by
  have shape : request.mounted.routeContext.routePath =
      Chi.nextRoutePath request.routeContext.routeParams := rfl
  rw [Request.routePath, shape, if_pos (Chi.nextRoutePath_ne_nil _)]

end Served

end McoaGateway
