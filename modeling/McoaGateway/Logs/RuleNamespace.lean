/-
The namespace of a rules request.

The check compares the tenant with the namespace as the router found it, which
may be percent-encoded or empty, while the path that is sent upstream is the decoded
one, cleaned.  `ruleNamespace_kept_iff` says when the two views agree.
-/

import McoaGateway.Gateway

namespace McoaGateway.Logs

open GoString

inductive NamespacedRoute where
  | perNamespace
  | perGroupName
  | promPerNamespace
  | promPerGroupName
deriving DecidableEq, Repr

def NamespacedRoute.text : NamespacedRoute → GoString
  | .perNamespace => rulesPerNamespaceRoute
  | .perGroupName => rulesPerGroupNameRoute
  | .promPerNamespace => promRulesPerNamespaceRoute
  | .promPerGroupName => promRulesPerGroupNameRoute

def NamespacedRoute.stem : NamespacedRoute → GoString
  | .perNamespace | .perGroupName => rulesRoute
  | .promPerNamespace | .promPerGroupName => promRulesRoute

def NamespacedRoute.grouped : NamespacedRoute → Bool
  | .perNamespace | .promPerNamespace => false
  | .perGroupName | .promPerGroupName => true

/-- A routing parameter as it stands in the decoded path.  The router looks at the
decoded path when there is no encoded one, and also when it ends in a slash. -/
def decodeParam (request : Request) (value : GoString) : GoString :=
  if 1 < request.url.path.length ∧ request.url.path.getLast? = some slash then value
  else if request.url.rawPath ≠ [] then (pathUnescape value).getD value
  else value

/-- The decoded group, for the routes that have one. -/
def decodedGroup (request : Request) (route : NamespacedRoute) (params : Chi.Params) :
    List GoString :=
  if route.grouped then [decodeParam request (Chi.urlParam params groupNameParam)] else []

/-- The segments before the namespace in the path sent upstream.  Only reading
strips the prefix of the logs API. -/
def rulesBase (endpoint : BasePath) (method : GoString) (route : NamespacedRoute) :
    List GoString :=
  cleanSegments true (segments endpoint.path ++
    segments ((if method = methodGet then [] else routePrefix) ++ route.stem))

/-- The path sent upstream has the tenant for its namespace, and behind it nothing or
one more segment. -/
def NamespaceKept (endpoint : BasePath) (request : Request) (route : NamespacedRoute)
    (sent : Request) (t : GoString) : Prop :=
  segments sent.url.path = [] :: (rulesBase endpoint request.method route ++ [t]) ∨
    ∃ group ∈ segments sent.url.path,
      segments sent.url.path = [] :: (rulesBase endpoint request.method route ++ [t, group])

instance (endpoint : BasePath) (request : Request) (route : NamespacedRoute)
    (sent : Request) (t : GoString) :
    Decidable (NamespaceKept endpoint request route sent t) :=
  inferInstanceAs (Decidable (_ ∨ _))

/-- The decoded namespace and the decoded group, cleaned by themselves as a relative
path, lead to the tenant and at most one segment below it.  Parent references may climb
out of the base if its own names lead back. -/
def LeadsToTenant (endpoint : BasePath) (request : Request) (route : NamespacedRoute)
    (params : Chi.Params) (t : GoString) : Prop :=
  let base := rulesBase endpoint request.method route
  let decoded := decodeParam request (Chi.urlParam params namespaceParam) ::
    decodedGroup request route params
  t ≠ dotDot ∧ ∃ climbed below, below.length ≤ 1 ∧
    cleanSegments false (decoded.flatMap segments) =
      List.replicate climbed dotDot ++ (base.drop (base.length - climbed) ++ t :: below)

/-! ### What a namespaced route matches -/

def rulePath (stem ruleNamespace : GoString) (group : Option GoString) : GoString :=
  stem ++ slash :: (ruleNamespace ++ group.elim [] (slash :: ·))

def ruleParams (ruleNamespace : GoString) (group : Option GoString) : Chi.Params :=
  (namespaceParam, ruleNamespace) :: group.toList.map (groupNameParam, ·)

private theorem matchPattern_lastParam (name path : GoString) (params : Chi.Params) :
    Chi.matchPattern [.param name slash] path = some params ↔
      slash ∉ path ∧ path ≠ [] ∧ params = [(name, path)] := by
  rw [Chi.matchPattern]
  constructor
  · intro matched
    split at matched
    · cases matched
    · rename_i value rest cut
      obtain ⟨nonempty, shape, noSlash, -⟩ := (Chi.cutParam_slash path value rest).mp cut
      cases rest with
      | nil =>
          rw [List.append_nil] at shape
          rw [shape]
          simp only [Chi.matchPattern, Option.map_some, Option.some.injEq] at matched
          exact ⟨noSlash, shape ▸ nonempty, matched.symm⟩
      | cons head tail => cases matched
  · rintro ⟨noSlash, nonempty, rfl⟩
    have cut := (Chi.cutParam_slash path path []).mpr
      ⟨nonempty, (List.append_nil path).symm, noSlash, Or.inl rfl⟩
    rw [cut]
    rfl

private theorem matchPattern_twoParams (path : GoString) (params : Chi.Params)
    (matched : Chi.matchPattern
      [.param namespaceParam slash, .literal slash, .param groupNameParam slash] path =
        some params) :
    ∃ ruleNamespace group, slash ∉ ruleNamespace ∧ slash ∉ group ∧
      path = ruleNamespace ++ slash :: group ∧
      params = [(namespaceParam, ruleNamespace), (groupNameParam, group)] := by
  rw [Chi.matchPattern] at matched
  split at matched
  · cases matched
  · rename_i value rest cut
    obtain ⟨-, shape, noSlash, -⟩ := (Chi.cutParam_slash path value rest).mp cut
    obtain ⟨others, isOthers, rfl⟩ := Option.map_eq_some_iff.mp matched
    cases rest with
    | nil => cases isOthers
    | cons head tail =>
        rw [Chi.matchPattern] at isOthers
        by_cases isSlash : slash = head
        · rw [if_pos isSlash, matchPattern_lastParam] at isOthers
          obtain ⟨noSlashGroup, -, rfl⟩ := isOthers
          exact ⟨value, tail, noSlash, noSlashGroup, by rw [shape, isSlash], rfl⟩
        · rw [if_neg isSlash] at isOthers
          cases isOthers

theorem namespaced_match (route : NamespacedRoute) (path : GoString)
    (params : Chi.Params)
    (matched : Chi.matchPattern (Chi.pattern route.text) path = some params) :
    ∃ ruleNamespace group, slash ∉ ruleNamespace ∧ (∀ g ∈ group, slash ∉ g) ∧
      path = rulePath route.stem ruleNamespace group ∧
      params = ruleParams ruleNamespace group ∧ Option.isSome group = route.grouped := by
  have shapes : Chi.pattern route.text =
      (route.stem ++ [slash]).map Chi.Token.literal ++
        if route.grouped then
          [.param namespaceParam slash, .literal slash, .param groupNameParam slash]
        else [.param namespaceParam slash] := by
    cases route <;> rfl
  rw [shapes, Chi.matchPattern_literals] at matched
  obtain ⟨tail, rfl, rest⟩ := matched
  cases grouped : route.grouped with
  | false =>
      rw [grouped] at rest
      obtain ⟨noSlash, -, rfl⟩ := (matchPattern_lastParam _ _ _).mp rest
      exact ⟨tail, none, noSlash, by simp, by simp [rulePath], rfl, rfl⟩
  | true =>
      rw [grouped] at rest
      obtain ⟨ruleNamespace, group, noSlash, noSlashGroup, rfl, rfl⟩ :=
        matchPattern_twoParams tail params rest
      exact ⟨ruleNamespace, some group, noSlash, by simpa using noSlashGroup,
        by simp [rulePath], rfl, rfl⟩

private theorem segments_rest (ruleNamespace : GoString) (group : Option GoString)
    (noSlash : slash ∉ ruleNamespace) (noSlashGroup : ∀ g ∈ group, slash ∉ g) :
    segments (ruleNamespace ++ group.elim [] (slash :: ·)) =
      ruleNamespace :: group.toList := by
  cases group with
  | none =>
      rw [Option.elim, List.append_nil, segments_of_not_mem _ noSlash]
      rfl
  | some g =>
      rw [Option.elim, segments_append_slash, segments_of_not_mem _ noSlash,
        segments_of_not_mem _ (noSlashGroup g rfl)]
      rfl

/-- The parameters depend on the path alone, not on the route that matches. -/
theorem namespaced_match_unique (route other : NamespacedRoute) (path : GoString)
    (params values : Chi.Params)
    (matched : Chi.matchPattern (Chi.pattern route.text) path = some params)
    (matchedOther : Chi.matchPattern (Chi.pattern other.text) path = some values) :
    values = params := by
  obtain ⟨ruleNamespace, group, noSlash, noSlashGroup, shape, rfl, -⟩ :=
    namespaced_match route path params matched
  obtain ⟨ruleNamespace', group', noSlash', noSlashGroup', shape', rfl, -⟩ :=
    namespaced_match other path values matchedOther
  by_cases sameStem : route.stem = other.stem
  · rw [shape, rulePath, rulePath, sameStem] at shape'
    have rest := congrArg segments (List.cons.inj (List.append_cancel_left shape')).2
    rw [segments_rest _ _ noSlash noSlashGroup, segments_rest _ _ noSlash' noSlashGroup']
      at rest
    obtain ⟨rfl, groups⟩ := List.cons.inj rest
    rw [ruleParams, ruleParams, groups]
  · have begins : route.stem ++ [slash] <+: path := by
      rw [shape, rulePath]
      exact (List.prefix_append_right_inj route.stem).mpr ⟨_, rfl⟩
    have clash : Chi.clashes (route.stem ++ [slash]) (Chi.pattern other.text) = true := by
      cases route <;> cases other <;> first | rfl | exact absurd rfl sameStem
    exact absurd matchedOther (Chi.not_match_of_clashes _ _ _ _ clash begins)

/-! ### Passing the middlewares of the rules routes -/

/-- The two requests have the same method, path and routing parameters. -/
structure SameRoute (request other : Request) : Prop where
  method : other.method = request.method
  path : other.url.path = request.url.path
  route : other.context.route = request.context.route

/-- What a forwarded request tells of the check before it. -/
structure Checked (request sent : Request) (path : GoString) : Prop where
  sentPath : sent.url.path = path
  passed : ∃ checked, ruleNamespaceError checked = none ∧ SameRoute request checked ∧
    sent.context.tenant = checked.context.tenant

private theorem setPrefixHeader_context (request : Request) :
    (setPrefixHeader request).context = request.context := by
  rw [setPrefixHeader_eq]

private theorem filter_forwarded {filter : Filter} {next : Handler Proxy}
    {request : Request} {proxy : Proxy} {sent : Request}
    (forwarded : .forwarded proxy sent ∈ filter.middleware next request) :
    ∃ passed, SameRoute request passed ∧
      passed.context.tenant = request.context.tenant ∧ .forwarded proxy sent ∈ next passed := by
  unfold Filter.middleware at forwarded
  cases verdict : filter.run request with
  | error error =>
      rw [verdict] at forwarded
      simp at forwarded
  | ok passed =>
      rw [verdict] at forwarded
      obtain ⟨method, path, -, context⟩ := filter.keeps request passed verdict
      exact ⟨passed, ⟨method, path, by rw [context]⟩, by rw [context], forwarded⟩

private theorem namespaceCheck_forwarded {next : Handler Proxy} {request : Request}
    {proxy : Proxy} {sent : Request}
    (forwarded : .forwarded proxy sent ∈ withEnforceTenantAsRuleNamespace next request) :
    ruleNamespaceError request = none ∧ .forwarded proxy sent ∈ next request := by
  unfold withEnforceTenantAsRuleNamespace at forwarded
  cases verdict : ruleNamespaceError request with
  | some error =>
      rw [verdict] at forwarded
      simp at forwarded
  | none =>
      rw [verdict] at forwarded
      exact ⟨rfl, forwarded⟩

private theorem proxy_forwarded {proxy own : Proxy} {endpoint : BasePath}
    {request sent : Request}
    (forwarded : .forwarded proxy sent ∈ proxyTo own endpoint request) :
    sent.url.path = pathJoin endpoint.path request.url.path ∧
      sent.context = request.context := by
  simp only [proxyTo, reverseProxy, List.foldl_cons, List.foldl_nil, List.mem_singleton,
    Event.forwarded.injEq] at forwarded
  rw [forwarded.2]
  exact ⟨by rw [setPrefixHeader_url, setUpstream], setPrefixHeader_context _⟩

variable (config : Config) (env : Environment)

theorem rulesRead_forwarded {own proxy : Proxy} {endpoint : BasePath}
    {request sent : Request}
    (forwarded : .forwarded proxy sent ∈
      chain ((logsConfiguration config env).readMiddlewares ++
        (logsConfiguration config env).rulesReadMiddlewares ++ [stripPrefix routePrefix])
        (proxyTo own endpoint) request) :
    Checked request sent
      (pathJoin endpoint.path (trimPrefix request.url.path routePrefix)) := by
  change .forwarded proxy sent ∈ authChain config.logs.tenantHeader env.pm
    (withTenantLabel config.logs.tenantLabel (env.enforceLogs.middleware
      (withEnforceTenantAsRuleNamespace (stripPrefix routePrefix
        (proxyTo own endpoint))))) request at forwarded
  rcases authChain_serve config.logs.tenantHeader env.pm _ request with
    ⟨registered, identity, -, served⟩ | ⟨-, refused⟩
  · rw [served] at forwarded
    simp only [List.mem_cons, reduceCtorEq, false_or] at forwarded
    simp only [withTenantLabel, tenantRequest, Request.withIdentity_tenant,
      Request.withTenant_tenant] at forwarded
    split at forwarded
    · simp at forwarded
    · obtain ⟨passed, same, -, next⟩ := filter_forwarded forwarded
      obtain ⟨checked, behind⟩ := namespaceCheck_forwarded next
      simp only [stripPrefix] at behind
      split at behind
      · obtain ⟨sentPath, context⟩ := proxy_forwarded behind
        have route : SameRoute request passed :=
          ⟨same.method.trans rfl, same.path.trans rfl, same.route.trans rfl⟩
        refine ⟨?_, passed, checked, route, by rw [context]⟩
        rw [sentPath, ← route.path]
      · simp [notFound] at behind
  · exact (refused _ forwarded).elim

theorem rulesWrite_forwarded {own proxy : Proxy} {endpoint : BasePath}
    {request sent : Request}
    (forwarded : .forwarded proxy sent ∈
      chain ((logsConfiguration config env).writeMiddlewares ++
        (logsConfiguration config env).rulesWriteMiddlewares)
        (proxyTo own endpoint) request) :
    Checked request sent (pathJoin endpoint.path request.url.path) := by
  change .forwarded proxy sent ∈ withMTLSTenantExtraction config.logs.tenantHeader
    (withEnforceTenantAsRuleNamespace (env.enforceRuleLabels.middleware
      (proxyTo own endpoint))) request at forwarded
  unfold withMTLSTenantExtraction at forwarded
  split at forwarded
  · simp [prometheusAPIError] at forwarded
  · simp [prometheusAPIError] at forwarded
  · split at forwarded
    · simp [prometheusAPIError] at forwarded
    · simp only [List.mem_cons, reduceCtorEq, false_or] at forwarded
      obtain ⟨checked, behind⟩ := namespaceCheck_forwarded forwarded
      obtain ⟨passed, same, tenant, next⟩ := filter_forwarded behind
      obtain ⟨sentPath, context⟩ := proxy_forwarded next
      refine ⟨?_, _, checked, ⟨rfl, rfl, rfl⟩, ?_⟩
      · rw [sentPath, same.path]
        rfl
      · rw [context, tenant]

/-- A request that passed the check has no namespace, or the tenant for it. -/
theorem ruleNamespaceError_none (request : Request)
    (passed : ruleNamespaceError request = none) :
    ∃ tenant route, request.context.tenant = some tenant ∧
      request.context.route = some route ∧
      (Chi.urlParam route.urlParams namespaceParam = [] ∨
        Chi.urlParam route.urlParams namespaceParam = tenant) := by
  unfold ruleNamespaceError at passed
  cases isTenant : request.context.tenant with
  | none =>
      rw [isTenant] at passed
      cases passed
  | some tenant =>
      rw [isTenant] at passed
      cases isRoute : request.context.route with
      | none =>
          rw [isRoute] at passed
          cases passed
      | some route =>
          rw [isRoute] at passed
          dsimp only at passed
          refine ⟨tenant, route, rfl, rfl, ?_⟩
          split at passed
          · cases passed
          · split at passed
            · cases passed
            · rename_i agrees
              by_cases empty : Chi.urlParam route.urlParams namespaceParam = []
              · exact Or.inl empty
              · apply Or.inr
                by_contra different
                exact agrees ⟨empty, fun same => different same.symm⟩

/-! ### From the gateway to the route -/

private theorem urlParam_namespace (earlier : Chi.Params) (ruleNamespace : GoString)
    (group : Option GoString) :
    Chi.urlParam (earlier ++ ruleParams ruleNamespace group) namespaceParam =
      ruleNamespace := by
  have different : (groupNameParam == namespaceParam) = false := by decide
  cases group <;> simp [Chi.urlParam, ruleParams, different]

private theorem otherMounts_clash (route : NamespacedRoute) :
    (authnMounts env ++ alertmanagerMount config env ++ metricsMounts config env).all
        (fun own => Chi.clashes (routePrefix ++ route.stem ++ [slash]) own.pattern) = true ∧
      (tracesMount config env).all
        (fun own => Chi.clashes (routePrefix ++ route.stem ++ [slash]) own.pattern) =
      true := by
  rw [List.all_append, List.all_append, Bool.and_eq_true, Bool.and_eq_true]
  refine ⟨⟨⟨?_, ?_⟩, ?_⟩, ?_⟩
  · rw [List.all_eq_true]
    intro own member
    obtain ⟨authn, -, inMount⟩ := List.mem_flatMap.mp member
    have clash : ∀ handler : Handler Proxy,
        (Router.mount authn.pattern handler).all
          (fun own => Chi.clashes (routePrefix ++ route.stem ++ [slash]) own.pattern) =
        true := by
      intro handler
      rw [Router.all_mount]
      cases authn <;> cases route <;> decide +kernel
    exact List.all_eq_true.mp (clash _) own inMount
  · unfold alertmanagerMount
    split
    · rw [Router.all_mount]
      cases route <;> decide +kernel
    · rfl
  · unfold metricsMounts
    split
    · split
      · simp only [List.all_append, Router.all_mount]
        cases route <;> decide +kernel
      · simp only [List.all_append, Router.all_mount]
        cases route <;> decide +kernel
    · rfl
  · unfold tracesMount
    split
    · rw [Router.all_mount]
      cases route <;> decide +kernel
    · rfl

private theorem otherRoutes_clash (c : HandlerConfiguration) (route : NamespacedRoute)
    (endpoint : BasePath) :
    (readRoutes c endpoint).all
        (fun own => Chi.clashes (route.stem ++ [slash]) own.pattern) = true ∧
      (tailRoutes c endpoint).all
        (fun own => Chi.clashes (route.stem ++ [slash]) own.pattern) = true ∧
      (writeRoutes c endpoint).all
        (fun own => Chi.clashes (route.stem ++ [slash]) own.pattern) = true := by
  simp only [readRoutes, tailRoutes, writeRoutes, List.all_append, Router.all_group,
    Router.all_handle]
  cases route <;> decide +kernel

private theorem rulesRead_mem (c : HandlerConfiguration) (endpoint : BasePath)
    (own : Chi.Route (Handler Proxy)) (member : own ∈ rulesReadRoutes c endpoint) :
    own.method = some methodGet ∧
      (∃ proxy, own.endpoint = chain (c.readMiddlewares ++ c.rulesReadMiddlewares ++
        [stripPrefix routePrefix]) (proxyTo proxy endpoint)) ∧
      ((∃ other : NamespacedRoute, own.pattern = Chi.pattern other.text) ∨
        ∀ route : NamespacedRoute,
          Chi.clashes (route.stem ++ [slash]) own.pattern = true) := by
  obtain ⟨inner, among, rfl⟩ := List.mem_map.mp member
  simp only [Router.method, List.cons_append, List.nil_append, List.mem_cons,
    List.not_mem_nil, or_false] at among
  have clash : ∀ route : NamespacedRoute,
      Chi.clashes (route.stem ++ [slash]) (Chi.pattern rulesRoute) = true ∧
      Chi.clashes (route.stem ++ [slash]) (Chi.pattern prometheusRulesRoute) = true ∧
      Chi.clashes (route.stem ++ [slash]) (Chi.pattern prometheusAlertsRoute) = true ∧
      Chi.clashes (route.stem ++ [slash]) (Chi.pattern promRulesRoute) = true := by
    intro route
    cases route <;> decide +kernel
  rcases among with rfl | rfl | rfl | rfl | rfl | rfl | rfl | rfl
  · exact ⟨rfl, ⟨_, rfl⟩, Or.inr fun route => (clash route).1⟩
  · exact ⟨rfl, ⟨_, rfl⟩, Or.inl ⟨.perNamespace, rfl⟩⟩
  · exact ⟨rfl, ⟨_, rfl⟩, Or.inl ⟨.perGroupName, rfl⟩⟩
  · exact ⟨rfl, ⟨_, rfl⟩, Or.inr fun route => (clash route).2.1⟩
  · exact ⟨rfl, ⟨_, rfl⟩, Or.inr fun route => (clash route).2.2.1⟩
  · exact ⟨rfl, ⟨_, rfl⟩, Or.inr fun route => (clash route).2.2.2⟩
  · exact ⟨rfl, ⟨_, rfl⟩, Or.inl ⟨.promPerNamespace, rfl⟩⟩
  · exact ⟨rfl, ⟨_, rfl⟩, Or.inl ⟨.promPerGroupName, rfl⟩⟩

private theorem rulesWrite_mem (c : HandlerConfiguration) (endpoint : BasePath)
    (own : Chi.Route (Handler Proxy)) (member : own ∈ rulesWriteRoutes c endpoint) :
    (∃ method, own.method = some method ∧ method ≠ methodGet) ∧
      (∃ proxy, own.endpoint = chain (c.writeMiddlewares ++ c.rulesWriteMiddlewares)
        (proxyTo proxy endpoint)) ∧
      ∃ other : NamespacedRoute, own.pattern = Chi.pattern other.text := by
  obtain ⟨inner, among, rfl⟩ := List.mem_map.mp member
  simp only [Router.method, List.cons_append, List.nil_append, List.mem_cons,
    List.not_mem_nil, or_false] at among
  rcases among with rfl | rfl | rfl | rfl | rfl | rfl
  · exact ⟨⟨_, rfl, by decide⟩, ⟨_, rfl⟩, .perNamespace, rfl⟩
  · exact ⟨⟨_, rfl, by decide⟩, ⟨_, rfl⟩, .perNamespace, rfl⟩
  · exact ⟨⟨_, rfl, by decide⟩, ⟨_, rfl⟩, .perGroupName, rfl⟩
  · exact ⟨⟨_, rfl, by decide⟩, ⟨_, rfl⟩, .promPerNamespace, rfl⟩
  · exact ⟨⟨_, rfl, by decide⟩, ⟨_, rfl⟩, .promPerNamespace, rfl⟩
  · exact ⟨⟨_, rfl, by decide⟩, ⟨_, rfl⟩, .promPerGroupName, rfl⟩

/-- The path that is sent upstream, before it is joined. -/
def rulesPath (request : Request) : GoString :=
  if request.method = methodGet then trimPrefix request.url.path routePrefix
  else request.url.path

private theorem logsHandler_forwarded (endpoint : BasePath)
    (configured : config.logs.endpoints.rules = some endpoint)
    (route : NamespacedRoute) (params : Chi.Params) (request : Request)
    (matched : Chi.matchPattern (Chi.pattern route.text) request.routePath = some params)
    (proxy : Proxy) (sent : Request)
    (forwarded : .forwarded proxy sent ∈ (logsHandler config env).serve request) :
    Checked (request.routed params) sent (pathJoin endpoint.path (rulesPath request)) := by
  obtain ⟨ruleNamespace, group, -, -, shape, -, -⟩ :=
    namespaced_match route _ params matched
  have begins : route.stem ++ [slash] <+: request.routePath := by
    rw [shape, rulePath]
    exact (List.prefix_append_right_inj route.stem).mpr ⟨_, rfl⟩
  rcases (logsHandler config env).serve_cases request with
    ⟨own, member, values, serves, fits, served⟩ | ⟨error, answered⟩
  · rw [served] at forwarded
    unfold logsHandler newHandler at member
    rw [configured, List.mem_append, List.mem_append, List.mem_append] at member
    rcases member with ((inRead | inRules) | inTail) | inWrite
    · cases read : config.logs.endpoints.read with
      | none =>
          rw [read] at inRead
          cases inRead
      | some readEndpoint =>
          rw [read, Option.elim_some] at inRead
          exact (not_mem_of_clash (otherRoutes_clash _ route readEndpoint).1 begins fits
            inRead).elim
    · rcases List.mem_append.mp inRules with inRulesRead | inRulesWrite
      · obtain ⟨isGet, ⟨target, isChain⟩, patterns⟩ := rulesRead_mem _ endpoint own inRulesRead
        rcases patterns with ⟨other, isOther⟩ | clash
        · rw [isOther] at fits
          have same := namespaced_match_unique route other _ params values matched fits
          rw [isChain, same] at forwarded
          have method : request.method = methodGet := by
            rw [Chi.Route.serves, isGet] at serves
            exact (beq_iff_eq.mp serves).symm
          rw [rulesPath, if_pos method, ← request.routed_url params]
          exact rulesRead_forwarded config env forwarded
        · exact absurd fits (Chi.not_match_of_clashes _ _ _ _ (clash route) begins)
      · split at inRulesWrite
        · cases inRulesWrite
        · obtain ⟨⟨method, isMethod, notGet⟩, ⟨target, isChain⟩, other, isOther⟩ :=
            rulesWrite_mem _ endpoint own inRulesWrite
          rw [isOther] at fits
          have same := namespaced_match_unique route other _ params values matched fits
          rw [isChain, same] at forwarded
          have different : request.method ≠ methodGet := by
            rw [Chi.Route.serves, isMethod] at serves
            rw [← beq_iff_eq.mp serves]
            exact notGet
          rw [rulesPath, if_neg different, ← request.routed_url params]
          exact rulesWrite_forwarded config env forwarded
    · cases tail : config.logs.endpoints.tail with
      | none =>
          rw [tail] at inTail
          cases inTail
      | some tailEndpoint =>
          rw [tail, Option.elim_some] at inTail
          exact (not_mem_of_clash (otherRoutes_clash _ route tailEndpoint).2.1 begins fits
            inTail).elim
    · cases write : config.logs.endpoints.write with
      | none =>
          rw [write] at inWrite
          cases inWrite
      | some writeEndpoint =>
          rw [write, Option.elim_some] at inWrite
          exact (not_mem_of_clash (otherRoutes_clash _ route writeEndpoint).2.2 begins fits
            inWrite).elim
  · rw [answered] at forwarded
    cases List.mem_singleton.mp forwarded

/-- What is sent upstream for a path of a namespaced route, and what the check
has established. -/
theorem gateway_ruleRoute (endpoint : BasePath)
    (configured : config.logs.endpoints.rules = some endpoint) (request : Request)
    (route : NamespacedRoute) (params : Chi.Params)
    (matched : Chi.matchPattern (Chi.pattern (routePrefix ++ route.text))
      request.routingPath = some params)
    (proxy : Proxy) (sent : Request)
    (forwarded : .forwarded proxy sent ∈ gateway config env request) :
    sent.url.path = pathJoin endpoint.path (rulesPath request) ∧
      ∃ t, sent.context.tenant = some t ∧
        (Chi.urlParam params namespaceParam = [] ∨
          Chi.urlParam params namespaceParam = t) := by
  rw [Chi.pattern_append routePrefix _ (by decide), Chi.matchPattern_literals] at matched
  obtain ⟨below, whole, matchedBelow⟩ := matched
  obtain ⟨ruleNamespace, group, -, -, shape, isParams, -⟩ :=
    namespaced_match route below params matchedBelow
  have begins : routePrefix ++ route.stem ++ [slash] <+: request.entered.routePath := by
    rw [request.entered_routePath, whole, List.append_assoc, shape, rulePath]
    apply (List.prefix_append_right_inj routePrefix).mpr
    exact (List.prefix_append_right_inj route.stem).mpr ⟨_, rfl⟩
  rw [gateway_eq] at forwarded
  unfold throttle at forwarded
  cases admitted : env.throttled with
  | some error =>
      rw [admitted] at forwarded
      cases List.mem_singleton.mp forwarded
  | none =>
      rw [admitted] at forwarded
      dsimp only at forwarded
      rcases (rootRouter config env).serve_cases request.entered with
        ⟨chosen, member, values, -, fits, served⟩ | ⟨error, answered⟩
      · rw [served] at forwarded
        rcases mem_rootRouter config env chosen member with ⟨own, inMounts, rfl⟩ | rfl | rfl
        · replace fits : Chi.matchPattern own.pattern request.entered.routePath =
            some values := fits
          obtain ⟨others, traces⟩ := otherMounts_clash config env route
          rcases List.mem_append.mp inMounts with inFront | inTraces
          · rcases List.mem_append.mp inFront with inOthers | inLogs
            · exact (not_mem_of_clash others begins fits inOthers).elim
            · unfold logsMount at inLogs
              split at inLogs
              · have unclosed : routePrefix.getLast? ≠ some slash := by decide
                obtain ⟨rest, next, onPath⟩ := Chi.mount_match routePrefix _ (by decide)
                  unclosed own inLogs request.entered.routePath values fits
                obtain ⟨last, -, rfl⟩ :=
                  (Chi.mem_mount routePrefix _ unclosed own).mp inLogs
                obtain ⟨inner, handled, method, url, path, urlParams⟩ :=
                  accessToken_mounted (logsHandler config env).serve request.entered values
                dsimp only at forwarded
                rw [handled] at forwarded
                have seen : inner.routePath = below := by
                  rw [path, next]
                  rw [request.entered_routePath, whole] at onPath
                  rcases onPath with deeper | ⟨atRoot, -⟩
                  · exact (List.append_cancel_left deeper).symm
                  · have nothing : below = [] :=
                      List.append_cancel_left (atRoot.trans (List.append_nil _).symm)
                    rw [shape, rulePath] at nothing
                    simp at nothing
                rw [← seen] at matchedBelow
                obtain ⟨sentPath, checked, passed, same, tenant⟩ :=
                  logsHandler_forwarded config env endpoint configured route params inner
                    matchedBelow proxy sent forwarded
                obtain ⟨t, context, isTenant, isContext, agrees⟩ :=
                  ruleNamespaceError_none checked passed
                have innerPath : rulesPath inner = rulesPath request := by
                  unfold rulesPath
                  rw [method, url]
                  rfl
                refine ⟨by rw [sentPath, innerPath], t, by rw [tenant, isTenant], ?_⟩
                -- The parameters in the context end with those of the logs router.
                have inContext : context.urlParams =
                    inner.routeContext.urlParams ++ params := by
                  have routed : (inner.routed params).context.route = some context := by
                    rw [← same.route, isContext]
                  cases routed
                  rfl
                rw [inContext, isParams, urlParam_namespace] at agrees
                rw [isParams, ← List.nil_append (ruleParams ruleNamespace group),
                  urlParam_namespace]
                exact agrees
              · cases inLogs
          · exact (not_mem_of_clash traces begins fits inTraces).elim
        · cases forwarded
        · cases forwarded
      · rw [answered] at forwarded
        cases List.mem_singleton.mp forwarded

/-! ### The decoded path -/

private theorem pathUnescape_rulePath (stem ruleNamespace decoded : GoString)
    (group : Option GoString) (noEscape : byte '%' ∉ stem)
    (unescaped : pathUnescape (rulePath stem ruleNamespace group) = some decoded) :
    decoded = rulePath stem ((pathUnescape ruleNamespace).getD ruleNamespace)
      (group.map fun g => (pathUnescape g).getD g) := by
  have noEscapeSlash : byte '%' ∉ stem ++ [slash] := by
    rw [List.mem_append, not_or]
    exact ⟨noEscape, by decide⟩
  rw [rulePath, List.append_cons, pathUnescape_plain_append _ _ noEscapeSlash] at unescaped
  obtain ⟨rest, isRest, rfl⟩ := Option.map_eq_some_iff.mp unescaped
  rw [rulePath, List.append_assoc, List.singleton_append]
  cases group with
  | none =>
      rw [Option.elim_none, List.append_nil] at isRest
      rw [isRest, Option.getD_some, Option.map_none, Option.elim_none, List.append_nil]
  | some g =>
      obtain ⟨left, right, isLeft, isRight, rfl⟩ :=
        pathUnescape_append_slash ruleNamespace g rest isRest
      rw [isLeft, Option.getD_some, Option.map_some, isRight, Option.getD_some]
      rfl

private theorem decoded_path (request : Request) (valid : request.url.Valid)
    (stem ruleNamespace : GoString) (group : Option GoString) (noEscape : byte '%' ∉ stem)
    (nonempty : stem ≠ [])
    (whole : request.routingPath = rulePath stem ruleNamespace group) :
    ∃ tail, (tail = [] ∨ tail = [slash]) ∧
      request.url.path = rulePath stem (decodeParam request ruleNamespace)
        (group.map (decodeParam request)) ++ tail := by
  have unchanged : group.map (fun g => g) = group := by
    cases group <;> rfl
  unfold Request.routingPath at whole
  unfold decodeParam
  by_cases slashed : 1 < request.url.path.length ∧ request.url.path.getLast? = some slash
  · simp only [if_pos slashed] at whole ⊢
    refine ⟨[slash], Or.inr rfl, ?_⟩
    rw [unchanged, ← whole]
    exact (List.dropLast_append_getLast? slash slashed.2).symm
  · simp only [if_neg slashed] at whole ⊢
    refine ⟨[], Or.inl rfl, ?_⟩
    rw [List.append_nil]
    by_cases encoded : request.url.rawPath ≠ []
    · simp only [if_pos encoded] at whole ⊢
      rcases valid with absent | unescaped
      · exact absurd absent encoded
      · rw [whole] at unescaped
        exact pathUnescape_rulePath stem ruleNamespace _ group noEscape unescaped
    · simp only [if_neg encoded] at whole ⊢
      rw [unchanged]
      by_cases present : request.url.path ≠ []
      · rw [if_pos present] at whole
        exact whole
      · -- The root path is shorter than any path of a route.
        rw [if_neg present] at whole
        have lengths := congrArg List.length whole
        have positive := List.length_pos_iff.mpr nonempty
        simp only [rulePath, List.length_cons, List.length_nil, List.length_append] at lengths
        omega

/-- The segments of the path sent upstream: those of the stem, and of the decoded
namespace and group. -/
private theorem segments_rulesPath (request : Request) (valid : request.url.Valid)
    (route : NamespacedRoute) (ruleNamespace : GoString) (group : Option GoString)
    (whole : request.routingPath = routePrefix ++ rulePath route.stem ruleNamespace group) :
    isRooted (rulesPath request) = true ∧
    ∃ tail, (∀ part ∈ tail, part = []) ∧
      segments (rulesPath request) =
        segments ((if request.method = methodGet then [] else routePrefix) ++ route.stem) ++
          ((decodeParam request ruleNamespace ::
            (group.map (decodeParam request)).toList).flatMap segments ++ tail) := by
  have regroup : ∀ (front name : GoString) (g : Option GoString),
      front ++ rulePath route.stem name g = rulePath (front ++ route.stem) name g := by
    intro front name g
    rw [rulePath, rulePath, List.append_assoc]
  rw [regroup] at whole
  obtain ⟨last, shortEnd, path⟩ := decoded_path request valid _ ruleNamespace group
    (by cases route <;> decide) (by cases route <;> decide) whole
  have sent : rulesPath request =
      rulePath ((if request.method = methodGet then [] else routePrefix) ++ route.stem)
        (decodeParam request ruleNamespace) (group.map (decodeParam request)) ++ last := by
    unfold rulesPath
    split
    · rw [path, ← regroup, List.append_assoc, trimPrefix_append]
      rfl
    · exact path
  rw [sent]
  refine ⟨by cases route <;> split <;> rfl, last.map fun _ => [], by simp, ?_⟩
  have cutLast : ∀ text : GoString,
      segments (text ++ last) = segments text ++ last.map fun _ => [] := by
    intro text
    rcases shortEnd with rfl | rfl
    · rw [List.append_nil, List.map_nil, List.append_nil]
    · exact segments_append_slash text []
  rw [cutLast, rulePath, segments_append_slash]
  cases group with
  | none => simp
  | some g => simp [segments_append_slash]

/-! ### Cleaning -/

private theorem segments_cleaned (stem rest result : List GoString)
    (stemKept : stem.foldl (cleanStep true) [] ≠ [])
    (plain : ∀ part ∈ stem ++ rest, slash ∉ part) (nonempty : result ≠ []) :
    segments (rootedPath (cleanSegments true (stem ++ rest))) =
        [] :: (cleanSegments true stem ++ result) ↔
      rest.foldl (cleanStep true) (stem.foldl (cleanStep true) []) =
        result.reverse ++ stem.foldl (cleanStep true) [] := by
  have keptPlain : ∀ part ∈ cleanSegments true (stem ++ rest), slash ∉ part :=
    fun part member => plain part (mem_cleanSegments _ _ member).1
  have asFold : cleanSegments true (stem ++ rest) = cleanSegments true stem ++ result ↔
      rest.foldl (cleanStep true) (stem.foldl (cleanStep true) []) =
        result.reverse ++ stem.foldl (cleanStep true) [] := by
    rw [cleanSegments, cleanSegments, List.foldl_append, List.reverse_eq_iff,
      List.reverse_append, List.reverse_reverse]
  rw [← asFold]
  by_cases nothing : cleanSegments true (stem ++ rest) = []
  · -- The root path has too few segments.
    have positive := List.length_pos_iff.mpr stemKept
    have some := List.length_pos_iff.mpr nonempty
    have isBase : (cleanSegments true stem).length =
        (stem.foldl (cleanStep true) []).length := List.length_reverse
    rw [nothing]
    constructor
    · intro same
      have lengths := congrArg List.length same
      have two : (segments (rootedPath [])).length = 2 := rfl
      rw [two, List.length_cons, List.length_append] at lengths
      omega
    · intro same
      have lengths := congrArg List.length same
      rw [List.length_nil, List.length_append] at lengths
      omega
  · rw [segments_rootedPath _ nothing keptPlain, List.cons.injEq]
    exact and_iff_right rfl

private theorem foldl_stem_ne_nil (base : List GoString) (front : GoString)
    (route : NamespacedRoute) :
    (base ++ segments (front ++ route.stem)).foldl (cleanStep true) [] ≠ [] := by
  have endsInRules : route.stem =
      route.stem.take (route.stem.length - 6) ++ slash :: ascii "rules" := by
    cases route <;> decide
  have ordinary : Ordinary (ascii "rules") := by
    unfold Ordinary
    decide
  rw [endsInRules, ← List.append_assoc, segments_append_slash,
    segments_of_not_mem _ ordinary.1, ← List.append_assoc, List.foldl_append,
    List.foldl_cons, List.foldl_nil, cleanStep_of_ordinary _ _ ordinary]
  exact List.cons_ne_nil _ _

theorem namespaceKept_iff_exists (endpoint : BasePath) (request : Request)
    (route : NamespacedRoute) (sent : Request) (t : GoString) :
    NamespaceKept endpoint request route sent t ↔ ∃ below : List GoString, below.length ≤ 1 ∧
      segments sent.url.path =
        [] :: (rulesBase endpoint request.method route ++ t :: below) := by
  constructor
  · rintro (alone | ⟨group, -, withGroup⟩)
    · exact ⟨[], Nat.zero_le 1, alone⟩
    · exact ⟨[group], Nat.le_refl 1, withGroup⟩
  · rintro ⟨below, short, shape⟩
    match below, short with
    | [], _ => exact Or.inl shape
    | [group], _ =>
        refine Or.inr ⟨group, ?_, shape⟩
        rw [shape]
        simp

/-- A forwarded request has no namespace, or the tenant for it.  The namespace sent upstream
is the tenant exactly when the decoded parameters lead there. -/
theorem ruleNamespace_kept_iff (endpoint : BasePath)
    (configured : config.logs.endpoints.rules = some endpoint)
    (request : Request) (valid : request.url.Valid)
    (route : NamespacedRoute) (params : Chi.Params)
    (matched : Chi.matchPattern (Chi.pattern (routePrefix ++ route.text))
      request.routingPath = some params)
    (proxy : Proxy) (sent : Request)
    (forwarded : .forwarded proxy sent ∈ gateway config env request)
    (t : GoString) (tenant : sent.context.tenant = some t) :
    (Chi.urlParam params namespaceParam = [] ∨ Chi.urlParam params namespaceParam = t) ∧
      (NamespaceKept endpoint request route sent t ↔
        LeadsToTenant endpoint request route params t) := by
  obtain ⟨sentPath, t', isTenant, agrees⟩ :=
    gateway_ruleRoute config env endpoint configured request route params matched proxy sent
      forwarded
  obtain rfl : t = t' := Option.some.inj (tenant.symm.trans isTenant)
  refine ⟨agrees, ?_⟩
  rw [Chi.pattern_append routePrefix _ (by decide), Chi.matchPattern_literals] at matched
  obtain ⟨below, whole, matchedBelow⟩ := matched
  obtain ⟨ruleNamespace, group, -, -, rfl, rfl, grouped⟩ :=
    namespaced_match route below params matchedBelow
  have isNamespace := urlParam_namespace [] ruleNamespace group
  rw [List.nil_append] at isNamespace
  have isGroup : decodedGroup request route (ruleParams ruleNamespace group) =
      (group.map (decodeParam request)).toList := by
    unfold decodedGroup
    rw [← grouped]
    cases group <;> rfl
  obtain ⟨rooted, tail, empty, parts⟩ :=
    segments_rulesPath request valid route ruleNamespace group whole
  rw [namespaceKept_iff_exists]
  unfold LeadsToTenant rulesBase
  dsimp only
  rw [sentPath, pathJoin_of_rooted _ _ endpoint.wellFormed rooted, parts, isNamespace, isGroup]
  generalize isStem : segments endpoint.path ++
    segments ((if request.method = methodGet then [] else routePrefix) ++ route.stem) = stem
  generalize isDecoded : (decodeParam request ruleNamespace ::
    (group.map (decodeParam request)).toList).flatMap segments = decoded
  have inSegments : ∀ part ∈ stem ++ (decoded ++ tail), slash ∉ part := by
    intro part member
    rw [← isStem, ← isDecoded] at member
    simp only [List.mem_append, List.mem_flatMap] at member
    rcases member with (inBase | inStem) | ⟨name, -, inName⟩ | inTail
    · exact not_mem_segments _ part inBase
    · exact not_mem_segments _ part inStem
    · exact not_mem_segments _ part inName
    · rw [empty part inTail]
      exact List.not_mem_nil
  have stemKept : stem.foldl (cleanStep true) [] ≠ [] := by
    rw [← isStem]
    exact foldl_stem_ne_nil _ _ route
  have stemPlain : ∀ name ∈ stem.foldl (cleanStep true) [], name ≠ dotDot := by
    intro name member
    exact (mem_cleanSegments stem name (List.mem_reverse.mpr member)).2.2.2
  -- Behind the stem, the empty segments at the end are skipped.
  have skipped : (decoded ++ tail).foldl (cleanStep true) (stem.foldl (cleanStep true) []) =
      decoded.foldl (cleanStep true) (stem.foldl (cleanStep true) []) := by
    rw [List.foldl_append, foldl_cleanStep_empty tail _ empty]
  rw [← List.append_assoc, isStem]
  have leads : ∀ below : List GoString, t ≠ dotDot →
      (segments (rootedPath (cleanSegments true (stem ++ (decoded ++ tail)))) =
          [] :: (cleanSegments true stem ++ t :: below) ↔
        ∃ climbed, cleanSegments false decoded = List.replicate climbed dotDot ++
          ((cleanSegments true stem).drop ((cleanSegments true stem).length - climbed) ++
            t :: below)) := by
    intro below notParent
    have first : (t :: below).head? ≠ some dotDot := fun same => notParent (Option.some.inj same)
    have isBase : cleanSegments true stem = (stem.foldl (cleanStep true) []).reverse := rfl
    rw [segments_cleaned stem _ _ stemKept inSegments (List.cons_ne_nil _ _), skipped,
      foldl_cleanStep_eq_iff _ _ _ stemPlain first, isBase, List.length_reverse]
  constructor
  · rintro ⟨below, short, shape⟩
    have notParent : t ≠ dotDot := by
      have cleaned := (segments_cleaned stem _ _ stemKept inSegments
        (List.cons_ne_nil _ _)).mp shape
      have left : t ∈ cleanSegments true (stem ++ (decoded ++ tail)) := by
        rw [cleanSegments, List.mem_reverse, List.foldl_append, cleaned]
        simp
      exact (mem_cleanSegments _ _ left).2.2.2
    obtain ⟨climbed, same⟩ := (leads below notParent).mp shape
    exact ⟨notParent, climbed, below, short, same⟩
  · rintro ⟨notParent, climbed, below, short, same⟩
    exact ⟨below, short, (leads below notParent).mpr ⟨climbed, same⟩⟩

/-- `GET /api/logs/v1/loki/api/v1/rules/a/cpu` by the tenant `a`. -/
theorem ruleNamespace_kept_cpu :
    ∃ sent, .forwarded .logsRules sent ∈ gateway (installation false true false)
        (openEnvironment Metrics.bareMetrics)
        (getRequest (ascii "/api/logs/v1/loki/api/v1/rules/a/cpu") [] []) ∧
      sent.url.path = ascii "/loki/api/v1/rules/a/cpu" ∧
      NamespaceKept ⟨[slash], Or.inr rfl⟩
        (getRequest (ascii "/api/logs/v1/loki/api/v1/rules/a/cpu") [] []) .perGroupName
        sent (ascii "a") := by
  have sends : ∃ sent ∈ sentThrough .logsRules (gateway (installation false true false)
      (openEnvironment Metrics.bareMetrics)
      (getRequest (ascii "/api/logs/v1/loki/api/v1/rules/a/cpu") [] [])),
      sent.context.tenant = some (ascii "a") ∧
        sent.url.path = ascii "/loki/api/v1/rules/a/cpu" := by
    decide +kernel
  obtain ⟨sent, isSent, tenant, path⟩ := sends
  have forwarded := (mem_sentThrough _ _ _).mp isSent
  refine ⟨sent, forwarded, path, ?_⟩
  apply (ruleNamespace_kept_iff (installation false true false)
    (openEnvironment Metrics.bareMetrics) ⟨[slash], Or.inr rfl⟩ rfl _ (Or.inl rfl)
    .perGroupName [(namespaceParam, ascii "a"), (groupNameParam, ascii "cpu")]
    (by decide +kernel) .logsRules sent forwarded _ tenant).2.mpr
  exact ⟨by decide, 0, [ascii "cpu"], Nat.le_refl 1, by decide +kernel⟩

/-- `GET /api/logs/v1/loki/api/v1/rules/a/..%2Fother`. -/
def encodedGroupRequest : Request :=
  getRequest (ascii "/api/logs/v1/loki/api/v1/rules/a/../other")
    (ascii "/api/logs/v1/loki/api/v1/rules/a/..%2Fother") []

/-- With that request the tenant `a` reads the namespace `other`. -/
theorem encodedGroup_not_kept :
    encodedGroupRequest.url.Valid ∧
    Chi.matchPattern (Chi.pattern (routePrefix ++ NamespacedRoute.perGroupName.text))
      encodedGroupRequest.routingPath =
      some [(namespaceParam, ascii "a"), (groupNameParam, ascii "..%2Fother")] ∧
    ∃ sent, .forwarded .logsRules sent ∈ gateway (installation false true false)
        (openEnvironment Metrics.bareMetrics) encodedGroupRequest ∧
      sent.context.tenant = some (ascii "a") ∧
      sent.url.path = ascii "/loki/api/v1/rules/other" ∧
      ¬ NamespaceKept ⟨[slash], Or.inr rfl⟩ encodedGroupRequest .perGroupName sent
        (ascii "a") := by
  refine ⟨Or.inr (by decide +kernel), by decide +kernel, ?_⟩
  have sends : ∃ sent ∈ sentThrough .logsRules (gateway (installation false true false)
      (openEnvironment Metrics.bareMetrics) encodedGroupRequest),
      sent.context.tenant = some (ascii "a") ∧
        sent.url.path = ascii "/loki/api/v1/rules/other" ∧
        ¬ NamespaceKept ⟨[slash], Or.inr rfl⟩ encodedGroupRequest .perGroupName sent
          (ascii "a") := by
    decide +kernel
  obtain ⟨sent, isSent, facts⟩ := sends
  exact ⟨sent, (mem_sentThrough _ _ _).mp isSent, facts⟩

example : rulePath (ascii "/rules") (ascii "a") (some (ascii "cpu")) = ascii "/rules/a/cpu" := by
  decide +kernel

end McoaGateway.Logs
