/-
The logs router (`api/logs/v1/http.go`) and the check of rule namespaces
(`api/logs/v1/rules.go`).
-/

import McoaGateway.Server

namespace McoaGateway.Logs

open GoString

def labelRoute : GoString := ascii "/loki/api/v1/label"

def labelsRoute : GoString := ascii "/loki/api/v1/labels"

def labelValuesRoute : GoString := ascii "/loki/api/v1/label/{name}/values"

def queryRoute : GoString := ascii "/loki/api/v1/query"

def queryRangeRoute : GoString := ascii "/loki/api/v1/query_range"

def seriesRoute : GoString := ascii "/loki/api/v1/series"

def tailRoute : GoString := ascii "/loki/api/v1/tail"

def rulesRoute : GoString := ascii "/loki/api/v1/rules"

def rulesPerNamespaceRoute : GoString := ascii "/loki/api/v1/rules/{namespace}"

def rulesPerGroupNameRoute : GoString :=
  ascii "/loki/api/v1/rules/{namespace}/{groupName}"

def volumeRoute : GoString := ascii "/loki/api/v1/index/volume"

def volumeRangeRoute : GoString := ascii "/loki/api/v1/index/volume_range"

def patternsRoute : GoString := ascii "/loki/api/v1/patterns"

def detectedLabelsRoute : GoString := ascii "/loki/api/v1/detected_labels"

def detectedFieldRoute : GoString := ascii "/loki/api/v1/detected_field"

def detectedFieldsRoute : GoString := ascii "/loki/api/v1/detected_fields"

def otlpRoute : GoString := ascii "/otlp/v1/logs"

def pushRoute : GoString := ascii "/loki/api/v1/push"

def prometheusRulesRoute : GoString := ascii "/prometheus/api/v1/rules"

def prometheusAlertsRoute : GoString := ascii "/prometheus/api/v1/alerts"

def promQueryRoute : GoString := ascii "/api/prom/query"

def promLabelRoute : GoString := ascii "/api/prom/label"

def promLabelValuesRoute : GoString := ascii "/api/prom/label/{name}/values"

def promSeriesRoute : GoString := ascii "/api/prom/series"

def promTailRoute : GoString := ascii "/api/prom/tail"

def promRulesRoute : GoString := ascii "/api/prom/rules"

def promRulesPerNamespaceRoute : GoString := ascii "/api/prom/rules/{namespace}"

def promRulesPerGroupNameRoute : GoString :=
  ascii "/api/prom/rules/{namespace}/{groupName}"

def routePrefix : GoString := ascii "/api/logs/v1"

structure Endpoints where
  read : Option BasePath
  tail : Option BasePath
  write : Option BasePath
  rules : Option BasePath

structure HandlerConfiguration where
  readMiddlewares : List (Middleware Proxy)
  writeMiddlewares : List (Middleware Proxy)
  rulesReadMiddlewares : List (Middleware Proxy)
  rulesWriteMiddlewares : List (Middleware Proxy)

def proxyTo (proxy : Proxy) (endpoint : BasePath) : Handler Proxy :=
  reverseProxy proxy [setUpstream endpoint.path, setPrefixHeader]

def readRoutes (c : HandlerConfiguration) (endpoint : BasePath) : Router Proxy :=
  let proxyRead := proxyTo .logsRead endpoint
  Router.group (c.readMiddlewares ++ [stripPrefix routePrefix])
    (Router.handle queryRoute proxyRead ++
      Router.handle queryRangeRoute proxyRead ++
      Router.handle labelRoute proxyRead ++
      Router.handle labelsRoute proxyRead ++
      Router.handle volumeRoute proxyRead ++
      Router.handle volumeRangeRoute proxyRead ++
      Router.handle labelValuesRoute proxyRead ++
      Router.handle seriesRoute proxyRead ++
      Router.handle promQueryRoute proxyRead ++
      Router.handle promLabelRoute proxyRead ++
      Router.handle promLabelValuesRoute proxyRead ++
      Router.handle promSeriesRoute proxyRead ++
      Router.handle patternsRoute proxyRead ++
      Router.handle detectedLabelsRoute proxyRead ++
      Router.handle detectedFieldRoute proxyRead ++
      Router.handle detectedFieldsRoute proxyRead)

def rulesReadRoutes (c : HandlerConfiguration) (endpoint : BasePath) : Router Proxy :=
  let proxyRules := proxyTo .logsRules endpoint
  let proxyPrometheusReadRules := proxyTo .logsPrometheusRules endpoint
  Router.group (c.readMiddlewares ++ c.rulesReadMiddlewares ++ [stripPrefix routePrefix])
    (Router.method methodGet rulesRoute proxyRules ++
      Router.method methodGet rulesPerNamespaceRoute proxyRules ++
      Router.method methodGet rulesPerGroupNameRoute proxyRules ++
      Router.method methodGet prometheusRulesRoute proxyPrometheusReadRules ++
      Router.method methodGet prometheusAlertsRoute proxyPrometheusReadRules ++
      Router.method methodGet promRulesRoute proxyRules ++
      Router.method methodGet promRulesPerNamespaceRoute proxyRules ++
      Router.method methodGet promRulesPerGroupNameRoute proxyRules)

/-- Unlike the other groups, this one keeps the prefix of the path. -/
def rulesWriteRoutes (c : HandlerConfiguration) (endpoint : BasePath) : Router Proxy :=
  let proxyRules := proxyTo .logsRules endpoint
  Router.group (c.writeMiddlewares ++ c.rulesWriteMiddlewares)
    (Router.method methodPost rulesPerNamespaceRoute proxyRules ++
      Router.method methodDelete rulesPerNamespaceRoute proxyRules ++
      Router.method methodDelete rulesPerGroupNameRoute proxyRules ++
      Router.method methodPost promRulesPerNamespaceRoute proxyRules ++
      Router.method methodDelete promRulesPerNamespaceRoute proxyRules ++
      Router.method methodDelete promRulesPerGroupNameRoute proxyRules)

def tailRoutes (c : HandlerConfiguration) (endpoint : BasePath) : Router Proxy :=
  let tailRead := proxyTo .logsTail endpoint
  Router.group (c.readMiddlewares ++ [stripPrefix routePrefix])
    (Router.handle tailRoute tailRead ++ Router.handle promTailRoute tailRead)

def writeRoutes (c : HandlerConfiguration) (endpoint : BasePath) : Router Proxy :=
  let proxyWrite := proxyTo .logsWrite endpoint
  Router.group (c.writeMiddlewares ++ [stripPrefix routePrefix])
    (Router.handle otlpRoute proxyWrite ++ Router.handle pushRoute proxyWrite)

def newHandler (endpoints : Endpoints) (rulesReadOnly : Bool)
    (c : HandlerConfiguration) : Router Proxy :=
  endpoints.read.elim [] (readRoutes c) ++
    endpoints.rules.elim [] (fun rules =>
      rulesReadRoutes c rules ++
        if rulesReadOnly then [] else rulesWriteRoutes c rules) ++
    endpoints.tail.elim [] (tailRoutes c) ++
    endpoints.write.elim [] (writeRoutes c)

/-! ### Rule namespaces -/

def namespaceParam : GoString := ascii "namespace"

def groupNameParam : GoString := ascii "groupName"

/-- The answer of the check, if it does not pass the request on. -/
def ruleNamespaceError (request : Request) : Option HttpError :=
  match request.context.tenant with
  | none => some ⟨.unauthorized, ascii "error finding tenant ID"⟩
  | some tenant =>
      match request.context.route with
      | none => some ⟨.internalServerError, ascii "error finding route context"⟩
      | some route =>
          let group := Chi.urlParam route.urlParams groupNameParam
          let ruleNamespace := Chi.urlParam route.urlParams namespaceParam
          -- The ruler discovery of Grafana asks for this group.
          if ruleNamespace = ascii "test" ∧ group = ascii "test" then
            some ⟨.notFound, ascii "page not found"⟩
          else if ruleNamespace ≠ [] ∧ tenant ≠ ruleNamespace then
            some ⟨.badRequest, ascii "error tenant not matching namespace"⟩
          else none

def withEnforceTenantAsRuleNamespace {Upstream : Type} : Middleware Upstream :=
  fun next request =>
    match ruleNamespaceError request with
    | some error => [.answered error]
    | none => next request

end McoaGateway.Logs
