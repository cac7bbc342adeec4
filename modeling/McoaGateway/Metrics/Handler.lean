/-
The metrics routers (`api/metrics/v1/http.go`, `api/metrics/legacy/http.go`).

A handler is built from its endpoints and from the middlewares of each group of
routes.  The middlewares that only label metrics and traces are left out.
-/

import McoaGateway.Server

namespace McoaGateway.Metrics

open GoString

def uiRoute : GoString := ascii "/"

def queryRoute : GoString := ascii "/api/v1/query"

def queryRangeRoute : GoString := ascii "/api/v1/query_range"

def seriesRoute : GoString := ascii "/api/v1/series"

def labelNamesRoute : GoString := ascii "/api/v1/labels"

def labelValuesRoute : GoString := ascii "/api/v1/label/{label_name}/values"

def receiveRoute : GoString := ascii "/api/v1/receive"

def rulesRoute : GoString := ascii "/api/v1/rules"

def rulesRawRoute : GoString := ascii "/api/v1/rules/raw"

def alertmanagerAlertsRoute : GoString := ascii "/am/api/v2/alerts"

def alertmanagerSilencesRoute : GoString := ascii "/am/api/v2/silences"

def alertmanagerSilenceRoute : GoString := ascii "/am/api/v2/silence/{silenceID}"

def routePrefix : GoString := ascii "/api/metrics/v1"

def alertmanagerPrefix : GoString := ascii "/api/metrics/v1/am"

structure Endpoints where
  readEndpoint : Option BasePath
  writeEndpoint : Option BasePath
  rulesEndpoint : Option BasePath
  alertmanagerEndpoint : Option BasePath

structure AlertmanagerMiddleware where
  alertsReadMiddlewares : List (Middleware Proxy)
  silenceReadMiddlewares : List (Middleware Proxy)
  silenceWriteMiddlewares : List (Middleware Proxy)
  silenceIDReadMiddlewares : List (Middleware Proxy)
  silenceIDWriteMiddlewares : List (Middleware Proxy)

/-- The checks which the handler itself puts before the Alertmanager; what they
require of a request does not matter here. -/
structure AlertmanagerEnforcers where
  tenancyOnFilter : Filter
  tenancyOnSilenceMatchers : Filter
  tenancyOnSilenceID : Filter

structure HandlerConfiguration where
  uiMiddlewares : List (Middleware Proxy)
  queryMiddlewares : List (Middleware Proxy)
  readMiddlewares : List (Middleware Proxy)
  writeMiddlewares : List (Middleware Proxy)
  alertmanagerMiddleware : AlertmanagerMiddleware
  enforcers : AlertmanagerEnforcers

def HandlerConfiguration.empty (enforcers : AlertmanagerEnforcers) :
    HandlerConfiguration :=
  ⟨[], [], [], [], ⟨[], [], [], [], []⟩, enforcers⟩

/-! ### Options -/

abbrev HandlerOption := HandlerConfiguration → HandlerConfiguration

def withReadMiddleware (m : Middleware Proxy) : HandlerOption :=
  fun h => { h with readMiddlewares := h.readMiddlewares ++ [m] }

def withQueryMiddleware (m : Middleware Proxy) : HandlerOption :=
  fun h => { h with queryMiddlewares := h.queryMiddlewares ++ [m] }

def withUIMiddleware (m : Middleware Proxy) : HandlerOption :=
  fun h => { h with uiMiddlewares := h.uiMiddlewares ++ [m] }

def withWriteMiddleware (m : Middleware Proxy) : HandlerOption :=
  fun h => { h with writeMiddlewares := h.writeMiddlewares ++ [m] }

def withGlobalMiddleware (m : List (Middleware Proxy)) : HandlerOption :=
  fun h =>
    { h with
      uiMiddlewares := h.uiMiddlewares ++ m
      queryMiddlewares := h.queryMiddlewares ++ m
      readMiddlewares := h.readMiddlewares ++ m
      alertmanagerMiddleware :=
        { alertsReadMiddlewares := h.alertmanagerMiddleware.alertsReadMiddlewares ++ m
          silenceReadMiddlewares := h.alertmanagerMiddleware.silenceReadMiddlewares ++ m
          silenceWriteMiddlewares :=
            h.alertmanagerMiddleware.silenceWriteMiddlewares ++ m
          silenceIDReadMiddlewares :=
            h.alertmanagerMiddleware.silenceIDReadMiddlewares ++ m
          silenceIDWriteMiddlewares :=
            h.alertmanagerMiddleware.silenceIDWriteMiddlewares ++ m } }

def configure (enforcers : AlertmanagerEnforcers) (opts : List HandlerOption) :
    HandlerConfiguration :=
  opts.foldl (fun c o => o c) (.empty enforcers)

/-! ### The router -/

def proxyTo (proxy : Proxy) (endpoint : BasePath) : Handler Proxy :=
  reverseProxy proxy [setUpstream endpoint.path, setPrefixHeader]

/-- A group with one prefix to strip behind its middlewares. -/
def strippedGroup (middlewares : List (Middleware Proxy)) (start : GoString)
    (router : Router Proxy) : Router Proxy :=
  Router.group (middlewares ++ [stripPrefix start]) router

def readRoutes (c : HandlerConfiguration) (endpoint : BasePath) : Router Proxy :=
  strippedGroup c.queryMiddlewares routePrefix
      (Router.handle queryRoute (proxyTo .metricsQuery endpoint)) ++
    strippedGroup c.queryMiddlewares routePrefix
      (Router.handle queryRangeRoute (proxyTo .metricsQuery endpoint)) ++
    strippedGroup c.readMiddlewares routePrefix
      (Router.handle seriesRoute (proxyTo .metricsRead endpoint)) ++
    strippedGroup c.readMiddlewares routePrefix
      (Router.handle labelNamesRoute (proxyTo .metricsRead endpoint)) ++
    strippedGroup c.readMiddlewares routePrefix
      (Router.handle labelValuesRoute (proxyTo .metricsRead endpoint)) ++
    strippedGroup c.readMiddlewares routePrefix
      (Router.handle rulesRoute (proxyTo .metricsRead endpoint)) ++
    strippedGroup c.uiMiddlewares routePrefix
      (Router.mount uiRoute (proxyTo .metricsUI endpoint))

def writeRoutes (c : HandlerConfiguration) (endpoint : BasePath) : Router Proxy :=
  strippedGroup c.writeMiddlewares routePrefix
    (Router.handle receiveRoute (proxyTo .metricsWrite endpoint))

/-- The raw rules go through a client of the rules endpoint; its call is the
event that stands for it. -/
def rulesRoutes (c : HandlerConfiguration) : Router Proxy :=
  strippedGroup c.uiMiddlewares routePrefix
      (Router.method methodGet rulesRawRoute (reverseProxy .metricsRulesGet [])) ++
    strippedGroup c.writeMiddlewares routePrefix
      (Router.method methodPut rulesRawRoute (reverseProxy .metricsRulesPut []))

def alertmanagerRoutes (c : HandlerConfiguration) (endpoint : BasePath) :
    Router Proxy :=
  let am := c.alertmanagerMiddleware
  let proxyAlertmanager := proxyTo .metricsAlertmanager endpoint
  strippedGroup
      (am.alertsReadMiddlewares ++ [c.enforcers.tenancyOnFilter.middleware])
      alertmanagerPrefix
      (Router.method methodGet alertmanagerAlertsRoute proxyAlertmanager) ++
    strippedGroup
      (am.silenceReadMiddlewares ++ [c.enforcers.tenancyOnFilter.middleware])
      alertmanagerPrefix
      (Router.method methodGet alertmanagerSilencesRoute proxyAlertmanager) ++
    strippedGroup
      (am.silenceWriteMiddlewares ++ [c.enforcers.tenancyOnSilenceMatchers.middleware])
      alertmanagerPrefix
      (Router.method methodPost alertmanagerSilencesRoute proxyAlertmanager) ++
    strippedGroup
      (am.silenceIDReadMiddlewares ++ [c.enforcers.tenancyOnSilenceID.middleware])
      alertmanagerPrefix
      (Router.method methodGet alertmanagerSilenceRoute proxyAlertmanager) ++
    strippedGroup
      (am.silenceIDWriteMiddlewares ++ [c.enforcers.tenancyOnSilenceID.middleware])
      alertmanagerPrefix
      (Router.method methodDelete alertmanagerSilenceRoute proxyAlertmanager)

def newHandler (endpoints : Endpoints) (c : HandlerConfiguration) : Router Proxy :=
  (endpoints.readEndpoint.elim [] (readRoutes c)) ++
    (endpoints.writeEndpoint.elim [] (writeRoutes c)) ++
    (endpoints.rulesEndpoint.elim [] fun _ => rulesRoutes c) ++
    (endpoints.alertmanagerEndpoint.elim [] (alertmanagerRoutes c))

/-! ### The legacy router -/

/-- Without an upstream the director panics, and the server answers. -/
def legacyProxy (url : Option BasePath) : Handler Proxy :=
  match url with
  | some endpoint => reverseProxy .metricsLegacy [setUpstream endpoint.path]
  | none => fun _ => [.answered ⟨.internalServerError, []⟩]

def legacyHandler (url : Option BasePath) (globalMiddlewares : List (Middleware Proxy)) :
    Router Proxy :=
  Router.group globalMiddlewares (Router.handle queryRoute (legacyProxy url)) ++
    Router.group globalMiddlewares (Router.handle queryRangeRoute (legacyProxy url)) ++
    Router.group globalMiddlewares
      (Router.handle (ascii "/graph") fun _ => [.answered ⟨.movedPermanently, []⟩])

end McoaGateway.Metrics
