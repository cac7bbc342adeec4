/-
The traces router (`api/traces/v1/http.go`).

Three groups of routes, each with middlewares of its own.  The options set the
middlewares; a group for which no option was given has none.
-/

import McoaGateway.Server

namespace McoaGateway.Traces

open GoString

structure Endpoints where
  read : Option BasePath
  readTemplate : GoString
  tempo : Option BasePath
  writeOTLPHttp : Option BasePath

structure HandlerConfiguration where
  readMiddlewares : List (Middleware Proxy)
  writeMiddlewares : List (Middleware Proxy)
  tempoMiddlewares : List (Middleware Proxy)

abbrev HandlerOption := HandlerConfiguration → HandlerConfiguration

def withReadMiddleware (m : Middleware Proxy) : HandlerOption :=
  fun h => { h with readMiddlewares := h.readMiddlewares ++ [m] }

def withTempoMiddleware (m : Middleware Proxy) : HandlerOption :=
  fun h => { h with tempoMiddlewares := h.tempoMiddlewares ++ [m] }

def withWriteMiddleware (m : Middleware Proxy) : HandlerOption :=
  fun h => { h with writeMiddlewares := h.writeMiddlewares ++ [m] }

def configure (opts : List HandlerOption) : HandlerConfiguration :=
  opts.foldl (fun c o => o c) ⟨[], [], []⟩

/-- The path of the upstream URL that a template gives for a tenant; `none` when
it does not parse, which makes the director panic. -/
abbrev ExpandTemplatedUpstream := GoString → GoString → Option BasePath

def proxyReadTemplate (expand : ExpandTemplatedUpstream) (readTemplate : GoString) :
    Handler Proxy :=
  fun request =>
    match expand readTemplate (request.context.tenant.getD []) with
    | some upstream =>
        reverseProxy .tracesRead [setUpstream upstream.path, setPrefixHeader] request
    | none => [.answered ⟨.internalServerError, []⟩]

def proxyRead (expand : ExpandTemplatedUpstream) (endpoints : Endpoints) :
    Handler Proxy :=
  match endpoints.read with
  | some read => reverseProxy .tracesRead [setUpstream read.path, setPrefixHeader]
  | none => proxyReadTemplate expand endpoints.readTemplate

def readRoutes (c : HandlerConfiguration) (proxy : Handler Proxy) : Router Proxy :=
  Router.group c.readMiddlewares
    (Router.method methodGet (ascii "/api/traces*") proxy ++
      Router.method methodGet (ascii "/api/services*") proxy ++
      Router.method methodGet (ascii "/api/dependencies*") proxy ++
      Router.method methodGet (ascii "/api/metrics*") proxy ++
      Router.method methodGet (ascii "/static/*") proxy ++
      Router.method methodGet (ascii "/search*") proxy ++
      Router.method methodGet (ascii "/trace/*") proxy ++
      Router.method methodGet (ascii "/dependencies") proxy ++
      Router.method methodGet (ascii "/monitor") proxy ++
      Router.method methodGet (ascii "/favicon.ico") proxy)

def writeRoutes (c : HandlerConfiguration) (writeOTLPHttp : BasePath) : Router Proxy :=
  Router.group c.writeMiddlewares
    (Router.method methodPost (ascii "/v1/traces")
      (reverseProxy .tracesOTLP [setUpstream writeOTLPHttp.path, setPrefixHeader]))

def tempoRoute : GoString := ascii "/tempo/api"

def tempoProxyRead (tempo : BasePath) : Handler Proxy :=
  reverseProxy .tempo
    [removeURLPrefix (ascii "tempo"), setUpstream tempo.path, setPrefixHeader]

def tempoRoutes (c : HandlerConfiguration) (tempo : BasePath) : Router Proxy :=
  Router.group c.tempoMiddlewares
    (Router.method methodGet (tempoRoute ++ Chi.star) (tempoProxyRead tempo))

def newV2Handler (expand : ExpandTemplatedUpstream) (endpoints : Endpoints)
    (c : HandlerConfiguration) : Router Proxy :=
  (if endpoints.read.isSome ∨ endpoints.readTemplate ≠ [] then
      readRoutes c (proxyRead expand endpoints)
    else []) ++
    endpoints.writeOTLPHttp.elim [] (writeRoutes c) ++
    endpoints.tempo.elim [] (tempoRoutes c)

end McoaGateway.Traces
