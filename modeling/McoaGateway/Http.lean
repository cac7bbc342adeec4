/-
Requests, handlers and middlewares.

A handler is modelled by what it makes observable when it serves a request:
the checks that let the request pass, the authenticators that were consulted,
the error that was answered and the request that was handed to an upstream
proxy, in this order.  A middleware maps handlers to handlers, as in the
source, so that a chain of middlewares is ordinary composition.  Responses of
upstreams are not modelled.
-/

import McoaGateway.Chi
import McoaGateway.Labels

namespace McoaGateway

open GoString

/-! ### `http.Header` and `textproto.CanonicalMIMEHeaderKey` -/

def isTokenByte (b : UInt8) : Bool :=
  (byte 'a' ≤ b && b ≤ byte 'z') || (byte 'A' ≤ b && b ≤ byte 'Z') ||
    (byte '0' ≤ b && b ≤ byte '9') || (ascii "!#$%&'*+-.^_|~").contains b ||
    b = 0x60

private def capitalise (upper : Bool) : GoString → GoString
  | [] => []
  | b :: rest =>
      let b :=
        if upper && byte 'a' ≤ b && b ≤ byte 'z' then b - 32
        else if !upper && byte 'A' ≤ b && b ≤ byte 'Z' then b + 32
        else b
      b :: capitalise (b = byte '-') rest

def canonicalHeaderKey (key : GoString) : GoString :=
  if key.all isTokenByte then capitalise true key else key

abbrev Header := List (GoString × List GoString)

def Header.values (header : Header) (key : GoString) : List GoString :=
  (List.lookup (canonicalHeaderKey key) header).getD []

def Header.get (header : Header) (key : GoString) : GoString :=
  (header.values key).headD []

def Header.set (header : Header) (key value : GoString) : Header :=
  (canonicalHeaderKey key, [value]) ::
    header.filter fun field => field.1 ≠ canonicalHeaderKey key

@[simp] theorem Header.values_set_self (header : Header) (key value : GoString) :
    (header.set key value).values key = [value] := by
  simp [Header.values, Header.set]

@[simp] theorem Header.get_set_self (header : Header) (key value : GoString) :
    (header.set key value).get key = value := by
  simp [Header.get]

theorem Header.get_set_of_ne (header : Header) (key other value : GoString)
    (different : canonicalHeaderKey other ≠ canonicalHeaderKey key) :
    (header.set key value).get other = header.get other := by
  have kept : List.lookup (canonicalHeaderKey other)
      (header.filter fun field => field.1 ≠ canonicalHeaderKey key) =
        List.lookup (canonicalHeaderKey other) header := by
    induction header with
    | nil => rfl
    | cons field rest ih =>
        by_cases removed : field.1 = canonicalHeaderKey key
        · have notHere : (canonicalHeaderKey other == field.1) = false := by
            rw [removed]
            simpa using different
          simp only [removed, ne_eq, not_true_eq_false, decide_false, Bool.false_eq_true,
            not_false_eq_true, List.filter_cons_of_neg, ih]
          rw [List.lookup_cons, notHere]
        · rw [List.filter_cons_of_pos (by simpa using removed), List.lookup_cons,
            List.lookup_cons, ih]
  have elsewhere : (canonicalHeaderKey other == canonicalHeaderKey key) = false := by
    simpa using different
  unfold Header.get Header.values Header.set
  rw [List.lookup_cons, elsewhere, kept]

/-! ### Requests -/

def methodGet : GoString := ascii "GET"

def methodPost : GoString := ascii "POST"

def methodPut : GoString := ascii "PUT"

def methodPatch : GoString := ascii "PATCH"

def methodDelete : GoString := ascii "DELETE"

inductive Status where
  -- What the server writes when a handler returns without an answer.
  | ok
  | movedPermanently
  | found
  | badRequest
  | unauthorized
  | forbidden
  | notFound
  | methodNotAllowed
  | unprocessableEntity
  | tooManyRequests
  | internalServerError
  | badGateway
deriving DecidableEq, Repr

def Status.code : Status → Nat
  | .ok => 200
  | .movedPermanently => 301
  | .found => 302
  | .badRequest => 400
  | .unauthorized => 401
  | .forbidden => 403
  | .notFound => 404
  | .methodNotAllowed => 405
  | .unprocessableEntity => 422
  | .tooManyRequests => 429
  | .internalServerError => 500
  | .badGateway => 502

structure Url where
  path : GoString
  rawPath : GoString
  rawQuery : GoString
deriving DecidableEq, Repr

structure Certificate where
  organizationalUnit : List GoString
deriving DecidableEq, Repr

structure AuthzResponseData where
  matchers : List Matcher
  matcherOp : GoString
deriving DecidableEq, Repr

/-- The authorization data of a request context: a text which is empty, or the
JSON encoding of a document, or neither. -/
inductive AuthzData where
  | empty
  | document (data : AuthzResponseData)
  | malformed
deriving DecidableEq, Repr

/-- The state of the routers in a request context. -/
structure RouteContext where
  -- Empty as long as no router or middleware has set it.
  routePath : GoString
  -- What the last lookup recorded.
  routeParams : Chi.Params
  -- What all lookups recorded.
  urlParams : Chi.Params
deriving DecidableEq, Repr

structure Context where
  tenant : Option GoString
  subject : Option GoString
  groups : Option (List GoString)
  data : Option AuthzData
  forwardedPrefix : Option GoString
  route : Option RouteContext
deriving DecidableEq, Repr

def Context.background : Context :=
  ⟨none, none, none, none, none, none⟩

/-- The parts of `http.Request` which the gateway reads or rewrites. -/
structure Request where
  method : GoString
  url : Url
  header : Header
  body : GoString
  contentLength : Int
  -- `none` for a plain connection, otherwise the peer certificates.
  tls : Option (List Certificate)
  context : Context
deriving DecidableEq, Repr

def Request.withTenant (request : Request) (tenant : GoString) : Request :=
  { request with context := { request.context with tenant := some tenant } }

@[simp] theorem Request.withTenant_tenant (request : Request) (tenant : GoString) :
    (request.withTenant tenant).context.tenant = some tenant := rfl

def Request.withRoute (request : Request) (route : RouteContext) : Request :=
  { request with context := { request.context with route := some route } }

def Request.withData (request : Request) (data : AuthzData) : Request :=
  { request with context := { request.context with data := some data } }

/-! ### Handlers -/

structure HttpError where
  status : Status
  message : GoString
deriving DecidableEq, Repr

inductive Stage where
  | tenantHeader
  | mtlsTenant
deriving DecidableEq, Repr

/-- What serving a request makes observable.  `authenticated` records that the
authenticator registered under a name was called on the request, and whether it
accepted it. -/
inductive Event (Upstream : Type) where
  | passed (stage : Stage)
  | authenticated (registered : GoString) (accepted : Bool)
  | answered (error : HttpError)
  | forwarded (upstream : Upstream) (request : Request)
deriving DecidableEq, Repr

abbrev Handler (Upstream : Type) := Request → List (Event Upstream)

abbrev Middleware (Upstream : Type) := Handler Upstream → Handler Upstream

section Handlers

variable {Upstream : Type}

def prometheusAPIError (status : Status) (message : GoString) :
    List (Event Upstream) :=
  [.answered ⟨status, message⟩]

/-- Apply a list of middlewares, the first of them outermost. -/
def chain (middlewares : List (Middleware Upstream)) : Middleware Upstream :=
  fun next => middlewares.foldr (fun middleware handler => middleware handler) next

@[simp] theorem chain_nil (next : Handler Upstream) : chain [] next = next := rfl

@[simp] theorem chain_cons (middleware : Middleware Upstream)
    (rest : List (Middleware Upstream)) (next : Handler Upstream) :
    chain (middleware :: rest) next = middleware (chain rest next) := rfl

/-- The events of a chain that did not pass the request on. -/
def Event.Refusal : Event Upstream → Prop
  | .passed _ => True
  | .authenticated _ accepted => accepted = false
  | .answered _ => True
  | .forwarded _ _ => False

/-- The handler that only shows which request reached it. -/
def deliver : Handler Unit :=
  fun request => [.forwarded () request]

/-- A middleware passes `sent` on to its next handler when it serves
`request`. -/
def PassesOn (middleware : Middleware Unit) (request sent : Request) : Prop :=
  Event.forwarded () sent ∈ middleware deliver request

end Handlers

end McoaGateway
