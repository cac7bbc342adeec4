/-
Rate limits of tenants (`ratelimit/http.go`).

Each configuration has a limiter, in memory or behind a shared client, and
`combine` chooses one of them by the tenant string of the request context and
by the path.  Serving a request is state passing: the limiter that was asked
and its verdict are kept next to the result.
-/

import McoaGateway.Authentication.Providers
import McoaGateway.RateLimit.Gcra
import McoaGateway.Server

namespace McoaGateway.RateLimit

open GoString

/-- `Config`; a compiled expression is given by what it matches and by its
text. -/
structure Config where
  tenant : GoString
  matcher : GoString → Bool
  expression : GoString
  limit : Int
  -- In milliseconds.
  window : Int
  failOpen : Bool

inductive LimiterId where
  | inMemory (index : Nat)
  | shared (key : GoString)
deriving DecidableEq, Repr

/-- An element of the lists in `middlewares`. -/
structure Limiter where
  matcher : GoString → Bool
  id : LimiterId
  limit : Int
  window : Int
  failOpen : Bool

inductive Backend where
  | inMemory
  | shared
deriving DecidableEq, Repr

/-- Each configuration has a limiter of its own in memory; the shared ones are
told apart by their keys. -/
def Config.limiter (backend : Backend) (c : Config) (index : Nat) : Limiter where
  matcher := c.matcher
  limit := c.limit
  window := c.window
  id :=
    match backend with
    | .inMemory => .inMemory index
    | .shared => .shared (c.tenant ++ byte ':' :: c.expression)
  failOpen :=
    match backend with
    | .inMemory => false
    | .shared => c.failOpen

/-- The map of the source; a later entry for a key hides the earlier ones. -/
abbrev Middlewares := List (GoString × List Limiter)

def Middlewares.add (middlewares : Middlewares) (tenant : GoString) (limiter : Limiter) :
    Middlewares :=
  (tenant, (List.lookup tenant middlewares).getD [] ++ [limiter]) :: middlewares

/-- The loop of `WithLocalRateLimiter` and of `WithSharedRateLimiter`. -/
def middlewaresOf (backend : Backend) (configs : List Config) : Middlewares :=
  configs.zipIdx.foldl
    (fun middlewares c => middlewares.add c.1.tenant (c.1.limiter backend c.2)) []

/-- What a limiter says when it is asked for one unit. -/
inductive Verdict where
  | admitted
  | overLimit
  | failed (message : GoString)
deriving DecidableEq, Repr

/-- `RedisRateLimiter.GetRateLimits` when the script runs at the time `now`. -/
def getRateLimits (now : ℚ) (limiter : Limiter) (keys : LimiterId → Option Stored) :
    Verdict × (LimiterId → Option Stored) :=
  let (answer, stored) :=
    gcraRateLimit ⟨limiter.limit, limiter.limit, limiter.window, 1⟩ now (keys limiter.id)
  (if answer.limited then .overLimit else .admitted,
    fun id => if id = limiter.id then stored else keys id)

/-- What became of a request, and the limiter it asked. -/
structure Served where
  asked : Option (LimiterId × Verdict)
  result : Except HttpError Request
deriving DecidableEq

section

variable {Store : Type} (take : Limiter → Store → Verdict × Store)

def Limiter.result (limiter : Limiter) (verdict : Verdict) (request : Request) :
    Except HttpError Request :=
  match verdict with
  | .admitted => .ok request
  | .overLimit => .error ⟨.tooManyRequests, ascii "Too Many Requests"⟩
  | .failed message =>
      if limiter.failOpen then .ok request else .error ⟨.internalServerError, message⟩

def Limiter.handler (limiter : Limiter) (store : Store) (request : Request) :
    Served × Store :=
  let (verdict, store) := take limiter store
  (⟨some (limiter.id, verdict), limiter.result verdict request⟩, store)

def Middlewares.select (middlewares : Middlewares) (tenant : GoString) :
    Option (List Limiter) :=
  match List.lookup tenant middlewares with
  | some tms => some tms
  | none => List.lookup defaultTenantName middlewares

def combine (middlewares : Middlewares) (store : Store) (request : Request) :
    Served × Store :=
  match request.context.tenant with
  | none => (⟨none, .error ⟨.unauthorized, ascii "error finding tenant"⟩⟩, store)
  | some tenant =>
      match middlewares.select tenant with
      | none => (⟨none, .ok request⟩, store)
      | some tms =>
          match tms.find? fun m => m.matcher request.url.path with
          | none => (⟨none, .ok request⟩, store)
          | some m => m.handler take store request

/-- A request through the tenant header and the rate limits. -/
def serve (tenantHeader : GoString) (middlewares : Middlewares) (store : Store)
    (request : Request) : Served × Store :=
  match tenantsFromHeader tenantHeader (request.header.values tenantHeader) with
  | .error error => (⟨none, .error error⟩, store)
  | .ok names =>
      combine take middlewares store (request.withTenant (join (byte '|') names))

theorem combine_ok (middlewares : Middlewares) (store : Store) (request sent : Request)
    (passes : (combine take middlewares store request).1.result = .ok sent) :
    sent = request := by
  have passed : ∀ own : Request, (Except.ok own : Except HttpError Request) = .ok sent →
      sent = own := fun own same => (Except.ok.inj same).symm
  unfold combine at passes
  split at passes
  · cases passes
  · split at passes
    · exact passed request passes
    · split at passes
      · exact passed request passes
      · rename_i m _
        change m.result (take m store).1 request = _ at passes
        unfold Limiter.result at passes
        split at passes
        · exact passed request passes
        · cases passes
        · split at passes
          · exact passed request passes
          · cases passes

/-- The rate limits as the gateway's wiring uses them, at one moment. -/
def rateLimitFilter (middlewares : Middlewares) (store : Store) : Filter where
  run request := (combine take middlewares store request).1.result
  keeps := by
    intro request sent passes
    rw [combine_ok take middlewares store request sent passes]
    exact ⟨rfl, rfl, rfl, rfl⟩

/-! ### The limiters of a tenant -/

variable (backend : Backend) (configs : List Config)

def ownLimiters (tenant : GoString) : List Limiter :=
  (configs.zipIdx.filter fun c => c.1.tenant = tenant).map fun c => c.1.limiter backend c.2

omit take in
theorem lookup_middlewaresOf (tenant : GoString) :
    List.lookup tenant (middlewaresOf backend configs) =
      if ownLimiters backend configs tenant = [] then none
      else some (ownLimiters backend configs tenant) := by
  have general : ∀ (entries : List (Config × Nat)) (middlewares : Middlewares),
      List.lookup tenant (entries.foldl (fun middlewares c =>
          Middlewares.add middlewares c.1.tenant (c.1.limiter backend c.2)) middlewares) =
        if (entries.filter fun c => c.1.tenant = tenant) = [] then
          List.lookup tenant middlewares
        else some ((List.lookup tenant middlewares).getD [] ++
          (entries.filter fun c => c.1.tenant = tenant).map
            fun c => c.1.limiter backend c.2) := by
    intro entries
    induction entries with
    | nil =>
        intro middlewares
        rfl
    | cons entry entries ih =>
        intro middlewares
        rw [List.foldl_cons, ih]
        by_cases own : entry.1.tenant = tenant
        · have found : List.lookup tenant
              (Middlewares.add middlewares entry.1.tenant (entry.1.limiter backend entry.2)) =
                some ((List.lookup tenant middlewares).getD [] ++
                  [entry.1.limiter backend entry.2]) := by
            rw [Middlewares.add, own, List.lookup_cons_self]
          rw [found, List.filter_cons_of_pos (by simpa using own), if_neg (List.cons_ne_nil _ _)]
          split
          · rename_i isEmpty
            rw [isEmpty]
            rfl
          · rw [Option.getD_some, List.map_cons, List.append_assoc, List.singleton_append]
        · have kept : List.lookup tenant
              (Middlewares.add middlewares entry.1.tenant (entry.1.limiter backend entry.2)) =
                List.lookup tenant middlewares := by
            have different : (tenant == entry.1.tenant) = false := by
              simpa using fun same => own same.symm
            rw [Middlewares.add, List.lookup_cons, different]
          rw [kept, List.filter_cons_of_neg (by simpa using own)]
  rw [middlewaresOf, general, ownLimiters]
  simp only [List.lookup_nil, Option.getD_none, List.nil_append, List.map_eq_nil_iff]

def limitersFor (tenant : GoString) : List Limiter :=
  if ownLimiters backend configs tenant = [] then ownLimiters backend configs defaultTenantName
  else ownLimiters backend configs tenant

theorem combine_middlewaresOf (store : Store) (request : Request) (tenant : GoString)
    (isTenant : request.context.tenant = some tenant) :
    combine take (middlewaresOf backend configs) store request =
      ((limitersFor backend configs tenant).find? fun m => m.matcher request.url.path).elim
        (⟨none, .ok request⟩, store) (fun m => m.handler take store request) := by
  have unlimited : ∀ tms : List Limiter,
      (match tms.find? fun m => m.matcher request.url.path with
        | none => ((⟨none, .ok request⟩ : Served), store)
        | some m => m.handler take store request) =
      (tms.find? fun m => m.matcher request.url.path).elim
        (⟨none, .ok request⟩, store) (fun m => m.handler take store request) := by
    intro tms
    cases tms.find? fun m => m.matcher request.url.path with
    | none => rfl
    | some m => rfl
  rw [combine, isTenant]
  dsimp only
  rw [Middlewares.select, lookup_middlewaresOf, lookup_middlewaresOf, limitersFor]
  by_cases own : ownLimiters backend configs tenant = []
  · rw [if_pos own, if_pos own]
    dsimp only
    by_cases none : ownLimiters backend configs defaultTenantName = []
    · rw [if_pos none, none]
      rfl
    · rw [if_neg none]
      exact unlimited _
  · rw [if_neg own, if_neg own]
    exact unlimited _

/-! ### The limiter of one named tenant -/

/-- The request took one unit from a limiter, or was not passed on. -/
def TakesUnit (served : Served) (limiter : Limiter) : Prop :=
  (∃ error, served.result = .error error) ∨ served.asked = some (limiter.id, .admitted)

instance (served : Served) (limiter : Limiter) : Decidable (TakesUnit served limiter) := by
  unfold TakesUnit
  cases served.result with
  | error error => exact .isTrue (Or.inl ⟨error, rfl⟩)
  | ok sent =>
      exact decidable_of_iff (served.asked = some (limiter.id, .admitted)) (by simp)

def Limiter.Refuses (limiter : Limiter) (store : Store) : Prop :=
  (take limiter store).1 = .overLimit ∨
    (∃ message, (take limiter store).1 = .failed message) ∧ limiter.failOpen = false

def Limiter.FailsOpen (limiter : Limiter) (store : Store) : Prop :=
  (∃ message, (take limiter store).1 = .failed message) ∧ limiter.failOpen = true

theorem takesUnit_handler (limiter own : Limiter) (store : Store) (request : Request) :
    TakesUnit (limiter.handler take store request).1 own ↔
      limiter.Refuses take store ∨
        limiter.id = own.id ∧ (take limiter store).1 = .admitted := by
  unfold TakesUnit Limiter.Refuses
  change (∃ error, limiter.result (take limiter store).1 request = .error error) ∨
      some (limiter.id, (take limiter store).1) = some (own.id, .admitted) ↔ _
  rw [Option.some.injEq, Prod.mk.injEq]
  cases (take limiter store).1 with
  | admitted => simp [Limiter.result]
  | overLimit => simp [Limiter.result]
  | failed message =>
      cases opens : limiter.failOpen with
      | true => simp [Limiter.result, opens]
      | false => simp [Limiter.result, opens]

theorem takesUnit_own (limiter : Limiter) (store : Store) (request : Request) :
    TakesUnit (limiter.handler take store request).1 limiter ↔
      ¬ limiter.FailsOpen take store := by
  rw [takesUnit_handler]
  unfold Limiter.Refuses Limiter.FailsOpen
  cases (take limiter store).1 with
  | admitted => simp
  | overLimit => simp
  | failed message => simp

/-- When a tenant's own limiter counts, for a header that lists `names`: the
header names it alone and the limiter does not fail open, or the limiter for
the joined names refuses the request or is the same one. -/
def OwnLimitCounts (store : Store) (names : List GoString) (tenant path : GoString)
    (own : Limiter) : Prop :=
  if names = [tenant] then ¬ own.FailsOpen take store
  else ∃ other, (limitersFor backend configs (join (byte '|') names)).find?
        (fun m => m.matcher path) = some other ∧
      (other.Refuses take store ∨ other.id = own.id ∧ (take other store).1 = .admitted)

theorem limitersFor_own (tenant : GoString)
    (configured : ownLimiters backend configs tenant ≠ []) :
    limitersFor backend configs tenant = ownLimiters backend configs tenant :=
  if_neg configured

theorem takesUnit_iff (tenantHeader : GoString) (store : Store) (request : Request)
    (names : List GoString) (tenant : GoString) (own : Limiter)
    (accepted : tenantsFromHeader tenantHeader (request.header.values tenantHeader) = .ok names)
    (isOwn : (ownLimiters backend configs tenant).find?
      (fun m => m.matcher request.url.path) = some own) :
    TakesUnit (serve take tenantHeader (middlewaresOf backend configs) store request).1 own ↔
      OwnLimitCounts take backend configs store names tenant request.url.path own := by
  rw [serve, accepted]
  dsimp only
  rw [combine_middlewaresOf take backend configs store _ _ (Request.withTenant_tenant _ _)]
  rw [show (request.withTenant (join (byte '|') names)).url.path = request.url.path from rfl]
  unfold OwnLimitCounts
  split
  · rename_i alone
    have configured : ownLimiters backend configs tenant ≠ [] := by
      intro isEmpty
      rw [isEmpty] at isOwn
      cases isOwn
    have joined : join (byte '|') names = tenant := by
      rw [alone]
      simp [join]
    rw [joined, limitersFor_own backend configs tenant configured, isOwn, Option.elim_some]
    exact takesUnit_own take own store _
  · cases (limitersFor backend configs (join (byte '|') names)).find?
        fun m => m.matcher request.url.path with
    | none => simp [TakesUnit]
    | some other =>
        rw [Option.elim_some, takesUnit_handler]
        simp only [Option.some.injEq, exists_eq_left']

/-! ### Sequences of requests -/

structure Step (Store : Type) where
  request : Request
  store : Store
  served : Served

/-- The requests in sequence, each with the store it met. -/
def trace (tenantHeader : GoString) (middlewares : Middlewares) :
    Store → List Request → List (Step Store)
  | _, [] => []
  | store, request :: rest =>
      let served := serve take tenantHeader middlewares store request
      ⟨request, store, served.1⟩ :: trace tenantHeader middlewares served.2 rest

theorem trace_served (tenantHeader : GoString) (middlewares : Middlewares) (store : Store)
    (requests : List Request) (step : Step Store)
    (member : step ∈ trace take tenantHeader middlewares store requests) :
    step.served = (serve take tenantHeader middlewares step.store step.request).1 := by
  induction requests generalizing store with
  | nil => cases member
  | cons request rest ih =>
      rw [trace] at member
      rcases List.mem_cons.mp member with isFirst | inRest
      · rw [isFirst]
      · exact ih _ inRest

/-- A forwarded request that reads a tenant's data on a path. -/
def Step.Forwards (tenantHeader tenant path : GoString) (step : Step Store) : Bool :=
  step.served.result.isOk && step.request.url.path == path &&
    match tenantsFromHeader tenantHeader (step.request.header.values tenantHeader) with
    | .ok names => names.contains tenant
    | .error _ => false

def Step.Admits (id : LimiterId) (step : Step Store) : Bool :=
  step.served.asked == some (id, .admitted)

/-- A request meets the condition of `OwnLimitCounts` for a tenant it names. -/
def Step.OwnLimitCounts (tenantHeader tenant path : GoString) (own : Limiter)
    (step : Step Store) : Prop :=
  ∀ names, tenantsFromHeader tenantHeader (step.request.header.values tenantHeader) = .ok names →
    tenant ∈ names → step.request.url.path = path →
      RateLimit.OwnLimitCounts take backend configs step.store names tenant path own

theorem forwards_admits (tenantHeader tenant path : GoString) (own : Limiter) (store : Store)
    (requests : List Request)
    (isOwn : (ownLimiters backend configs tenant).find? (fun m => m.matcher path) = some own)
    (step : Step Store)
    (member : step ∈ trace take tenantHeader (middlewaresOf backend configs) store requests)
    (counts : step.OwnLimitCounts take backend configs tenantHeader tenant path own)
    (forwards : step.Forwards tenantHeader tenant path = true) :
    step.Admits own.id = true := by
  unfold Step.Forwards at forwards
  rw [Bool.and_eq_true, Bool.and_eq_true, beq_iff_eq] at forwards
  obtain ⟨⟨passed, isPath⟩, named⟩ := forwards
  cases accepted : tenantsFromHeader tenantHeader (step.request.header.values tenantHeader) with
  | error error =>
      rw [accepted] at named
      cases named
  | ok names =>
      rw [accepted] at named
      have inNames : tenant ∈ names := List.contains_iff_mem.mp named
      rw [← isPath] at isOwn
      have takes := (takesUnit_iff take backend configs tenantHeader step.store step.request
        names tenant own accepted isOwn).mpr (isPath ▸ counts names accepted inNames isPath)
      rw [← trace_served take tenantHeader _ store requests step member] at takes
      rcases takes with ⟨error, refused⟩ | asked
      · rw [refused] at passed
        cases passed
      · rw [Step.Admits, asked, beq_self_eq_true]

/-- A request of an accepted header takes one unit from the limiter of a tenant
it names exactly if that limiter counts; and as long as this is so for every
request of a sequence, the limiter has admitted each request that is forwarded. -/
theorem tenantLimit_iff (tenantHeader tenant path : GoString) (own : Limiter) (store : Store)
    (isOwn : (ownLimiters backend configs tenant).find? (fun m => m.matcher path) = some own) :
    (∀ request names, request.url.path = path →
        tenantsFromHeader tenantHeader (request.header.values tenantHeader) = .ok names →
        tenant ∈ names →
        (TakesUnit (serve take tenantHeader (middlewaresOf backend configs) store request).1 own ↔
          OwnLimitCounts take backend configs store names tenant path own)) ∧
      ∀ requests,
        (∀ step ∈ trace take tenantHeader (middlewaresOf backend configs) store requests,
          step.OwnLimitCounts take backend configs tenantHeader tenant path own) →
        (trace take tenantHeader (middlewaresOf backend configs) store requests).countP
            (Step.Forwards tenantHeader tenant path) ≤
          (trace take tenantHeader (middlewaresOf backend configs) store requests).countP
            (Step.Admits own.id) := by
  constructor
  · intro request names isPath accepted _
    rw [← isPath] at isOwn ⊢
    exact takesUnit_iff take backend configs tenantHeader store request names tenant own
      accepted isOwn
  · intro requests counts
    apply List.countP_mono_left
    intro step member forwards
    exact forwards_admits take backend configs tenantHeader tenant path own store requests isOwn
      step member (counts step member) forwards

end

/-! One request a second for the tenant `a` on every path. -/

def onceASecond : Config where
  tenant := ascii "a"
  matcher _ := true
  expression := ascii ".*"
  limit := 1
  window := 1000
  failOpen := false

def queryFor (tenants : String) : Request where
  method := methodGet
  url := ⟨ascii "/api/metrics/v1/api/v1/query", [], []⟩
  header := [(canonicalHeaderKey (ascii "X-Scope-OrgID"), [ascii tenants])]
  body := []
  contentLength := 0
  tls := none
  context := .background

theorem tenantLimit_alone :
    ((getRateLimits 0 (onceASecond.limiter .shared 0) fun _ => none).1 = .admitted) ∧
      TakesUnit (serve (getRateLimits 0) (ascii "X-Scope-OrgID")
        (middlewaresOf .shared [onceASecond]) (fun _ => none) (queryFor "a")).1
        (onceASecond.limiter .shared 0) := by
  have admits : (getRateLimits 0 (onceASecond.limiter .shared 0) fun _ => none).1 =
      .admitted := by decide +kernel
  refine ⟨admits, ?_⟩
  refine ((tenantLimit_iff (getRateLimits 0) .shared [onceASecond] (ascii "X-Scope-OrgID")
    (ascii "a") (ascii "/api/metrics/v1/api/v1/query") (onceASecond.limiter .shared 0)
    (fun _ => none) rfl).1 (queryFor "a") [ascii "a"] rfl (by decide +kernel)
      List.mem_cons_self).mpr ?_
  rw [OwnLimitCounts, if_pos rfl, Limiter.FailsOpen, admits]
  rintro ⟨⟨message, fails⟩, _⟩
  cases fails

/-- Naming a second tenant, a caller is not limited at all. -/
theorem secondTenant_escapes_limit :
    tenantsFromHeader (ascii "X-Scope-OrgID")
        ((queryFor "a|b").header.values (ascii "X-Scope-OrgID")) = .ok [ascii "a", ascii "b"] ∧
      (ownLimiters .shared [onceASecond] (ascii "a")).find?
          (fun m => m.matcher (queryFor "a|b").url.path) =
        some (onceASecond.limiter .shared 0) ∧
      (trace (getRateLimits 0) (ascii "X-Scope-OrgID") (middlewaresOf .shared [onceASecond])
          (fun _ => none) [queryFor "a|b", queryFor "a|b"]).map
        (fun step => (step.served.result.isOk, step.served.asked)) =
          [(true, none), (true, none)] ∧
      ¬ TakesUnit (serve (getRateLimits 0) (ascii "X-Scope-OrgID")
        (middlewaresOf .shared [onceASecond]) (fun _ => none) (queryFor "a|b")).1
        (onceASecond.limiter .shared 0) :=
  ⟨by decide +kernel, rfl, by decide +kernel, by decide +kernel⟩

end McoaGateway.RateLimit
