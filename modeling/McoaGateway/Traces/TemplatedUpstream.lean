/-
Upstreams that depend on the tenant (`api/traces/v1/http.go`).

The director expands a template for the tenant of a request, and keeps what
comes out in a map, also when it is no URL.  Where the template has its
placeholder decides which tenants it can be expanded for.
-/

import McoaGateway.Authentication.TenantHeader
import McoaGateway.RequestUri
import McoaGateway.Server

namespace McoaGateway.Traces

open GoString

/-! ### `ExpandTemplatedUpstream` -/

/-- What stands before and behind the first occurrence of a text. -/
def cutText (part : GoString) : GoString → Option (GoString × GoString)
  | [] => if part = [] then some ([], []) else none
  | b :: rest =>
      if hasPrefix (b :: rest) part then some ([], (b :: rest).drop part.length)
      else (cutText part rest).map fun (before, after) => (b :: before, after)

def placeholder : GoString := ascii "\x7btenant\x7d"

/-- `strings.Replace` of the first placeholder. -/
def replaceTenant (templateUpstream tenant : GoString) : GoString :=
  match cutText placeholder templateUpstream with
  | none => templateUpstream
  | some (before, after) => before ++ tenant ++ after

section

variable (literal : GoString → Option GoString)

def expandTemplatedUpstream (templateUpstream tenant : GoString) : Option RequestUri :=
  parseRequestURI literal (replaceTenant templateUpstream tenant)

/-! ### `middlewareSetTemplatedUpstream` -/

/-- `templateToURL`; a URL that is `nil` is kept, too. -/
abbrev TemplateToURL := List (GoString × Option RequestUri)

/-- A request with the scheme and the host of its upstream. -/
structure Directed where
  scheme : GoString
  host : GoString
  request : Request
deriving DecidableEq, Repr

def direct (upstream : RequestUri) (request : Request) : Directed :=
  ⟨upstream.scheme, upstream.host, setUpstream upstream.path request⟩

/-- The upstream for a tenant, from the map or by expansion, and the map after
it. -/
def templatedUpstream (readTemplate : GoString) (templateToURL : TemplateToURL)
    (tenant : GoString) : Option RequestUri × TemplateToURL :=
  match templateToURL.lookup tenant with
  | some upstream => (upstream, templateToURL)
  | none =>
      let upstream := expandTemplatedUpstream literal readTemplate tenant
      (upstream, (tenant, upstream) :: templateToURL)

/-- `none` for the dereference of a URL that is `nil`. -/
def setTemplatedUpstream (readTemplate : GoString) (templateToURL : TemplateToURL)
    (request : Request) : Option Directed × TemplateToURL :=
  let (upstream, templateToURL) :=
    templatedUpstream literal readTemplate templateToURL (request.context.tenant.getD [])
  (upstream.map fun upstream => direct upstream request, templateToURL)

def templateToURLAfter (readTemplate : GoString) (requests : List Request) : TemplateToURL :=
  requests.foldl
    (fun templateToURL request =>
      (setTemplatedUpstream literal readTemplate templateToURL request).2) []

/-! ### The map does not matter -/

def Faithful (readTemplate : GoString) (templateToURL : TemplateToURL) : Prop :=
  ∀ tenant upstream, templateToURL.lookup tenant = some upstream →
    upstream = expandTemplatedUpstream literal readTemplate tenant

theorem templatedUpstream_faithful (readTemplate : GoString) (templateToURL : TemplateToURL)
    (tenant : GoString) (faithful : Faithful literal readTemplate templateToURL) :
    (templatedUpstream literal readTemplate templateToURL tenant).1 =
        expandTemplatedUpstream literal readTemplate tenant ∧
      Faithful literal readTemplate
        (templatedUpstream literal readTemplate templateToURL tenant).2 := by
  rw [templatedUpstream]
  cases found : templateToURL.lookup tenant with
  | some upstream => exact ⟨faithful tenant upstream found, faithful⟩
  | none =>
      refine ⟨rfl, ?_⟩
      intro other upstream isKept
      dsimp only at isKept
      rw [List.lookup_cons] at isKept
      split at isKept
      · rename_i same
        rw [eq_of_beq same]
        exact (Option.some.inj isKept).symm
      · exact faithful other upstream isKept

theorem templateToURLAfter_faithful (readTemplate : GoString) (requests : List Request) :
    Faithful literal readTemplate (templateToURLAfter literal readTemplate requests) := by
  have steps : ∀ (templateToURL : TemplateToURL), Faithful literal readTemplate templateToURL →
      Faithful literal readTemplate (requests.foldl
        (fun templateToURL request =>
          (setTemplatedUpstream literal readTemplate templateToURL request).2) templateToURL) := by
    induction requests with
    | nil => exact fun _ faithful => faithful
    | cons request rest ih =>
        intro templateToURL faithful
        exact ih _ (templatedUpstream_faithful literal readTemplate templateToURL _ faithful).2
  refine steps [] ?_
  intro tenant upstream impossible
  cases impossible

theorem setTemplatedUpstream_after (readTemplate : GoString) (earlier : List Request)
    (request : Request) :
    (setTemplatedUpstream literal readTemplate
        (templateToURLAfter literal readTemplate earlier) request).1 =
      (expandTemplatedUpstream literal readTemplate (request.context.tenant.getD [])).map
        fun upstream => direct upstream request := by
  rw [setTemplatedUpstream]
  dsimp only
  rw [(templatedUpstream_faithful literal readTemplate _ _
    (templateToURLAfter_faithful literal readTemplate earlier)).1]

/-! ### Tenants for which a template can be expanded -/

/-- The tenant may stand in the place of the placeholder. -/
def TemplateFits (readTemplate tenant : GoString) : Prop :=
  ∀ before after, cutText placeholder readTemplate = some (before, after) →
    (placement before after).fits literal tenant = true

theorem filling_name (name : GoString) (isName : tenantNameRegex name = true) :
    Filling name := by
  obtain ⟨nonempty, alphabet⟩ := (tenantNameRegex_eq_true name).mp isName
  refine ⟨List.length_pos_iff.mp nonempty, ?_⟩
  intro b member
  have bytes := forall_byte (fun b => !isTenantNameByte b || isFillByte b) (by decide +kernel) b
  rw [alphabet b member] at bytes
  exact bytes

theorem filling_join (names : List GoString) (admissible : AdmissibleTenants names) :
    Filling (join (byte '|') names) := by
  constructor
  · intro isEmpty
    have single := admissible.split_join
    rw [isEmpty] at single
    have nothing : ([] : GoString) ∈ names := by
      rw [← single]
      exact List.mem_singleton.mpr rfl
    have long := admissible.nameNonempty [] nothing
    simp at long
  · intro b member
    rcases mem_join _ _ _ member with rfl | ⟨name, isName, inName⟩
    · decide
    · have bytes := forall_byte (fun b => !isTenantNameByte b || isFillByte b)
        (by decide +kernel) b
      rw [admissible.alphabet name isName b inName] at bytes
      exact bytes

/-- A template that can be expanded for one filling can be expanded for exactly
those that fit. -/
theorem expandTemplatedUpstream_isSome_iff (readTemplate plain tenant : GoString)
    (plainFills : Filling plain) (tenantFills : Filling tenant)
    (parses : (expandTemplatedUpstream literal readTemplate plain).isSome = true) :
    (expandTemplatedUpstream literal readTemplate tenant).isSome = true ↔
      TemplateFits literal readTemplate tenant := by
  unfold TemplateFits expandTemplatedUpstream replaceTenant at *
  cases isCut : cutText placeholder readTemplate with
  | none =>
      rw [isCut] at parses
      exact iff_of_true parses (fun _ _ impossible => by cases impossible)
  | some parts =>
      obtain ⟨before, after⟩ := parts
      rw [isCut] at parses
      obtain ⟨fixed, isFixed⟩ := accepts_hole literal before after
      have plainParses : (fixed && (placement before after).fits literal plain) = true :=
        (isFixed plain plainFills).symm.trans parses
      have isTrue : fixed = true := (Bool.and_eq_true_iff.mp plainParses).1
      have tenantParses := isFixed tenant tenantFills
      rw [isTrue, Bool.true_and] at tenantParses
      rw [show (parseRequestURI literal (before ++ tenant ++ after)).isSome = _ from tenantParses]
      constructor
      · rintro fits _ _ ⟨⟩
        exact fits
      · exact fun fits => fits before after rfl

/-- For a template that some tenant name makes a URL, a tenant string from the
headers of a request and any earlier requests, the request is directed to the
expanded upstream exactly if the tenant string fits in the template. -/
theorem setTemplatedUpstream_iff (readTemplate plain tenantHeader : GoString)
    (isPlain : tenantNameRegex plain = true)
    (parses : (expandTemplatedUpstream literal readTemplate plain).isSome = true)
    (tenantValues names : List GoString)
    (accepted : tenantsFromHeader tenantHeader tenantValues = .ok names)
    (earlier : List Request) (request : Request)
    (isTenant : request.context.tenant = some (join (byte '|') names)) :
    (∃ upstream sent,
        expandTemplatedUpstream literal readTemplate (join (byte '|') names) = some upstream ∧
        (setTemplatedUpstream literal readTemplate
          (templateToURLAfter literal readTemplate earlier) request).1 = some sent ∧
        sent.scheme = upstream.scheme ∧ sent.host = upstream.host ∧
        sent.request = { request with
          url := { request.url with path := pathJoin upstream.path request.url.path } }) ↔
      TemplateFits literal readTemplate (join (byte '|') names) := by
  obtain ⟨-, admissible⟩ := (tenantsFromHeader_eq_ok _ _ _).mp accepted
  rw [← expandTemplatedUpstream_isSome_iff literal readTemplate plain _
    (filling_name plain isPlain) (filling_join names admissible) parses,
    setTemplatedUpstream_after, isTenant, Option.getD_some]
  constructor
  · rintro ⟨upstream, _, isUpstream, _⟩
    rw [isUpstream]
    rfl
  · intro present
    obtain ⟨upstream, isUpstream⟩ := Option.isSome_iff_exists.mp present
    exact ⟨upstream, direct upstream request, isUpstream, by rw [isUpstream]; rfl, rfl, rfl, rfl⟩

end

/-! A template with the tenant in the host name. -/

def hostTemplate : GoString := ascii "http://jaeger-\x7btenant\x7d.tracing.svc:16686"

def requestOf (tenant : String) : Request :=
  ⟨methodGet, ⟨ascii "/api/traces", [], []⟩, [], [], 0, none,
    { Context.background with tenant := some (ascii tenant) }⟩

def noLiteral : GoString → Option GoString :=
  fun _ => none

/-- A single tenant, after a request of another one. -/
theorem setTemplatedUpstream_single :
    tenantsFromHeader (ascii "X-Tenant") [ascii "team-a"] = .ok [ascii "team-a"] ∧
      (setTemplatedUpstream noLiteral hostTemplate
          (templateToURLAfter noLiteral hostTemplate [requestOf "team-b"])
          (requestOf "team-a")).1 =
        some ⟨ascii "http", ascii "jaeger-team-a.tracing.svc:16686", requestOf "team-a"⟩ ∧
      ((∃ upstream sent, expandTemplatedUpstream noLiteral hostTemplate
            (join (byte '|') [ascii "team-a"]) = some upstream ∧
          (setTemplatedUpstream noLiteral hostTemplate
            (templateToURLAfter noLiteral hostTemplate [requestOf "team-b"])
            (requestOf "team-a")).1 = some sent ∧
          sent.scheme = upstream.scheme ∧ sent.host = upstream.host ∧
          sent.request = { requestOf "team-a" with
            url := { (requestOf "team-a").url with
              path := pathJoin upstream.path (requestOf "team-a").url.path } }) ↔
        TemplateFits noLiteral hostTemplate (join (byte '|') [ascii "team-a"])) := by
  refine ⟨by decide +kernel, by decide +kernel, ?_⟩
  exact setTemplatedUpstream_iff noLiteral hostTemplate (ascii "plain") (ascii "X-Tenant")
    (by decide +kernel) (by decide +kernel) [ascii "team-a"] [ascii "team-a"] (by decide +kernel)
    [requestOf "team-b"] (requestOf "team-a") rfl

/-- A request for two tenants makes the director panic, the first time and when
the failure is in the map. -/
theorem severalTenants_panic :
    tenantsFromHeader (ascii "X-Tenant") [ascii "team-a|team-b"] =
        .ok [ascii "team-a", ascii "team-b"] ∧
      (expandTemplatedUpstream noLiteral hostTemplate (ascii "team-a")).isSome = true ∧
      (setTemplatedUpstream noLiteral hostTemplate [] (requestOf "team-a|team-b")).1 = none ∧
      (setTemplatedUpstream noLiteral hostTemplate
        (templateToURLAfter noLiteral hostTemplate [requestOf "team-a|team-b"])
        (requestOf "team-a|team-b")).1 = none := by
  refine ⟨?_, ?_, ?_, ?_⟩
  · decide +kernel
  · decide +kernel
  · decide +kernel
  · decide +kernel

end McoaGateway.Traces
