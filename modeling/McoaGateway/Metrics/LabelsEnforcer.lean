/-
Label enforcement on metrics requests (`api/metrics/v1/labels_enforcer.go`).

The selector parameter of a request may stand in the URL, in a form body, or in
both.  The enforcer rewrites one of the two places and empties the other.
`enforceRequestQueryLabels_exact` accounts for every parameter of the forwarded
request; the body of a `PUT` or `PATCH` request is not looked at.  Parsing,
enforcing and printing PromQL expressions belongs to other packages and is a
parameter here.
-/

import McoaGateway.Loops
import McoaGateway.Quote
import McoaGateway.Server
import McoaGateway.Url

namespace McoaGateway

open GoString

/-- The PromQL parser and printer, and the enforcer of the label proxy.  The
first argument of the enforcer is the list of matchers it was built with. -/
structure PromQL where
  Expr : Type
  parseExpr : GoString → Except GoString Expr
  string : Expr → GoString
  enforceNode : List Matcher → Expr → Except GoString Expr
  enforceMatchers : List Matcher → List Matcher → Except GoString (List Matcher)

namespace PromQL

variable (promql : PromQL) (unicode : Unicode) (authz : List Matcher)

def Enforces (raw enforced : GoString) : Prop :=
  ∃ expr node, promql.parseExpr raw = .ok expr ∧ promql.enforceNode authz expr = .ok node ∧
    enforced = promql.string node

/-- A selector cannot be parsed, or cannot be enforced. -/
def Fails (raw : GoString) : Prop :=
  (∃ err, promql.parseExpr raw = .error err) ∨
    ∃ expr err, promql.parseExpr raw = .ok expr ∧ promql.enforceNode authz expr = .error err

/-- The selector of the matchers that the enforcer adds to none: their texts between
braces, with commas between them. -/
def TenantOnly (selector : GoString) : Prop :=
  ∃ ms, promql.enforceMatchers authz [] = .ok ms ∧
    selector = byte '{' :: (join (byte ',') (ms.map (Matcher.string unicode)) ++ [byte '}'])

/-- A value that the enforcer can have made of some selectors. -/
def EnforcedFrom (selectors : List GoString) (value : GoString) : Prop :=
  promql.TenantOnly unicode authz value ∨ ∃ raw ∈ selectors, promql.Enforces authz raw value

end PromQL

/-- Replace the body of a request, with its length. -/
def Request.setBody (request : Request) (body : GoString) : Request :=
  { request with
    body := body
    contentLength := body.length
    header := request.header.set (ascii "Content-Length") (itoa body.length) }

theorem contentHeaders_differ :
    canonicalHeaderKey (ascii "Content-Type") ≠
      canonicalHeaderKey (ascii "Content-Length") := by
  decide +kernel

theorem Request.contentType_setBody (r : Request) (body : GoString) :
    (r.setBody body).contentType = r.contentType := by
  have kept := r.header.get_set_of_ne (ascii "Content-Length") (ascii "Content-Type")
    (itoa body.length) contentHeaders_differ
  unfold Request.contentType Request.setBody
  rw [kept]

theorem Request.isForm_setBody (r : Request) (body : GoString) :
    (r.setBody body).isForm = r.isForm := by
  unfold Request.isForm
  rw [r.contentType_setBody]

theorem Request.sendsForm_of_post (r : Request) (isPost : r.method = methodPost) :
    r.sendsForm = true := by
  simp [Request.sendsForm, isPost]

theorem Request.bodyForm_setBody (r : Request) (body : GoString)
    (isPost : r.method = methodPost) (isForm : r.isForm = true) :
    (r.setBody body).bodyForm = (parseQuery body).1 :=
  (r.setBody body).bodyForm_of_isForm (Request.sendsForm_of_post _ isPost)
    ((r.isForm_setBody body).trans isForm)

theorem Request.isForm_of_contentType (r : Request)
    (contentType : r.header.get (ascii "Content-Type") = formMediaType) :
    r.isForm = true := by
  have own : parseMediaType formMediaType = (formMediaType, none) := by decide +kernel
  have nonempty : formMediaType ≠ [] := by decide +kernel
  simp [Request.isForm, Request.contentType, contentType, own, nonempty]

namespace Metrics

def queryParam : GoString := ascii "query"

def matchParam : GoString := ascii "match[]"

def metricSelectorParam (path : GoString) : GoString :=
  if hasSuffix path (ascii "/series") || hasSuffix path (ascii "/labels") ||
      hasSuffix path (ascii "/values") || hasSuffix path (ascii "/rules") ||
      hasSuffix path (ascii "/federate") then
    matchParam
  else
    queryParam

section Enforcer

variable (promql : PromQL) (unicode : Unicode) (authz : List Matcher)

def matchersToString (ms : List Matcher) : GoString :=
  byte '{' :: (join (byte ',') (ms.map (Matcher.string unicode)) ++ [byte '}'])

def enforceSelector (rawMatcher : GoString) : Except GoString GoString :=
  match promql.parseExpr rawMatcher with
  | .error err => .error (ascii "parse expr error: " ++ err)
  | .ok expr =>
      match promql.enforceNode authz expr with
      | .error err => .error (ascii "enforce node error: " ++ err)
      | .ok expr => .ok (promql.string expr)

def enforceSelectors : List GoString → Except GoString (List GoString)
  | [] => .ok []
  | rawMatcher :: rest =>
      match enforceSelector promql authz rawMatcher with
      | .error err => .error err
      | .ok enforced =>
          match enforceSelectors rest with
          | .error err => .error err
          | .ok others => .ok (enforced :: others)

def tenantOnly : Except GoString GoString :=
  match promql.enforceMatchers authz [] with
  | .error err => .error (ascii "enforce matchers error: " ++ err)
  | .ok ms => .ok (matchersToString unicode ms)

/-- The encoded parameters, and whether there is a selector. -/
def enforceQueryValues (paramName : GoString) (requestParams : Values) :
    Except GoString (GoString × Bool) :=
  if (requestParams.all paramName).length = 0 then
    match tenantOnly promql unicode authz with
    | .error err => .error err
    | .ok selector => .ok ((requestParams.set paramName selector).encode, true)
  else
    match enforceSelectors promql authz (requestParams.all paramName) with
    | .error err => .error err
    | .ok matchers =>
        .ok (((requestParams.del paramName).addAll paramName matchers).encode, true)

def enforceURL (paramName : GoString) (r : Request) : Except HttpError Request :=
  match enforceQueryValues promql unicode authz paramName r.url.query with
  | .error err => .error ⟨.badRequest, ascii "could not enforce labels: " ++ err⟩
  | .ok (q, foundQuery) =>
      if !foundQuery then .error ⟨.badRequest, ascii "no query found"⟩
      else .ok { r with url := { r.url with rawQuery := q } }

def enforceBody (paramName : GoString) (postForm : Values) (r : Request) :
    Except HttpError Request :=
  let bodyParams :=
    if paramName = matchParam then postForm.addAll paramName (r.url.query.all paramName)
    else postForm
  match enforceQueryValues promql unicode authz paramName bodyParams with
  | .error err => .error ⟨.badRequest, ascii "could not enforce labels: " ++ err⟩
  | .ok (q, foundForm) =>
      let r := r.setBody q
      let r := { r with
        header := r.header.set (ascii "Content-Type") formMediaType
        url := { r.url with rawQuery := (r.url.query.del paramName).encode } }
      if !foundForm then .error ⟨.badRequest, ascii "no query found"⟩ else .ok r

/-- The forwarded request, or the error that is answered instead. -/
def enforceRequestQueryLabels (paramName : GoString) (r : Request) :
    Except HttpError Request :=
  if r.method = methodPost then
    match r.parseForm with
    | .error err =>
        .error ⟨.internalServerError, ascii "could not parse form: " ++ err.text⟩
    | .ok (postForm, r) =>
        let bodyHasParam := (postForm.all paramName).length > 0
        let urlHasParam := (r.url.query.all paramName).length > 0
        -- The body was read; restore it when the selector stands in the URL only.
        let r := if ¬ bodyHasParam ∧ urlHasParam then r.setBody postForm.encode else r
        if bodyHasParam ∨ ¬ urlHasParam then
          enforceBody promql unicode authz paramName postForm r
        else
          enforceURL promql unicode authz paramName r
  else
    enforceURL promql unicode authz paramName r

/-! ### One selector -/

variable {promql unicode authz}

theorem enforceSelector_eq_ok {raw enforced : GoString} :
    enforceSelector promql authz raw = .ok enforced ↔ promql.Enforces authz raw enforced := by
  unfold enforceSelector PromQL.Enforces
  cases parsed : promql.parseExpr raw with
  | error err => simp
  | ok expr =>
      cases node : promql.enforceNode authz expr with
      | error err => simp [node]
      | ok node => simp [node, eq_comm]

theorem enforceSelector_fails {raw : GoString} :
    (∃ err, enforceSelector promql authz raw = .error err) ↔ promql.Fails authz raw := by
  unfold enforceSelector PromQL.Fails
  cases parsed : promql.parseExpr raw with
  | error err => simp
  | ok expr =>
      cases node : promql.enforceNode authz expr with
      | error err => simp [node]
      | ok node => simp [node]

theorem tenantOnly_eq_ok {selector : GoString} :
    tenantOnly promql unicode authz = .ok selector ↔
      promql.TenantOnly unicode authz selector := by
  unfold tenantOnly PromQL.TenantOnly
  cases matchers : promql.enforceMatchers authz [] with
  | error err => simp
  | ok ms => simp [matchersToString, eq_comm]

theorem enforceSelectors_eq_ok {selectors values : List GoString} :
    enforceSelectors promql authz selectors = .ok values ↔
      List.Forall₂ (promql.Enforces authz) selectors values := by
  induction selectors generalizing values with
  | nil => simp [enforceSelectors, eq_comm]
  | cons selector rest ih =>
      rw [enforceSelectors, List.forall₂_cons_left_iff]
      simp only [← enforceSelector_eq_ok, ← ih]
      cases enforceSelector promql authz selector with
      | error err => simp
      | ok enforced =>
          cases enforceSelectors promql authz rest with
          | error err => simp
          | ok others => simp [eq_comm]

variable (promql unicode authz)

/-! ### The account of one rewriting -/

/-- The selectors of the caller: those of the body, to which those of the URL
are added for `match[]`; without any in the body, those of the URL. -/
def callerSelectors (paramName : GoString) (r : Request) : List GoString :=
  if r.bodyForm.all paramName ≠ [] then
    r.bodyForm.all paramName ++
      (if paramName = matchParam then r.url.query.all paramName else [])
  else
    r.url.query.all paramName

/-- The values are the enforced selectors in order, or the tenant-only selector
when there are none. -/
def Enforced (selectors values : List GoString) : Prop :=
  if selectors = [] then
    ∃ selector, promql.TenantOnly unicode authz selector ∧ values = [selector]
  else
    List.Forall₂ (promql.Enforces authz) selectors values

structure ExactRewrite (paramName : GoString) (r sent : Request) : Prop where
  selectors : Enforced promql unicode authz (callerSelectors paramName r)
    (sent.url.query.all paramName ++ sent.bodyForm.all paramName)
  onePlace : sent.url.query.all paramName = [] ∨ sent.bodyForm.all paramName = []
  otherURL : ∀ key, key ≠ paramName → sent.url.query.all key = r.url.query.all key
  otherBody : ∀ key, key ≠ paramName → sent.bodyForm.all key = r.bodyForm.all key
  unchanged : sent.method = r.method ∧ sent.url.path = r.url.path ∧
    sent.context = r.context
  postLength : r.method = methodPost → sent.isForm = true ∧
    sent.contentLength = sent.body.length ∧
    sent.header.get (ascii "Content-Length") = itoa sent.body.length

theorem Enforced.from {promql : PromQL} {unicode : Unicode} {authz : List Matcher}
    {selectors values : List GoString} (enforced : Enforced promql unicode authz selectors values)
    {given : List GoString} (subset : selectors ⊆ given) {value : GoString}
    (member : value ∈ values) : promql.EnforcedFrom unicode authz given value := by
  unfold Enforced at enforced
  split at enforced
  · obtain ⟨selector, only, rfl⟩ := enforced
    rw [List.mem_singleton.mp member]
    exact Or.inl only
  · have flipped : List.Forall₂ (flip (promql.Enforces authz)) values selectors :=
      List.Forall₂.flip enforced
    obtain ⟨raw, isRaw, enforces⟩ := exists_mem_of_forall₂ flipped member
    exact Or.inr ⟨raw, subset isRaw, enforces⟩

theorem enforceQueryValues_ok (paramName : GoString) (params : Values) (q : GoString)
    (found : Bool)
    (enforced : enforceQueryValues promql unicode authz paramName params = .ok (q, found)) :
    found = true ∧
      Enforced promql unicode authz (params.all paramName)
        ((parseQuery q).1.all paramName) ∧
      ∀ key, key ≠ paramName → (parseQuery q).1.all key = params.all key := by
  unfold enforceQueryValues at enforced
  by_cases empty : params.all paramName = []
  · rw [if_pos (by simp [empty])] at enforced
    cases only : tenantOnly promql unicode authz with
    | error err =>
        rw [only] at enforced
        cases enforced
    | ok selector =>
        rw [only] at enforced
        cases enforced
        refine ⟨rfl, ?_, ?_⟩
        · rw [Enforced, if_pos empty]
          exact ⟨selector, tenantOnly_eq_ok.mp only, by simp⟩
        · intro key different
          rw [Values.all_parseQuery_encode, Values.all_set_of_ne _ _ _ _ different]
  · rw [if_neg (by simpa using empty)] at enforced
    cases all : enforceSelectors promql authz (params.all paramName) with
    | error err =>
        rw [all] at enforced
        cases enforced
    | ok matchers =>
        rw [all] at enforced
        cases enforced
        refine ⟨rfl, ?_, ?_⟩
        · rw [Enforced, if_neg empty, Values.all_parseQuery_encode, Values.all_addAll_self,
            Values.all_del_self, List.nil_append]
          exact enforceSelectors_eq_ok.mp all
        · intro key different
          rw [Values.all_parseQuery_encode, Values.all_addAll_of_ne _ _ _ _ different,
            Values.all_del_of_ne _ _ _ different]

theorem enforceURL_ok (paramName : GoString) (r sent : Request)
    (enforced : enforceURL promql unicode authz paramName r = .ok sent) :
    ∃ q, sent = { r with url := { r.url with rawQuery := q } } ∧
      Enforced promql unicode authz (r.url.query.all paramName)
        (sent.url.query.all paramName) ∧
      ∀ key, key ≠ paramName → sent.url.query.all key = r.url.query.all key := by
  unfold enforceURL at enforced
  cases result : enforceQueryValues promql unicode authz paramName r.url.query with
  | error err =>
      rw [result] at enforced
      cases enforced
  | ok pair =>
      obtain ⟨q, found⟩ := pair
      obtain ⟨isFound, selectors, others⟩ :=
        enforceQueryValues_ok promql unicode authz paramName _ q found result
      rw [result, isFound] at enforced
      cases enforced
      exact ⟨q, rfl, selectors, others⟩

theorem enforceBody_ok (paramName : GoString) (postForm : Values) (r sent : Request)
    (enforced : enforceBody promql unicode authz paramName postForm r = .ok sent) :
    ∃ q, sent.body = q ∧ sent.contentLength = q.length ∧
      sent.header = (r.header.set (ascii "Content-Length") (itoa q.length)).set
        (ascii "Content-Type") formMediaType ∧
      sent.url = { r.url with rawQuery := (r.url.query.del paramName).encode } ∧
      sent.method = r.method ∧ sent.context = r.context ∧
      Enforced promql unicode authz
        (postForm.all paramName ++
          (if paramName = matchParam then r.url.query.all paramName else []))
        ((parseQuery q).1.all paramName) ∧
      ∀ key, key ≠ paramName → (parseQuery q).1.all key = postForm.all key := by
  unfold enforceBody at enforced
  dsimp only at enforced
  split at enforced
  · cases enforced
  · rename_i q found result
    obtain ⟨isFound, selectors, others⟩ :=
      enforceQueryValues_ok promql unicode authz paramName _ q found result
    rw [isFound] at enforced
    cases enforced
    refine ⟨q, rfl, rfl, rfl, rfl, rfl, rfl, ?_, ?_⟩
    · by_cases isMatch : paramName = matchParam
      · rw [if_pos isMatch] at selectors ⊢
        rw [Values.all_addAll_self] at selectors
        exact selectors
      · rw [if_neg isMatch] at selectors ⊢
        rw [List.append_nil]
        exact selectors
    · intro key different
      rw [others key different]
      split
      · exact Values.all_addAll_of_ne _ _ _ _ different
      · rfl

/-- The two ways in which a form is rewritten: in the URL, with the body restored from
the form that was read, or in the body. -/
theorem enforceRequestQueryLabels_post {paramName : GoString} {r sent : Request}
    (isPost : r.method = methodPost)
    (enforced : enforceRequestQueryLabels promql unicode authz paramName r = .ok sent) :
    ∃ consumed, consumed = { r with body := consumed.body } ∧
      (r.bodyForm.all paramName = [] ∧ r.url.query.all paramName ≠ [] ∧
          enforceURL promql unicode authz paramName (consumed.setBody r.bodyForm.encode) =
            .ok sent ∨
        (r.bodyForm.all paramName ≠ [] ∨ r.url.query.all paramName = []) ∧
          enforceBody promql unicode authz paramName r.bodyForm consumed = .ok sent) := by
  unfold enforceRequestQueryLabels at enforced
  rw [if_pos isPost] at enforced
  cases parsed : r.parseForm with
  | error err =>
      rw [parsed] at enforced
      cases enforced
  | ok pair =>
      obtain ⟨postForm, consumed⟩ := pair
      obtain ⟨rfl, kept⟩ := r.parseForm_ok postForm consumed parsed
      have url : consumed.url = r.url := by rw [kept]
      rw [parsed] at enforced
      dsimp only at enforced
      simp only [url, gt_iff_lt, List.length_pos_iff, not_not] at enforced
      refine ⟨consumed, kept, ?_⟩
      by_cases places : r.bodyForm.all paramName ≠ [] ∨ r.url.query.all paramName = []
      · rw [if_pos places, if_neg] at enforced
        · exact Or.inr ⟨places, enforced⟩
        · rintro ⟨notInBody, inURL⟩
          exact places.elim (absurd notInBody) inURL
      · rw [if_neg places] at enforced
        rw [not_or, not_not] at places
        rw [if_pos places] at enforced
        exact Or.inl ⟨places.1, places.2, enforced⟩

/-- Whatever the method of a request is, its path and its context are kept, and every
selector that a server reads is enforced; only the body of a `PUT` or `PATCH` request is
left as it is. -/
theorem enforceRequestQueryLabels_ok (paramName : GoString) (r sent : Request)
    (enforced : enforceRequestQueryLabels promql unicode authz paramName r = .ok sent) :
    (sent.method = r.method ∧ sent.url.path = r.url.path ∧
      sent.url.rawPath = r.url.rawPath ∧ sent.context = r.context) ∧
    (∀ value ∈ sent.url.query.all paramName, promql.EnforcedFrom unicode authz
      (r.url.query.all paramName ++ r.bodyForm.all paramName) value) ∧
    (r.method = methodPost → ∀ value ∈ sent.bodyForm.all paramName,
      promql.EnforcedFrom unicode authz
        (r.url.query.all paramName ++ r.bodyForm.all paramName) value) ∧
    (r.method ≠ methodPost → sent.bodyForm = r.bodyForm) := by
  by_cases isPost : r.method = methodPost
  · obtain ⟨consumed, kept, ⟨notInBody, -, inURL⟩ | ⟨-, inBody⟩⟩ :=
      enforceRequestQueryLabels_post promql unicode authz isPost enforced
    · obtain ⟨q, shape, selectors, -⟩ :=
        enforceURL_ok promql unicode authz paramName _ sent inURL
      have bodyAfter : sent.bodyForm.all paramName = [] := by
        have body : sent.body = r.bodyForm.encode := by rw [shape]; rfl
        unfold Request.bodyForm
        split
        · rw [body, Values.all_parseQuery_encode, notInBody]
        · rfl
      refine ⟨by rw [shape, kept]; exact ⟨rfl, rfl, rfl, rfl⟩, ?_, ?_, absurd isPost⟩
      · have urlBefore : (consumed.setBody r.bodyForm.encode).url = r.url := by rw [kept]; rfl
        rw [urlBefore] at selectors
        exact fun value member =>
          selectors.from (List.subset_append_left _ _) member
      · intro _ value member
        rw [bodyAfter] at member
        cases member
    · obtain ⟨q, body, -, header, url, method, context, selectors, -⟩ :=
        enforceBody_ok promql unicode authz paramName _ _ sent inBody
      have urlBefore : consumed.url = r.url := by rw [kept]
      have urlAfter : sent.url.query.all paramName = [] := by
        rw [url]
        exact (Values.all_parseQuery_encode _ paramName).trans
          (Values.all_del_self _ paramName)
      rw [urlBefore] at url selectors
      refine ⟨⟨by rw [method, kept], by rw [url], by rw [url], by rw [context, kept]⟩, ?_, ?_,
        absurd isPost⟩
      · intro value member
        rw [urlAfter] at member
        cases member
      · intro _ value member
        have isForm : sent.isForm = true := by
          apply sent.isForm_of_contentType
          rw [header, Header.get_set_self]
        rw [sent.bodyForm_of_isForm
          (sent.sendsForm_of_post (by rw [method, kept]; exact isPost)) isForm, body] at member
        refine selectors.from ?_ member
        intro raw isRaw
        rcases List.mem_append.mp isRaw with inBody | inURL
        · exact List.mem_append_right _ inBody
        · split at inURL
          · exact List.mem_append_left _ inURL
          · cases inURL
  · unfold enforceRequestQueryLabels at enforced
    rw [if_neg isPost] at enforced
    obtain ⟨q, shape, selectors, -⟩ :=
      enforceURL_ok promql unicode authz paramName r sent enforced
    refine ⟨by rw [shape]; exact ⟨rfl, rfl, rfl, rfl⟩, ?_, fun same => absurd same isPost, ?_⟩
    · exact fun value member => selectors.from (List.subset_append_left _ _) member
    · intro _
      rw [shape]
      rfl

/-! ### The middleware -/

def enforceAuthorizationLabels (r : Request) : Except HttpError Request :=
  match r.context.data with
  | none =>
      .error ⟨.internalServerError, ascii "error finding authorization label matcher"⟩
  | some .empty => .ok r
  | some .malformed =>
      .error ⟨.internalServerError, ascii "error parsing authorization label matcher"⟩
  | some (.document doc) =>
      enforceRequestQueryLabels promql unicode doc.matchers
        (metricSelectorParam r.url.path) r

def authorizationFilter : Filter where
  run := enforceAuthorizationLabels promql unicode
  keeps := by
    intro r sent enforced
    unfold enforceAuthorizationLabels at enforced
    cases data : r.context.data with
    | none =>
        rw [data] at enforced
        cases enforced
    | some value =>
        rw [data] at enforced
        cases value with
        | empty =>
            cases enforced
            exact ⟨rfl, rfl, rfl, rfl⟩
        | malformed => cases enforced
        | document doc =>
            exact (enforceRequestQueryLabels_ok promql unicode doc.matchers _ r sent
              enforced).1

def withEnforceAuthorizationLabels {Upstream : Type} : Middleware Upstream :=
  (authorizationFilter promql unicode).middleware

/-! ### Requests with a form -/

private theorem exactRewrite_url (paramName : GoString) (r consumed sent : Request)
    (isPost : r.method = methodPost) (isForm : r.isForm = true)
    (kept : consumed = { r with body := consumed.body })
    (notInBody : r.bodyForm.all paramName = [])
    (enforced : enforceURL promql unicode authz paramName
      (consumed.setBody r.bodyForm.encode) = .ok sent) :
    ExactRewrite promql unicode authz paramName r sent := by
  obtain ⟨q, shape, selectors, others⟩ :=
    enforceURL_ok promql unicode authz paramName _ sent enforced
  have consumedForm : consumed.isForm = true := by rw [kept]; exact isForm
  have urlBefore : (consumed.setBody r.bodyForm.encode).url = r.url := by rw [kept]; rfl
  have bodyAfter : ∀ key, sent.bodyForm.all key = r.bodyForm.all key := by
    intro key
    have form := consumed.bodyForm_setBody r.bodyForm.encode (by rw [kept]; exact isPost)
      consumedForm
    have same : sent.bodyForm = (consumed.setBody r.bodyForm.encode).bodyForm := by
      rw [shape]
      rfl
    rw [same, form, Values.all_parseQuery_encode]
  have own : callerSelectors paramName r = r.url.query.all paramName := by
    rw [callerSelectors, if_neg (not_not.mpr notInBody)]
  rw [urlBefore] at selectors others
  constructor
  · rw [bodyAfter, notInBody, own, List.append_nil]
    exact selectors
  · apply Or.inr
    rw [bodyAfter, notInBody]
  · exact others
  · exact fun key _ => bodyAfter key
  · rw [shape, kept]
    exact ⟨rfl, rfl, rfl⟩
  · intro _
    have sentForm : sent.isForm = (consumed.setBody r.bodyForm.encode).isForm := by
      rw [shape]
      rfl
    rw [sentForm, consumed.isForm_setBody, shape]
    exact ⟨consumedForm, rfl, Header.get_set_self _ _ _⟩

private theorem exactRewrite_body (paramName : GoString) (r consumed sent : Request)
    (isPost : r.method = methodPost) (kept : consumed = { r with body := consumed.body })
    (places : r.bodyForm.all paramName ≠ [] ∨ r.url.query.all paramName = [])
    (enforced : enforceBody promql unicode authz paramName r.bodyForm consumed = .ok sent) :
    ExactRewrite promql unicode authz paramName r sent := by
  obtain ⟨q, body, length, header, url, method, context, selectors, others⟩ :=
    enforceBody_ok promql unicode authz paramName _ _ sent enforced
  have urlBefore : consumed.url = r.url := by rw [kept]
  have methodAfter : sent.method = r.method := by rw [method, kept]
  have sentForm : sent.isForm = true := by
    apply sent.isForm_of_contentType
    rw [header, Header.get_set_self]
  have bodyAfter : sent.bodyForm = (parseQuery q).1 := by
    rw [sent.bodyForm_of_isForm (sent.sendsForm_of_post (methodAfter.trans isPost)) sentForm,
      body]
  rw [urlBefore] at url selectors
  have urlAfter : ∀ key, sent.url.query.all key = (r.url.query.del paramName).all key := by
    intro key
    rw [url]
    exact Values.all_parseQuery_encode _ key
  have own : callerSelectors paramName r = r.bodyForm.all paramName ++
      (if paramName = matchParam then r.url.query.all paramName else []) := by
    rw [callerSelectors]
    by_cases inBody : r.bodyForm.all paramName = []
    · have notInURL : r.url.query.all paramName = [] := by
        rcases places with nonempty | empty
        · exact absurd inBody nonempty
        · exact empty
      simp [inBody, notInURL]
    · rw [if_pos inBody]
  constructor
  · rw [urlAfter, Values.all_del_self, List.nil_append, bodyAfter, own]
    exact selectors
  · apply Or.inl
    rw [urlAfter, Values.all_del_self]
  · intro key different
    rw [urlAfter, Values.all_del_of_ne _ _ _ different]
  · intro key different
    rw [bodyAfter, others key different]
  · exact ⟨methodAfter, by rw [url], by rw [context, kept]⟩
  · intro _
    refine ⟨sentForm, ?_, ?_⟩
    · rw [length, body]
    · rw [header, Header.get_set_of_ne _ _ _ _ (Ne.symm contentHeaders_differ),
        Header.get_set_self, body]

private theorem exactRewrite_get (paramName : GoString) (r sent : Request)
    (isGet : r.method = methodGet)
    (enforced : enforceRequestQueryLabels promql unicode authz paramName r = .ok sent) :
    ExactRewrite promql unicode authz paramName r sent := by
  have notPost : r.method ≠ methodPost := by
    rw [isGet]
    decide
  have silent : r.sendsForm = false := by
    rw [Request.sendsForm, isGet]
    decide
  unfold enforceRequestQueryLabels at enforced
  rw [if_neg notPost] at enforced
  obtain ⟨q, shape, selectors, others⟩ :=
    enforceURL_ok promql unicode authz paramName r sent enforced
  have noBody := r.bodyForm_of_not_sendsForm silent
  have noBodyAfter : sent.bodyForm = [] := by
    rw [shape]
    exact noBody
  constructor
  · have own : callerSelectors paramName r = r.url.query.all paramName := by
      simp [callerSelectors, noBody, Values.all]
    rw [own, noBodyAfter]
    simpa [Values.all] using selectors
  · exact Or.inr (by simp [noBodyAfter, Values.all])
  · exact others
  · intro key _
    rw [noBody, noBodyAfter]
  · rw [shape]
    exact ⟨rfl, rfl, rfl⟩
  · intro isPost
    exact absurd isPost notPost

/-- Rewriting is exact for `GET` requests and for `POST` requests with a form
body, and a selector that cannot be parsed or enforced stops the request. -/
theorem enforceRequestQueryLabels_exact (paramName : GoString) (r : Request)
    (method : r.method = methodGet ∨ r.method = methodPost ∧ r.isForm = true) :
    (∀ sent, enforceRequestQueryLabels promql unicode authz paramName r = .ok sent →
      ExactRewrite promql unicode authz paramName r sent) ∧
    ∀ selector ∈ callerSelectors paramName r, promql.Fails authz selector →
      ∃ error, enforceRequestQueryLabels promql unicode authz paramName r =
        .error error := by
  have exact_of_ok : ∀ sent,
      enforceRequestQueryLabels promql unicode authz paramName r = .ok sent →
        ExactRewrite promql unicode authz paramName r sent := by
    intro sent enforced
    rcases method with isGet | ⟨isPost, isForm⟩
    · exact exactRewrite_get promql unicode authz paramName r sent isGet enforced
    · obtain ⟨consumed, kept, ⟨notInBody, -, inURL⟩ | ⟨places, inBody⟩⟩ :=
        enforceRequestQueryLabels_post promql unicode authz isPost enforced
      · exact exactRewrite_url promql unicode authz paramName r consumed sent isPost isForm kept
          notInBody inURL
      · exact exactRewrite_body promql unicode authz paramName r consumed sent isPost kept places
          inBody
  refine ⟨exact_of_ok, ?_⟩
  intro selector member fails
  cases result : enforceRequestQueryLabels promql unicode authz paramName r with
  | error error => exact ⟨error, rfl⟩
  | ok sent =>
      have rewritten := (exact_of_ok sent result).selectors
      rw [Enforced, if_neg (List.ne_nil_of_mem member)] at rewritten
      obtain ⟨value, -, enforces⟩ := exists_mem_of_forall₂ rewritten member
      obtain ⟨err, refused⟩ := enforceSelector_fails.mpr fails
      rw [enforceSelector_eq_ok.mpr enforces] at refused
      cases refused

end Enforcer

/-! ### A form with the selector in both places -/

/-- PromQL cut down to a metric name with matchers. -/
def bareMetrics : PromQL where
  Expr := GoString × List Matcher
  parseExpr text :=
    if isPlainName text then .ok (text, []) else .error (ascii "unexpected character")
  string expr :=
    if expr.2 = [] then expr.1 else expr.1 ++ matchersToString Unicode.asciiOnly expr.2
  enforceNode authz expr := .ok (expr.1, expr.2 ++ authz)
  enforceMatchers authz targets := .ok (targets ++ authz)

def tenantA : Matcher := ⟨.equal, ascii "tenant_id", ascii "a"⟩

/-- `POST /api/v1/query?query=down&step=2` with the body `query=up&time=1`. -/
def formRequest : Request where
  method := methodPost
  url := ⟨ascii "/api/v1/query", [], ascii "query=down&step=2"⟩
  header := [(ascii "Content-Type", [formMediaType])]
  body := ascii "query=up&time=1"
  contentLength := 15
  tls := none
  context := .background

/-- The selector of the URL is dropped, and that of the body is enforced. -/
theorem formRequest_exact :
    ∃ sent, enforceRequestQueryLabels bareMetrics Unicode.asciiOnly [tenantA] queryParam
        formRequest = .ok sent ∧
      sent.url.rawQuery = ascii "step=2" ∧
      sent.bodyForm =
        [(ascii "query", ascii "up\x7btenant_id=\"a\"\x7d"), (ascii "time", ascii "1")] ∧
      bareMetrics.TenantOnly Unicode.asciiOnly [tenantA] (ascii "\x7btenant_id=\"a\"\x7d") ∧
      ExactRewrite bareMetrics Unicode.asciiOnly [tenantA] queryParam formRequest sent := by
  have accepted : (enforceRequestQueryLabels bareMetrics Unicode.asciiOnly [tenantA] queryParam
      formRequest).toOption.map (fun sent => (sent.url.rawQuery, sent.bodyForm)) =
        some (ascii "step=2", [(ascii "query", ascii "up\x7btenant_id=\"a\"\x7d"),
          (ascii "time", ascii "1")]) := by decide +kernel
  have isForm : formRequest.isForm = true := by decide +kernel
  have exact_of_ok := (enforceRequestQueryLabels_exact bareMetrics Unicode.asciiOnly [tenantA]
    queryParam formRequest (Or.inr ⟨rfl, isForm⟩)).1
  revert accepted exact_of_ok
  cases enforceRequestQueryLabels bareMetrics Unicode.asciiOnly [tenantA] queryParam
      formRequest with
  | error error =>
      intro accepted
      cases accepted
  | ok sent =>
      intro accepted exact_of_ok
      obtain ⟨rawQuery, body⟩ := Prod.mk.inj (Option.some.inj accepted)
      exact ⟨sent, rfl, rawQuery, body, ⟨[tenantA], rfl, by decide +kernel⟩,
        exact_of_ok sent rfl⟩

end Metrics

end McoaGateway
