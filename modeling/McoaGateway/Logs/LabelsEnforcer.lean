/-
Label enforcement on logs requests (`api/logs/v1/labels_enforcer.go`).

A query is parsed, the matchers of its stream selectors are combined with those
of the authorization data, and the text of the changed query takes the place of
the caller's.  Map iteration is in no particular order, and a parser of the pool
keeps the stack of the parse before; a `Run` says how both turn out.
-/

import McoaGateway.Logql.Coverage
import McoaGateway.Metrics.LabelsEnforcer

namespace McoaGateway.Logs

open GoString

/-! ### Combining matchers -/

structure MatcherMap where
  matchers : List Matcher
  distinct : (matchers.map Matcher.name).Nodup

def MatcherMap.empty : MatcherMap :=
  ⟨[], List.nodup_nil⟩

def MatcherMap.get (map : MatcherMap) (name : GoString) : Option Matcher :=
  map.matchers.find? fun m => m.name = name

def MatcherMap.insert (map : MatcherMap) (m : Matcher) : MatcherMap where
  matchers := m :: map.matchers.filter fun other => other.name ≠ m.name
  distinct := by
    rw [List.map_cons, List.nodup_cons]
    constructor
    · intro member
      obtain ⟨other, inside, same⟩ := List.mem_map.mp member
      exact of_decide_eq_true (List.mem_filter.mp inside).2 same
    · exact map.distinct.sublist (List.filter_sublist.map _)

/-- The order in which a loop over a map meets its values. -/
structure MapOrder where
  values : List Matcher → List Matcher
  perm : ∀ matchers, (values matchers).Perm matchers

def MapOrder.newestFirst : MapOrder :=
  ⟨id, fun _ => List.Perm.refl _⟩

section Combine

variable (engine : RegexpEngine)

/-- The body of the loop over the authorization matchers. -/
def mergeMatcher (merged : List Matcher × MatcherMap) (am : Matcher) :
    List Matcher × MatcherMap :=
  match merged.2.get am.name with
  | none => (merged.1, merged.2.insert am)
  | some qm =>
      if qm.type ≠ .equal then (merged.1 ++ [qm], merged.2.insert am)
      else if !am.matches engine qm.value then (merged.1, merged.2.insert am)
      else merged

def combineLabelMatchers (order : MapOrder) (queryMatchers authzMatchers : List Matcher) :
    List Matcher :=
  let queryMatchersMap := queryMatchers.foldl MatcherMap.insert .empty
  let (matchers, map) := authzMatchers.foldl (mergeMatcher engine) ([], queryMatchersMap)
  matchers ++ order.values map.matchers

theorem mem_of_get {map : MatcherMap} {name : GoString} {m : Matcher}
    (found : map.get name = some m) : m ∈ map.matchers ∧ m.name = name :=
  ⟨List.mem_of_find?_eq_some found, by simpa using List.find?_some found⟩

theorem mergeMatcher_guards (merged : List Matcher × MatcherMap) (am : Matcher) :
    ∃ m ∈ (mergeMatcher engine merged am).2.matchers,
      m = am ∨ m.name = am.name ∧ m.type = .equal ∧ am.matches engine m.value = true := by
  have inserted : am ∈ (merged.2.insert am).matchers := List.mem_cons_self
  unfold mergeMatcher
  split
  · exact ⟨am, inserted, Or.inl rfl⟩
  · rename_i qm found
    split
    · exact ⟨am, inserted, Or.inl rfl⟩
    · rename_i isEqual
      split
      · exact ⟨am, inserted, Or.inl rfl⟩
      · rename_i accepted
        obtain ⟨member, name⟩ := mem_of_get found
        exact ⟨qm, member, Or.inr ⟨name, not_not.mp isEqual, by simpa using accepted⟩⟩

theorem combineLabelMatchers_implies (order : MapOrder) (queryMatchers : List Matcher)
    (m : Matcher) :
    Implies engine (combineLabelMatchers engine order queryMatchers [m]) m := by
  obtain ⟨guard, member, guards⟩ :=
    mergeMatcher_guards engine ([], queryMatchers.foldl MatcherMap.insert .empty) m
  have inCombined : guard ∈ combineLabelMatchers engine order queryMatchers [m] :=
    List.mem_append_right _ ((order.perm _).mem_iff.mpr member)
  intro labels satisfied
  have holds := satisfied guard inCombined
  rcases guards with rfl | ⟨name, isEqual, accepted⟩
  · exact holds
  · rw [Matcher.matches, isEqual, name] at holds
    rw [eq_of_beq holds]
    exact accepted

/-- The callback for stream selectors; it counts its calls. -/
def enforcing (orders : Nat → MapOrder) (lm : List Matcher) : Logql.Visitor Nat :=
  .onSelectors fun s calls =>
    (⟨combineLabelMatchers engine (orders calls) s.matchers lm⟩, calls + 1)

theorem visitAll_counted (change : Nat → Logql.StreamMatcherExpr → Logql.StreamMatcherExpr)
    (selectors : List Logql.StreamMatcherExpr) (calls : Nat) :
    Logql.visitAll (fun s calls => (change calls s, calls + 1)) selectors calls =
      (selectors.mapIdx fun index s => change (calls + index) s, calls + selectors.length) := by
  induction selectors generalizing calls with
  | nil => rfl
  | cons s rest ih =>
      rw [Logql.visitAll]
      dsimp only
      rw [ih, List.mapIdx_cons, List.length_cons]
      simp only [Nat.add_zero, Nat.add_assoc, Nat.add_comm 1]

/-- Walking a parsed expression with the callback visits the stream selectors that its
text is made of, each of them once.  Their matchers are combined with the tenant
matcher, which they then imply, and nothing else changes. -/
theorem enforcing_walk (library : Logql.Library) (capacity rounds : Nat) (parser : Logql.Parser)
    (input : GoString) (e : Logql.Expr) (numbers : Logql.Numbers)
    (parsed : Logql.parseExprWith engine library capacity rounds parser input =
      some (.expr e numbers)) (m : Matcher) (orders : Nat → MapOrder) :
    e.visited = e.rendered ∧
    (e.walk (enforcing engine orders [m]) 0).2 = e.rendered.length ∧
    (e.walk (enforcing engine orders [m]) 0).1.rendered =
      e.rendered.mapIdx (fun index s =>
        ⟨combineLabelMatchers engine (orders index) s.matchers [m]⟩) ∧
    (∀ order queryMatchers,
      Implies engine (combineLabelMatchers engine order queryMatchers [m]) m) ∧
    (e.walk (enforcing engine orders [m]) 0).1.erase = e.erase := by
  have wellFormed :=
    Logql.parsed_wellFormed engine library capacity rounds parser input e numbers parsed
  have walked := e.walk_rendered (fun s calls =>
    (⟨combineLabelMatchers engine (orders calls) s.matchers [m]⟩, calls + 1)) wellFormed 0
  rw [visitAll_counted fun calls s =>
    ⟨combineLabelMatchers engine (orders calls) s.matchers [m]⟩] at walked
  simp only [Nat.zero_add] at walked
  exact ⟨e.visited_eq_rendered wellFormed, walked.2, walked.1,
    fun order queryMatchers => combineLabelMatchers_implies engine order queryMatchers m,
    e.erase_walk _ 0⟩

end Combine

/-- The query `rate({a="b"}[1m])`, with an alternation as the tenant matcher. -/
theorem enforcing_walk_rate :
    ∃ e numbers, Logql.parseExprWith .literals .asciiOnly 1024 60 .new
        (ascii "rate(\x7ba=\"b\"\x7d[1m])") = some (.expr e numbers) ∧
      e.visited.length = 1 ∧
      ∀ names orders, (e.walk (enforcing .literals orders
          [⟨.regexp, ascii "tenant", names⟩]) 0).1.erase = e.erase := by
  have accepted : ((Logql.parseExprWith .literals .asciiOnly 1024 60 .new
      (ascii "rate(\x7ba=\"b\"\x7d[1m])")).bind Logql.Parsed.toExpr).map
        (fun found => found.1.rendered.length) = some 1 := by decide +kernel
  obtain ⟨found, isFound, isSome⟩ := Option.map_eq_some_iff.mp accepted
  obtain ⟨parsed, isParsed, isExpr⟩ := Option.bind_eq_some_iff.mp isFound
  cases parsed with
  | expr e numbers =>
      cases isExpr
      have walked := fun names => enforcing_walk .literals .asciiOnly 1024 60 .new _ e numbers
        isParsed ⟨.regexp, ascii "tenant", names⟩
      refine ⟨e, numbers, isParsed, ?_, fun names orders => (walked names orders).2.2.2.2⟩
      rw [(walked [] fun _ => .newestFirst).1]
      exact isSome
  | errors errs => cases isExpr
  | panicked failure => cases isExpr

/-! ### Requests -/

structure LogQL where
  engine : RegexpEngine
  library : Logql.Library
  /-- The text of the first error of a parse, which has its position. -/
  errorText : List ScanError → GoString
  /-- The text of the error for a pattern that does not compile. -/
  patternErrorText : GoString → GoString

/-- How a call turns out: the parser that the pool gives, the number of rounds that
it is waited for, and the order of each loop over a map. -/
structure Run where
  parser : Logql.Parser
  rounds : Nat
  orders : Nat → MapOrder

inductive Failure where
  | error (message : GoString)
  | panicked (failure : Logql.Panic)
  /-- The parser has not returned. -/
  | unfinished

def logicalOr : GoString := ascii "or"

def queryParam : GoString := ascii "query"

def matchParam : GoString := ascii "match"

def logQLParam (path : GoString) : GoString :=
  if hasSuffix path (ascii "/series") then matchParam else queryParam

section Enforcer

variable (logql : LogQL) (mInfo : AuthzResponseData)

/-- The matchers are made again, so that their patterns are compiled. -/
def initAuthzMatchers : List Matcher → Except Failure (List Matcher)
  | [] => .ok []
  | m :: rest =>
      match newMatcher logql.engine m.type m.name m.value with
      | none =>
          .error (.error (ascii "failed parsing label matcher: " ++ logql.patternErrorText m.value))
      | some nm =>
          match initAuthzMatchers rest with
          | .error failure => .error failure
          | .ok others => .ok (nm :: others)

/-- The selector that stands for a request without one. -/
def tenantOnly (lm : List Matcher) : GoString :=
  (Logql.StreamMatcherExpr.mk lm).string logql.library.unicode

/-- The callbacks of `enforceValuesOnLogQL`. -/
def enforceExpr (run : Run) (lm : List Matcher) (paramName : GoString) (e : Logql.Expr) :
    Logql.Expr :=
  if mInfo.matcherOp = logicalOr ∧ paramName = queryParam then
    (e.walk ⟨fun q (calls : Nat) => (q.appendPipelineMatchers .or lm, calls), Prod.mk⟩ 0).1
  else
    (e.walk (enforcing logql.engine run.orders lm) 0).1

/-- The value that takes the place of a value of the caller. -/
def enforceValue (run : Run) (lm : List Matcher) (paramName paramValue : GoString) :
    Except Failure GoString :=
  match Logql.parseExpr logql.engine logql.library run.rounds run.parser paramValue with
  | none => .error .unfinished
  | some (.panicked failure) => .error (.panicked failure)
  | some (.errors errs) =>
      .error (.error (ascii "failed parsing LogQL expression: " ++ logql.errorText errs))
  | some (.expr e numbers) =>
      .ok ((enforceExpr logql mInfo run lm paramName e).string logql.library.unicode numbers)

def enforceValuesOnLogQL (run : Run) (v : Values) (paramName : GoString) :
    Except Failure GoString :=
  match initAuthzMatchers logql mInfo.matchers with
  | .error failure => .error failure
  | .ok lm =>
      let paramValue := v.get paramName
      if paramValue = [] then .ok (v.set paramName (tenantOnly logql lm)).encode
      else
        match enforceValue logql mInfo run lm paramName paramValue with
        | .error failure => .error failure
        | .ok enforced => .ok (v.set paramName enforced).encode

structure Runs where
  url : Run
  body : Run

def enforceRequestLogQL (runs : Runs) (r : Request) : Except Failure Request :=
  let paramName := logQLParam r.url.path
  match enforceValuesOnLogQL logql mInfo runs.url r.url.query paramName with
  | .error failure => .error failure
  | .ok q =>
      let r := { r with url := { r.url with rawQuery := q } }
      if r.method ≠ methodPost then .ok r
      else
        match r.parseForm with
        | .error err => .error (.error (ascii "could not parse form: " ++ err.text))
        | .ok (postForm, r) =>
            if (postForm.all paramName).length > 0 then
              match enforceValuesOnLogQL logql mInfo runs.body postForm paramName with
              | .error failure => .error failure
              | .ok body => .ok (r.setBody body)
            else .ok (r.setBody postForm.encode)

/-- A panic is answered by the recoverer of the root router. -/
def withEnforceAuthorizationLabels {Upstream : Type} (logql : LogQL) (runs : Runs) :
    Middleware Upstream :=
  fun next r =>
    match r.context.data with
    | none =>
        prometheusAPIError .internalServerError
          (ascii "error finding authorization label matcher")
    | some .empty => next r
    | some .malformed =>
        prometheusAPIError .internalServerError
          (ascii "error parsing authorization label matchers")
    | some (.document mInfo) =>
        match enforceRequestLogQL logql mInfo runs r with
        | .ok sent => next sent
        | .error (.error message) =>
            prometheusAPIError .internalServerError
              (ascii "could not enforce authorization label matchers: " ++ message)
        | .error (.panicked _) => [.answered ⟨.internalServerError, []⟩]
        | .error .unfinished => []

/-! ### Selectors of the published API -/

def repeatedMatchParam : GoString := ascii "match[]"

/-- The selector parameters that the API specification defines for a path. -/
def selectorParams (path : GoString) : List GoString :=
  if hasSuffix path (ascii "/series") then [repeatedMatchParam, matchParam] else [queryParam]

/-- The values of a parameter in the URL and in the body. -/
def paramValues (r : Request) (paramName : GoString) : List GoString :=
  r.url.query.all paramName ++ r.bodyForm.all paramName

/-- The selector for the tenant only: the matchers between braces. -/
def tenantSelector : GoString :=
  ascii "\x7b" ++
    (ascii ", ").intercalate (mInfo.matchers.map (Matcher.string logql.library.unicode)) ++
    ascii "\x7d"

/-- The value is the selector for the tenant only, or one of the caller's selectors after
enforcement, or it implies the matchers as it is. -/
inductive Guarded (runs : Runs) (r : Request) (value : GoString) : Prop where
  | tenantOnly (same : value = tenantSelector logql mInfo)
  | enforced {paramName caller : GoString} {run : Run}
      (isParam : paramName ∈ selectorParams r.url.path)
      (isCaller : caller ∈ paramValues r paramName)
      (isRun : run = runs.url ∨ run = runs.body)
      (enforced : enforceValue logql mInfo run mInfo.matchers (logQLParam r.url.path) caller =
        .ok value)
  | implies {run : Run} {e : Logql.Expr} {numbers : Logql.Numbers}
      (isRun : run = runs.url ∨ run = runs.body)
      (parsed : Logql.parseExpr logql.engine logql.library run.rounds run.parser value =
        some (.expr e numbers))
      (guards : ∀ s ∈ e.rendered, ∀ m ∈ mInfo.matchers, Implies logql.engine s.matchers m)

theorem initAuthzMatchers_ok (matchers lm : List Matcher)
    (made : initAuthzMatchers logql matchers = .ok lm) : lm = matchers := by
  induction matchers generalizing lm with
  | nil =>
      cases made
      rfl
  | cons m rest ih =>
      rw [initAuthzMatchers] at made
      split at made
      · cases made
      · rename_i nm created
        split at made
        · cases made
        · rename_i others isOthers
          cases made
          rw [ih others isOthers, newMatcher_eq_some _ _ _ _ nm created]

/-- The parameter is left with one value, and the other parameters are kept. -/
structure Rewritten (run : Run) (paramName : GoString) (before after : Values) : Prop where
  value : ∃ value, after.all paramName = [value] ∧
    (value = tenantSelector logql mInfo ∨
      ∃ caller ∈ before.all paramName,
        enforceValue logql mInfo run mInfo.matchers paramName caller = .ok value)
  others : ∀ key, key ≠ paramName → after.all key = before.all key

/-- The value that a call makes of the caller's: nothing, or an empty text, becomes the
selector for the tenant. -/
def Enforces (run : Run) (paramName caller value : GoString) : Prop :=
  if caller = [] then value = tenantSelector logql mInfo
  else enforceValue logql mInfo run mInfo.matchers paramName caller = .ok value

/-- As `Rewritten`, with the value that counts: the first one. -/
structure FirstEnforced (run : Run) (paramName : GoString) (before after : Values) : Prop where
  value : ∃ value, after.all paramName = [value] ∧
    Enforces logql mInfo run paramName (before.get paramName) value
  others : ∀ key, key ≠ paramName → after.all key = before.all key

theorem FirstEnforced.rewritten {run : Run} {paramName : GoString} {before after : Values}
    (enforced : FirstEnforced logql mInfo run paramName before after) :
    Rewritten logql mInfo run paramName before after := by
  obtain ⟨value, isValue, enforces⟩ := enforced.value
  refine ⟨⟨value, isValue, ?_⟩, enforced.others⟩
  unfold Enforces at enforces
  split at enforces
  · exact Or.inl enforces
  · rename_i present
    refine Or.inr ⟨_, ?_, enforces⟩
    unfold Values.get at present ⊢
    cases all : before.all paramName with
    | nil =>
        rw [all] at present
        exact absurd rfl present
    | cons first rest => exact List.mem_cons_self

theorem firstEnforced_set (run : Run) (v : Values) (paramName value : GoString)
    (enforces : Enforces logql mInfo run paramName (v.get paramName) value) :
    FirstEnforced logql mInfo run paramName v (parseQuery (v.set paramName value).encode).1 := by
  refine ⟨⟨value, ?_, enforces⟩, fun key different => ?_⟩
  · rw [Values.all_parseQuery_encode, Values.all_set_self]
  · rw [Values.all_parseQuery_encode, Values.all_set_of_ne _ _ _ _ different]

theorem enforceValuesOnLogQL_ok (run : Run) (v : Values) (paramName q : GoString)
    (enforced : enforceValuesOnLogQL logql mInfo run v paramName = .ok q) :
    FirstEnforced logql mInfo run paramName v (parseQuery q).1 := by
  unfold enforceValuesOnLogQL at enforced
  split at enforced
  · cases enforced
  · rename_i lm made
    have same := initAuthzMatchers_ok logql mInfo.matchers lm made
    subst same
    dsimp only at enforced
    split at enforced
    · rename_i absent
      cases enforced
      exact firstEnforced_set logql mInfo run v paramName _ ((if_pos absent).mpr rfl)
    · rename_i present
      split at enforced
      · cases enforced
      · rename_i value isEnforced
        cases enforced
        exact firstEnforced_set logql mInfo run v paramName value ((if_neg present).mpr isEnforced)

theorem logQLParam_mem (path : GoString) : logQLParam path ∈ selectorParams path := by
  unfold logQLParam selectorParams
  split
  · exact List.mem_cons_of_mem _ List.mem_cons_self
  · exact List.mem_cons_self

theorem enforceRequestLogQL_ok (runs : Runs) (r sent : Request)
    (method : r.method = methodGet ∨ r.method = methodPost ∧ r.isForm = true)
    (enforced : enforceRequestLogQL logql mInfo runs r = .ok sent) :
    FirstEnforced logql mInfo runs.url (logQLParam r.url.path) r.url.query sent.url.query ∧
    (r.bodyForm.all (logQLParam r.url.path) ≠ [] ∧
        FirstEnforced logql mInfo runs.body (logQLParam r.url.path) r.bodyForm
          sent.bodyForm ∨
      r.bodyForm.all (logQLParam r.url.path) = [] ∧
        ∀ key, sent.bodyForm.all key = r.bodyForm.all key) := by
  unfold enforceRequestLogQL at enforced
  dsimp only at enforced
  split at enforced
  · cases enforced
  · rename_i q urlEnforced
    have inURL := enforceValuesOnLogQL_ok logql mInfo _ _ _ q urlEnforced
    rcases method with isGet | ⟨isPost, isForm⟩
    · have notPost : r.method ≠ methodPost := by
        rw [isGet]
        decide
      have noBody : ∀ own : Request, own.method = r.method → own.bodyForm = [] := by
        intro own same
        apply own.bodyForm_of_not_sendsForm
        rw [Request.sendsForm, same, isGet]
        decide
      rw [if_pos notPost] at enforced
      cases enforced
      refine ⟨inURL, Or.inr ⟨by rw [noBody r rfl]; rfl, fun key => ?_⟩⟩
      rw [noBody r rfl]
      exact congrArg (Values.all · key) (noBody _ rfl)
    · rw [if_neg (not_not.mpr isPost)] at enforced
      split at enforced
      · cases enforced
      · rename_i postForm consumed parsed
        obtain ⟨isPostForm, kept⟩ := Request.parseForm_ok _ postForm consumed parsed
        have isBefore : r.bodyForm = postForm := isPostForm.symm
        have written : ∀ body, (consumed.setBody body).bodyForm = (parseQuery body).1 :=
          fun body => consumed.bodyForm_setBody body (by rw [kept]; exact isPost)
            (by rw [kept]; exact isForm)
        have urlKept : (parseQuery q).1 = consumed.url.query := by rw [kept]; rfl
        rw [urlKept] at inURL
        rw [isBefore]
        split at enforced
        · rename_i present
          split at enforced
          · cases enforced
          · rename_i body bodyEnforced
            have inBody := enforceValuesOnLogQL_ok logql mInfo _ _ _ body bodyEnforced
            cases enforced
            refine ⟨inURL, Or.inl ⟨List.ne_nil_of_length_pos present, ?_⟩⟩
            rw [written]
            exact inBody
        · rename_i absent
          cases enforced
          refine ⟨inURL, Or.inr ⟨?_, fun key => ?_⟩⟩
          · rw [← List.length_eq_zero_iff]
            omega
          · rw [written]
            exact Values.all_parseQuery_encode postForm key

theorem Rewritten.guarded {runs : Runs} {r : Request} {run : Run} {before after : Values}
    (rewritten : Rewritten logql mInfo run (logQLParam r.url.path) before after)
    (isRun : run = runs.url ∨ run = runs.body)
    (callers : ∀ caller ∈ before.all (logQLParam r.url.path),
      caller ∈ paramValues r (logQLParam r.url.path)) :
    ∀ value ∈ after.all (logQLParam r.url.path), Guarded logql mInfo runs r value := by
  obtain ⟨own, isOwn, same | ⟨caller, isCaller, isEnforced⟩⟩ := rewritten.value
  · intro value member
    rw [isOwn] at member
    rw [List.mem_singleton.mp member]
    exact .tenantOnly same
  · intro value member
    rw [isOwn] at member
    rw [List.mem_singleton.mp member]
    exact .enforced (logQLParam_mem _) (callers caller isCaller) isRun isEnforced

theorem enforceRequestLogQL_guarded (runs : Runs) (r sent : Request)
    (method : r.method = methodGet ∨ r.method = methodPost ∧ r.isForm = true)
    (enforced : enforceRequestLogQL logql mInfo runs r = .ok sent) :
    (∀ value ∈ paramValues sent (logQLParam r.url.path), Guarded logql mInfo runs r value) ∧
    ∀ key, key ≠ logQLParam r.url.path → paramValues sent key = paramValues r key := by
  obtain ⟨inURL, inBody⟩ := enforceRequestLogQL_ok logql mInfo runs r sent method enforced
  have urlGuarded := inURL.rewritten.guarded logql mInfo (Or.inl rfl)
    fun caller member => List.mem_append_left _ member
  rcases inBody with ⟨_, enforcedBody⟩ | ⟨absent, same⟩
  · have bodyGuarded := enforcedBody.rewritten.guarded logql mInfo (Or.inr rfl)
      fun caller member => List.mem_append_right _ member
    refine ⟨fun value member => ?_, fun key different => ?_⟩
    · exact (List.mem_append.mp member).elim (urlGuarded value) (bodyGuarded value)
    · rw [paramValues, inURL.others key different, enforcedBody.others key different]
      rfl
  · refine ⟨fun value member => ?_, fun key different => ?_⟩
    · rw [paramValues, same, absent, List.append_nil] at member
      exact urlGuarded value member
    · rw [paramValues, inURL.others key different, same]
      rfl

/-! ### What the upstream reads -/

/-- `FormValue` of `net/http`: values of the body come before those of the URL. -/
def formValue (r : Request) (paramName : GoString) : GoString :=
  (r.bodyForm.all paramName ++ r.url.query.all paramName).headD []

theorem enforceRequestLogQL_length (runs : Runs) (r sent : Request)
    (isPost : r.method = methodPost)
    (enforced : enforceRequestLogQL logql mInfo runs r = .ok sent) :
    sent.contentLength = sent.body.length ∧
      sent.header.get (ascii "Content-Length") = itoa sent.body.length := by
  have announced : ∀ (own : Request) (body : GoString), own.setBody body = sent →
      sent.contentLength = sent.body.length ∧
        sent.header.get (ascii "Content-Length") = itoa sent.body.length := by
    intro own body isSent
    rw [← isSent]
    exact ⟨rfl, Header.get_set_self _ _ _⟩
  unfold enforceRequestLogQL at enforced
  dsimp only at enforced
  split at enforced
  · cases enforced
  · rw [if_neg (not_not.mpr isPost)] at enforced
    split at enforced
    · cases enforced
    · split at enforced
      · split at enforced
        · cases enforced
        · exact announced _ _ (Except.ok.inj enforced)
      · exact announced _ _ (Except.ok.inj enforced)

/-- The upstream reads the value that enforcement makes of the one the caller meant; each
place has at most one value, made of the first one there, and the body has one only if
it had one before.  Other parameters are kept. -/
theorem enforceRequestLogQL_preserves (runs : Runs) (r sent : Request)
    (method : r.method = methodGet ∨ r.method = methodPost ∧ r.isForm = true)
    (enforced : enforceRequestLogQL logql mInfo runs r = .ok sent) :
    (∃ run, (run = runs.url ∨ run = runs.body) ∧
      Enforces logql mInfo run (logQLParam r.url.path)
        (formValue r (logQLParam r.url.path)) (formValue sent (logQLParam r.url.path))) ∧
    (sent.bodyForm.all (logQLParam r.url.path) ≠ [] →
      r.bodyForm.all (logQLParam r.url.path) ≠ []) ∧
    (sent.url.query.all (logQLParam r.url.path)).length ≤ 1 ∧
    (sent.bodyForm.all (logQLParam r.url.path)).length ≤ 1 ∧
    (∀ value ∈ sent.url.query.all (logQLParam r.url.path),
      Enforces logql mInfo runs.url (logQLParam r.url.path)
        (r.url.query.get (logQLParam r.url.path)) value) ∧
    (∀ value ∈ sent.bodyForm.all (logQLParam r.url.path),
      Enforces logql mInfo runs.body (logQLParam r.url.path)
        (r.bodyForm.get (logQLParam r.url.path)) value) ∧
    (∀ key, key ≠ logQLParam r.url.path →
      sent.url.query.all key = r.url.query.all key ∧
        sent.bodyForm.all key = r.bodyForm.all key) ∧
    (r.method = methodPost → sent.contentLength = sent.body.length ∧
      sent.header.get (ascii "Content-Length") = itoa sent.body.length) := by
  obtain ⟨inURL, inBody⟩ := enforceRequestLogQL_ok logql mInfo runs r sent method enforced
  have lengths := fun isPost => enforceRequestLogQL_length logql mInfo runs r sent isPost enforced
  have onlyValue : ∀ {run : Run} {before after : Values} {value : GoString},
      after.all (logQLParam r.url.path) = [value] →
      Enforces logql mInfo run (logQLParam r.url.path)
        (before.get (logQLParam r.url.path)) value →
      ∀ own ∈ after.all (logQLParam r.url.path),
        Enforces logql mInfo run (logQLParam r.url.path)
          (before.get (logQLParam r.url.path)) own := by
    intro run before after value isValue enforces own member
    rw [isValue] at member
    rwa [List.mem_singleton.mp member]
  obtain ⟨urlValue, isURLValue, urlEnforces⟩ := inURL.value
  have urlValues := onlyValue isURLValue urlEnforces
  rcases inBody with ⟨present, enforcedBody⟩ | ⟨absent, same⟩
  · obtain ⟨bodyValue, isBodyValue, bodyEnforces⟩ := enforcedBody.value
    have meant : formValue r (logQLParam r.url.path) =
        r.bodyForm.get (logQLParam r.url.path) := by
      obtain ⟨first, rest, isBody⟩ := List.exists_cons_of_ne_nil present
      rw [formValue, Values.get, isBody]
      rfl
    refine ⟨⟨runs.body, Or.inr rfl, ?_⟩, ?_, ?_, ?_, urlValues,
      onlyValue isBodyValue bodyEnforces, ?_, lengths⟩
    · rw [meant, formValue, isBodyValue]
      exact bodyEnforces
    · exact fun _ => present
    · rw [isURLValue]
      exact le_refl 1
    · rw [isBodyValue]
      exact le_refl 1
    · exact fun key different => ⟨inURL.others key different, enforcedBody.others key different⟩
  · have stillAbsent := same (logQLParam r.url.path)
    rw [absent] at stillAbsent
    refine ⟨⟨runs.url, Or.inl rfl, ?_⟩, ?_, ?_, ?_, urlValues, ?_, ?_, lengths⟩
    · rw [formValue, formValue, absent, stillAbsent, List.nil_append, List.nil_append, isURLValue]
      exact urlEnforces
    · exact fun present => absurd stillAbsent present
    · rw [isURLValue]
      exact le_refl 1
    · rw [stillAbsent]
      exact Nat.zero_le 1
    · intro value member
      rw [stillAbsent] at member
      cases member
    · exact fun key different => ⟨inURL.others key different, same key⟩

theorem enforced_of_passesOn (runs : Runs) (r sent : Request)
    (data : r.context.data = some (.document mInfo))
    (forwarded : PassesOn (withEnforceAuthorizationLabels logql runs) r sent) :
    enforceRequestLogQL logql mInfo runs r = .ok sent := by
  unfold PassesOn withEnforceAuthorizationLabels at forwarded
  rw [data] at forwarded
  dsimp only at forwarded
  split at forwarded
  · rename_i own isOwn
    rw [isOwn]
    have same := List.mem_singleton.mp forwarded
    cases same
    rfl
  · exact absurd (List.mem_singleton.mp forwarded) nofun
  · exact absurd (List.mem_singleton.mp forwarded) nofun
  · cases forwarded

/-- All selectors that a request is forwarded with are guarded, exactly if the path
is not one of `/series`, or the caller's values of `match[]` are guarded already. -/
theorem forwardedSelectors_guarded_iff (runs : Runs) (r sent : Request)
    (method : r.method = methodGet ∨ r.method = methodPost ∧ r.isForm = true)
    (data : r.context.data = some (.document mInfo))
    (forwarded : PassesOn (withEnforceAuthorizationLabels logql runs) r sent) :
    (∀ paramName ∈ selectorParams r.url.path, ∀ value ∈ paramValues sent paramName,
        Guarded logql mInfo runs r value) ↔
      (hasSuffix r.url.path (ascii "/series") = true →
        ∀ value ∈ paramValues r repeatedMatchParam, Guarded logql mInfo runs r value) := by
  obtain ⟨guarded, others⟩ := enforceRequestLogQL_guarded logql mInfo runs r sent method
    (enforced_of_passesOn logql mInfo runs r sent data forwarded)
  by_cases isSeries : hasSuffix r.url.path (ascii "/series") = true
  · have isParam : logQLParam r.url.path = matchParam := if_pos isSeries
    have different : repeatedMatchParam ≠ logQLParam r.url.path := by
      rw [isParam]
      decide
    rw [selectorParams, if_pos isSeries]
    rw [isParam] at guarded
    have kept := others repeatedMatchParam different
    constructor
    · intro all _ value member
      rw [← kept] at member
      exact all repeatedMatchParam List.mem_cons_self value member
    · intro callers paramName isName value member
      rcases List.mem_cons.mp isName with rfl | isMatch
      · rw [kept] at member
        exact callers isSeries value member
      · rw [List.mem_singleton.mp isMatch] at member
        exact guarded value member
  · have isParam : logQLParam r.url.path = queryParam := if_neg isSeries
    rw [selectorParams, if_neg isSeries]
    rw [isParam] at guarded
    refine ⟨fun _ series => absurd series isSeries, fun _ paramName isName value member => ?_⟩
    rw [List.mem_singleton.mp isName] at member
    exact guarded value member

end Enforcer

/-! ### The parameter `match[]` -/

/-- Literals as regular expressions, and no texts for errors. -/
def plainLogQL : LogQL where
  engine := .literals
  library := .asciiOnly
  errorText _ := []
  patternErrorText _ := []

def quietRuns : Runs :=
  let run : Run := ⟨.new, 20, fun _ => .newestFirst⟩
  ⟨run, run⟩

def tenantT : AuthzResponseData :=
  ⟨[⟨.equal, ascii "tenant", ascii "t"⟩], []⟩

/-- The selector `{a="b"}` in the URL, and another parameter in the form. -/
def limitedQuery : Request where
  method := methodPost
  url := ⟨ascii "/api/logs/v1/loki/api/v1/query", [], ascii "query=%7Ba%3D%22b%22%7D"⟩
  header := [(ascii "Content-Type", [ascii "application/x-www-form-urlencoded"])]
  body := ascii "limit=5"
  contentLength := 7
  tls := none
  context := { Context.background with data := some (.document tenantT) }

theorem enforceRequestLogQL_preserves_limit :
    ∃ sent, enforceRequestLogQL plainLogQL tenantT quietRuns limitedQuery = .ok sent ∧
      sent.url.query.all queryParam = [ascii "\x7btenant=\"t\", a=\"b\"\x7d"] ∧
      sent.bodyForm.all queryParam = [] ∧
      sent.bodyForm.all (ascii "limit") = [ascii "5"] ∧
      sent.contentLength = sent.body.length := by
  have inURL : (enforceRequestLogQL plainLogQL tenantT quietRuns limitedQuery).toOption.map
      (fun sent => sent.url.query.all queryParam) =
        some [ascii "\x7btenant=\"t\", a=\"b\"\x7d"] := by decide +kernel
  cases enforced : enforceRequestLogQL plainLogQL tenantT quietRuns limitedQuery with
  | error failure =>
      rw [enforced] at inURL
      cases inURL
  | ok sent =>
      rw [enforced] at inURL
      obtain ⟨_, onlyBefore, _, _, _, _, others, lengths⟩ :=
        enforceRequestLogQL_preserves plainLogQL tenantT quietRuns limitedQuery sent
          (Or.inr ⟨rfl, by decide +kernel⟩) enforced
      refine ⟨sent, rfl, Option.some.inj inURL, ?_, ?_, (lengths rfl).1⟩
      · by_contra present
        exact absurd (onlyBefore present) (by decide +kernel)
      · rw [(others (ascii "limit") (by decide)).2]
        decide +kernel

/-- A request for series, with the parameters of its URL. -/
def seriesRequest (rawQuery : GoString) : Request where
  method := methodGet
  url := ⟨ascii "/api/logs/v1/loki/api/v1/series", [], rawQuery⟩
  header := []
  body := []
  contentLength := 0
  tls := none
  context := { Context.background with data := some (.document tenantT) }

theorem seriesRequest_forwarded (rawQuery : GoString)
    (accepted : (enforceRequestLogQL plainLogQL tenantT quietRuns
      (seriesRequest rawQuery)).isOk = true) :
    ∃ sent, enforceRequestLogQL plainLogQL tenantT quietRuns (seriesRequest rawQuery) = .ok sent ∧
      PassesOn (withEnforceAuthorizationLabels plainLogQL quietRuns) (seriesRequest rawQuery)
        sent := by
  cases enforced : enforceRequestLogQL plainLogQL tenantT quietRuns (seriesRequest rawQuery) with
  | error failure =>
      rw [enforced] at accepted
      cases accepted
  | ok sent =>
      refine ⟨sent, rfl, ?_⟩
      unfold PassesOn withEnforceAuthorizationLabels
      rw [show (seriesRequest rawQuery).context.data = some (.document tenantT) from rfl]
      dsimp only
      rw [enforced]
      exact List.mem_singleton.mpr rfl

/-- The request `match={a="b"}`. -/
theorem matchSelector_guarded :
    ∃ sent, PassesOn (withEnforceAuthorizationLabels plainLogQL quietRuns)
        (seriesRequest (ascii "match=%7Ba%3D%22b%22%7D")) sent ∧
      ∀ paramName ∈ selectorParams (ascii "/api/logs/v1/loki/api/v1/series"),
        ∀ value ∈ paramValues sent paramName, Guarded plainLogQL tenantT quietRuns
          (seriesRequest (ascii "match=%7Ba%3D%22b%22%7D")) value := by
  obtain ⟨sent, -, forwarded⟩ :=
    seriesRequest_forwarded (ascii "match=%7Ba%3D%22b%22%7D") (by decide +kernel)
  have noRepeated : paramValues (seriesRequest (ascii "match=%7Ba%3D%22b%22%7D"))
      repeatedMatchParam = [] := by decide +kernel
  refine ⟨sent, forwarded, (forwardedSelectors_guarded_iff plainLogQL tenantT quietRuns _ sent
    (Or.inl rfl) rfl forwarded).mpr ?_⟩
  intro _ value member
  rw [noRepeated] at member
  cases member

theorem callerSelector_not_guarded :
    ¬ Guarded plainLogQL tenantT quietRuns
      (seriesRequest (ascii "match[]=%7Ba%3D%22b%22%7D")) (ascii "\x7ba=\"b\"\x7d") := by
  have isQuiet : ∀ run, run = quietRuns.url ∨ run = quietRuns.body → run = quietRuns.url :=
    fun run either => either.elim id id
  intro guarded
  cases guarded with
  | tenantOnly same => exact absurd same (by decide +kernel)
  | @enforced paramName caller run isParam isCaller isRun enforced =>
      have onlyCaller : ∀ paramName ∈ selectorParams (ascii "/api/logs/v1/loki/api/v1/series"),
          ∀ caller ∈ paramValues (seriesRequest (ascii "match[]=%7Ba%3D%22b%22%7D")) paramName,
            caller = ascii "\x7ba=\"b\"\x7d" := by decide +kernel
      have isText : (enforceValue plainLogQL tenantT quietRuns.url tenantT.matchers matchParam
          (ascii "\x7ba=\"b\"\x7d")).toOption = some (ascii "\x7btenant=\"t\", a=\"b\"\x7d") := by
        decide +kernel
      rw [isQuiet run isRun, onlyCaller paramName isParam caller isCaller] at enforced
      have same := (congrArg Except.toOption enforced).symm.trans isText
      exact absurd (Option.some.inj same) (by decide)
  | @implies run e numbers isRun parsed guards =>
      have isRendered : ((Logql.parseExpr .literals .asciiOnly quietRuns.url.rounds
          quietRuns.url.parser (ascii "\x7ba=\"b\"\x7d")).bind Logql.Parsed.toExpr).map
            (fun found => found.1.rendered) = some [⟨[⟨.equal, ascii "a", ascii "b"⟩]⟩] := by
        decide +kernel
      rw [isQuiet run isRun] at parsed
      rw [show Logql.parseExpr .literals .asciiOnly quietRuns.url.rounds quietRuns.url.parser
        (ascii "\x7ba=\"b\"\x7d") = some (.expr e numbers) from parsed] at isRendered
      have rendered : e.rendered = [⟨[⟨.equal, ascii "a", ascii "b"⟩]⟩] :=
        Option.some.inj isRendered
      have member : (⟨[⟨.equal, ascii "a", ascii "b"⟩]⟩ : Logql.StreamMatcherExpr) ∈
          e.rendered := by
        rw [rendered]
        exact List.mem_cons_self
      have implied := guards _ member _ List.mem_cons_self
        (fun name => if name = ascii "a" then ascii "b" else []) (by
          intro m isMatcher
          rw [List.mem_singleton.mp isMatcher]
          decide)
      exact absurd implied (by decide)

/-- The request `match[]={a="b"}` is forwarded with the selector of the caller, and with one
for the tenant besides it. -/
theorem repeatedMatch_forwarded :
    ∃ sent, PassesOn (withEnforceAuthorizationLabels plainLogQL quietRuns)
        (seriesRequest (ascii "match[]=%7Ba%3D%22b%22%7D")) sent ∧
      paramValues sent matchParam = [ascii "\x7btenant=\"t\"\x7d"] ∧
      repeatedMatchParam ∈ selectorParams (ascii "/api/logs/v1/loki/api/v1/series") ∧
      ascii "\x7ba=\"b\"\x7d" ∈ paramValues sent repeatedMatchParam ∧
      ¬ Guarded plainLogQL tenantT quietRuns
        (seriesRequest (ascii "match[]=%7Ba%3D%22b%22%7D")) (ascii "\x7ba=\"b\"\x7d") := by
  obtain ⟨sent, enforced, forwarded⟩ :=
    seriesRequest_forwarded (ascii "match[]=%7Ba%3D%22b%22%7D") (by decide +kernel)
  have others := (enforceRequestLogQL_guarded plainLogQL tenantT quietRuns _ sent (Or.inl rfl)
    enforced).2 repeatedMatchParam (by decide)
  have added : (enforceRequestLogQL plainLogQL tenantT quietRuns
      (seriesRequest (ascii "match[]=%7Ba%3D%22b%22%7D"))).toOption.map
        (fun sent => paramValues sent matchParam) = some [ascii "\x7btenant=\"t\"\x7d"] := by
    decide +kernel
  rw [enforced] at added
  refine ⟨sent, forwarded, Option.some.inj added, by decide, ?_, callerSelector_not_guarded⟩
  rw [others]
  decide +kernel

example : logQLParam (ascii "/loki/api/v1/series") = matchParam := by
  decide +kernel

end McoaGateway.Logs
