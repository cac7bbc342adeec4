/-
Ownership of silences (`api/metrics/v1/alertmanager_enforcer.go`).

A silence belongs to a tenant by a matcher on the tenant label.  One middleware
puts such a matcher into a posted silence, the other one looks for it before a
silence is read or deleted.  The fields of a matcher are pointers in the
source, and so are the matchers themselves; a dereference of a missing one
panics.
-/

import McoaGateway.Metrics.AlertmanagerFilter
import McoaGateway.Metrics.Handler
import McoaGateway.Metrics.LabelsEnforcer

namespace McoaGateway.Metrics

open GoString

/-- `models.Matcher`. -/
structure SilenceMatcher where
  name : Option GoString
  value : Option GoString
  isRegex : Option Bool
  isEqual : Option Bool
deriving DecidableEq, Repr

/-- `models.PostableSilence`; the middlewares do not look at its other fields. -/
structure PostableSilence (Fields : Type) where
  id : GoString
  matchers : List (Option SilenceMatcher)
  fields : Fields

/-- What a middleware does with a request; a panic ends it. -/
inductive Guarded where
  | passed (sent : Request)
  | answered (error : HttpError)
  | panicked
deriving DecidableEq, Repr

structure SilenceCodec (Fields : Type) where
  decode : GoString → Except GoString (PostableSilence Fields)
  encode : PostableSilence Fields → Except GoString GoString

/-! ### `WithEnforceTenancyOnSilenceMatchers` -/

/-- The loop over the matchers of a posted silence; `none` for a panic. -/
def otherMatchers (label : GoString) :
    List (Option SilenceMatcher) → Option (List (Option SilenceMatcher))
  | [] => some []
  | none :: _ => none
  | some m :: rest =>
      if m.name = some label then otherMatchers label rest
      else (otherMatchers label rest).map (some m :: ·)

def tenantSilenceMatcher (label tenant : GoString) : SilenceMatcher :=
  ⟨some label, some tenant, some false, some true⟩

section

variable {Fields : Type} (codec : SilenceCodec Fields)

def enforceTenancyOnSilenceMatchers (label : GoString) (r : Request) : Guarded :=
  match r.context.tenant with
  | none => .answered ⟨.internalServerError, ascii "error finding tenant"⟩
  | some tenant =>
      if r.method ≠ methodPost then
        .answered ⟨.methodNotAllowed, ascii "error method not allowed"⟩
      else
        match codec.decode r.body with
        | .error error => .answered ⟨.badRequest, ascii "bad request: can't decode: " ++ error⟩
        | .ok sil =>
            if sil.id ≠ [] then
              .answered ⟨.unprocessableEntity, ascii "updates to silence by ID not allowed"⟩
            else
              match otherMatchers label sil.matchers with
              | none => .panicked
              | some others =>
                  let modified := some (tenantSilenceMatcher label tenant) :: others
                  if modified.length < 2 then
                    .answered ⟨.badRequest, ascii "need at least one matcher, got none"⟩
                  else
                    match codec.encode { sil with matchers := modified } with
                    | .error error =>
                        .answered ⟨.internalServerError, ascii "can't encode: " ++ error⟩
                    | .ok body =>
                        .passed ({ r with url := { r.url with rawQuery := [] } }.setBody body)

/-! ### `WithEnforceTenancyOnSilenceID` -/

/-- The silence of an identifier, as the client of the Alertmanager gets it. -/
inductive SilenceLookup where
  | found (matchers : List (Option SilenceMatcher))
  | notFound
  | failed (message : GoString)
deriving DecidableEq, Repr

def silenceIDParam : GoString := ascii "silenceID"

/-- `none` for a panic. -/
def hasMatcherForLabel (name value : GoString) : List (Option SilenceMatcher) → Option Bool
  | [] => some false
  | none :: _ => none
  | some m :: rest =>
      match m.name with
      | none => none
      | some own =>
          if own = name then
            match m.isRegex with
            | none => none
            | some true => hasMatcherForLabel name value rest
            | some false =>
                match m.value with
                | none => none
                | some text =>
                    if text = value then some true else hasMatcherForLabel name value rest
          else hasMatcherForLabel name value rest

def silenceID (r : Request) : GoString :=
  Chi.urlParam r.routeContext.urlParams silenceIDParam

def enforceTenancyOnSilenceID (getSilenceByID : GoString → SilenceLookup) (label : GoString)
    (r : Request) : Guarded :=
  if silenceID r = [] then .answered ⟨.badRequest, ascii "bad request"⟩
  else
    match r.context.tenant with
    | none => .answered ⟨.internalServerError, ascii "error finding tenant"⟩
    | some tenant =>
        match getSilenceByID (silenceID r) with
        | .notFound => .answered ⟨.notFound, []⟩
        | .failed message => .answered ⟨.badGateway, ascii "proxy error: " ++ message⟩
        | .found matchers =>
            match hasMatcherForLabel label tenant matchers with
            | none => .panicked
            | some false => .answered ⟨.forbidden, ascii "forbidden"⟩
            | some true => .passed { r with url := { r.url with rawQuery := [] } }

/-! ### The middlewares in the router -/

/-- A panic is answered by `middleware.Recoverer`. -/
def Guarded.result : Guarded → Except HttpError Request
  | .passed sent => .ok sent
  | .answered error => .error error
  | .panicked => .error ⟨.internalServerError, []⟩

theorem Guarded.result_ok {guarded : Guarded} {sent : Request}
    (passes : guarded.result = .ok sent) : guarded = .passed sent := by
  cases guarded with
  | passed request =>
      cases passes
      rfl
  | answered error => cases passes
  | panicked => cases passes

/-- What is passed on is the request without its query, and with a body in the
case of a posted silence. -/
theorem enforceTenancyOnSilenceMatchers_passed (label : GoString) (r sent : Request)
    (passes : enforceTenancyOnSilenceMatchers codec label r = .passed sent) :
    ∃ body, sent = { r with url := { r.url with rawQuery := [] } }.setBody body := by
  unfold enforceTenancyOnSilenceMatchers at passes
  split at passes
  · cases passes
  · split at passes
    · cases passes
    · split at passes
      · cases passes
      · split at passes
        · cases passes
        · split at passes
          · cases passes
          · dsimp only at passes
            split at passes
            · cases passes
            · split at passes
              · cases passes
              · rename_i body _
                cases passes
                exact ⟨body, rfl⟩

theorem enforceTenancyOnSilenceID_passed (getSilenceByID : GoString → SilenceLookup)
    (label : GoString) (r sent : Request)
    (passes : enforceTenancyOnSilenceID getSilenceByID label r = .passed sent) :
    sent = { r with url := { r.url with rawQuery := [] } } := by
  unfold enforceTenancyOnSilenceID at passes
  split at passes
  · cases passes
  · split at passes
    · cases passes
    · split at passes
      · cases passes
      · cases passes
      · split at passes
        · cases passes
        · cases passes
        · cases passes
          rfl

def tenancyOnSilenceMatchers (label : GoString) : Filter where
  run r := (enforceTenancyOnSilenceMatchers codec label r).result
  keeps := by
    intro r sent passes
    obtain ⟨body, rfl⟩ := enforceTenancyOnSilenceMatchers_passed codec label r sent
      (Guarded.result_ok passes)
    exact ⟨rfl, rfl, rfl, rfl⟩

def tenancyOnSilenceID (getSilenceByID : GoString → SilenceLookup) (label : GoString) :
    Filter where
  run r := (enforceTenancyOnSilenceID getSilenceByID label r).result
  keeps := by
    intro r sent passes
    rw [enforceTenancyOnSilenceID_passed getSilenceByID label r sent (Guarded.result_ok passes)]
    exact ⟨rfl, rfl, rfl, rfl⟩

/-- The checks before the Alertmanager, as the router takes them. -/
def alertmanagerEnforcers (engine : RegexpEngine) (unicode : Unicode)
    (getSilenceByID : GoString → SilenceLookup) (label : GoString) : AlertmanagerEnforcers where
  tenancyOnFilter := Metrics.tenancyOnFilter engine unicode label
  tenancyOnSilenceMatchers := Metrics.tenancyOnSilenceMatchers codec label
  tenancyOnSilenceID := Metrics.tenancyOnSilenceID getSilenceByID label

/-! ### What a silence matches -/

variable (engine : RegexpEngine)

/-- A matcher of the Alertmanager, with the defaults of its model for what is
missing. -/
def SilenceMatcher.matches (m : SilenceMatcher) (labels : LabelSet) : Bool :=
  let value := labels (m.name.getD [])
  let held :=
    if m.isRegex.getD false then regexpMatches engine (m.value.getD []) value
    else value == m.value.getD []
  held == m.isEqual.getD true

def Silences (matchers : List (Option SilenceMatcher)) (labels : LabelSet) : Prop :=
  ∀ m, some m ∈ matchers → m.matches engine labels = true

/-- A matcher for the value of a label, negated or not. -/
def NamesTenant (label tenant : GoString) : Option SilenceMatcher → Bool
  | none => false
  | some m => m.name == some label && m.isRegex == some false && m.value == some tenant

/-- What `hasMatcherForLabel` dereferences of a matcher is there. -/
def Readable (label : GoString) : Option SilenceMatcher → Bool
  | none => false
  | some m =>
      m.name.isSome && (m.name != some label ||
        m.isRegex.isSome && (m.isRegex == some true || m.value.isSome))

def ExcludesTenant (label tenant : GoString) (m : Option SilenceMatcher) : Bool :=
  NamesTenant label tenant m && m.elim false fun m => m.isEqual == some false

def RequiresTenant (label tenant : GoString) (m : Option SilenceMatcher) : Bool :=
  NamesTenant label tenant m && m.elim false fun m => m.isEqual != some false

theorem hasMatcherForLabel_cons (label tenant : GoString) (m : Option SilenceMatcher)
    (rest : List (Option SilenceMatcher)) :
    hasMatcherForLabel label tenant (m :: rest) =
      if NamesTenant label tenant m then some true
      else if Readable label m then hasMatcherForLabel label tenant rest
      else none := by
  cases m with
  | none => rfl
  | some m =>
      obtain ⟨name, value, isRegex, isEqual⟩ := m
      cases name with
      | none => rfl
      | some own =>
          by_cases isLabel : own = label
          · cases isRegex with
            | none => simp [hasMatcherForLabel, NamesTenant, Readable, isLabel]
            | some regex =>
                cases regex with
                | true => simp [hasMatcherForLabel, NamesTenant, Readable]
                | false =>
                    cases value with
                    | none => simp [hasMatcherForLabel, NamesTenant, Readable, isLabel]
                    | some text => simp [hasMatcherForLabel, NamesTenant, Readable, isLabel]
          · simp [hasMatcherForLabel, NamesTenant, Readable, isLabel]

/-- The loop finds a matcher for the tenant, unless it meets one that cannot be
read before. -/
theorem hasMatcherForLabel_eq (label tenant : GoString)
    (matchers : List (Option SilenceMatcher)) :
    hasMatcherForLabel label tenant matchers =
      if (matchers.takeWhile fun m => !NamesTenant label tenant m).all (Readable label) then
        some (matchers.any (NamesTenant label tenant))
      else none := by
  induction matchers with
  | nil => rfl
  | cons m rest ih =>
      rw [hasMatcherForLabel_cons, ih]
      cases names : NamesTenant label tenant m with
      | true => simp [names]
      | false =>
          cases readable : Readable label m with
          | true => simp [names, readable]
          | false => simp [names, readable]

theorem matches_of_namesTenant (label tenant : GoString) (m : SilenceMatcher)
    (names : NamesTenant label tenant (some m) = true) (labels : LabelSet)
    (holds : m.matches engine labels = true) :
    (m.isEqual ≠ some false → labels label = tenant) ∧
      (m.isEqual = some false → labels label ≠ tenant) := by
  simp only [NamesTenant, Bool.and_eq_true, beq_iff_eq] at names
  obtain ⟨⟨isLabel, isText⟩, isTenant⟩ := names
  simp only [SilenceMatcher.matches, isLabel, isText, isTenant, Option.getD_some,
    Bool.false_eq_true, if_false] at holds
  cases isEqual : m.isEqual with
  | none => simpa [isEqual] using holds
  | some equal =>
      cases equal with
      | true => simpa [isEqual] using holds
      | false => simpa [isEqual] using holds

/-! ### Reading and deleting -/

/-- The middleware does not panic, and lets a tenant read or delete only a
silence whose alerts are the tenant's. -/
def SilenceIDSound (getSilenceByID : GoString → SilenceLookup) (label : GoString)
    (r : Request) : Prop :=
  enforceTenancyOnSilenceID getSilenceByID label r ≠ .panicked ∧
    ∀ tenant matchers sent, r.context.tenant = some tenant →
      getSilenceByID (silenceID r) = .found matchers →
      enforceTenancyOnSilenceID getSilenceByID label r = .passed sent →
      ∀ labels, Silences engine matchers labels → labels label = tenant

/-- The matchers up to the first one for the tenant can be read, and if there is
a negated one for the tenant there is also a plain one, or no alert matches. -/
def OwnershipReadable (label tenant : GoString) (matchers : List (Option SilenceMatcher)) :
    Prop :=
  (matchers.takeWhile fun m => !NamesTenant label tenant m).all (Readable label) = true ∧
    (matchers.any (ExcludesTenant label tenant) = true →
      matchers.any (RequiresTenant label tenant) = true ∨
        ∀ labels, ¬ Silences engine matchers labels)

theorem sound_of_required (label tenant : GoString) (matchers : List (Option SilenceMatcher))
    (required : matchers.any (RequiresTenant label tenant) = true) (labels : LabelSet)
    (silences : Silences engine matchers labels) : labels label = tenant := by
  obtain ⟨m, member, requires⟩ := List.any_eq_true.mp required
  cases m with
  | none => cases requires
  | some m =>
      simp only [RequiresTenant, Option.elim_some, Bool.and_eq_true, bne_iff_ne] at requires
      exact (matches_of_namesTenant engine label tenant m requires.1 labels
        (silences m member)).1 requires.2

theorem silences_excluded (label tenant : GoString) (matchers : List (Option SilenceMatcher))
    (excluded : matchers.any (ExcludesTenant label tenant) = true) (labels : LabelSet)
    (silences : Silences engine matchers labels) : labels label ≠ tenant := by
  obtain ⟨m, member, excludes⟩ := List.any_eq_true.mp excluded
  cases m with
  | none => cases excludes
  | some m =>
      simp only [ExcludesTenant, Option.elim_some, Bool.and_eq_true, beq_iff_eq] at excludes
      exact (matches_of_namesTenant engine label tenant m excludes.1 labels
        (silences m member)).2 excludes.2

theorem any_namesTenant (label tenant : GoString) (matchers : List (Option SilenceMatcher)) :
    matchers.any (NamesTenant label tenant) = true ↔
      matchers.any (RequiresTenant label tenant) = true ∨
        matchers.any (ExcludesTenant label tenant) = true := by
  have split : ∀ m, NamesTenant label tenant m =
      (RequiresTenant label tenant m || ExcludesTenant label tenant m) := by
    intro m
    cases m with
    | none => rfl
    | some m =>
        simp only [RequiresTenant, ExcludesTenant, Option.elim_some, ← Bool.and_or_distrib_left,
          bne, Bool.not_or_self, Bool.and_true]
  simp only [List.any_eq_true, split, Bool.or_eq_true, and_or_left, exists_or]

theorem hasMatcherForLabel_sound_iff (label tenant : GoString)
    (matchers : List (Option SilenceMatcher)) :
    (hasMatcherForLabel label tenant matchers ≠ none ∧
        (hasMatcherForLabel label tenant matchers = some true →
          ∀ labels, Silences engine matchers labels → labels label = tenant)) ↔
      OwnershipReadable engine label tenant matchers := by
  rw [hasMatcherForLabel_eq, OwnershipReadable]
  by_cases readable :
      (matchers.takeWhile fun m => !NamesTenant label tenant m).all (Readable label) = true
  · rw [if_pos readable, Option.some.injEq, any_namesTenant]
    simp only [ne_eq, reduceCtorEq, not_false_eq_true, true_and, readable]
    constructor
    · intro sound excluded
      by_cases required : matchers.any (RequiresTenant label tenant) = true
      · exact Or.inl required
      · refine Or.inr ?_
        intro labels silences
        exact silences_excluded engine label tenant matchers excluded labels silences
          (sound (Or.inr excluded) labels silences)
    · rintro guarded (required | excluded) labels silences
      · exact sound_of_required engine label tenant matchers required labels silences
      · rcases guarded excluded with required | empty
        · exact sound_of_required engine label tenant matchers required labels silences
        · exact absurd silences (empty labels)
  · simp [readable]

theorem silenceIDSound_iff (getSilenceByID : GoString → SilenceLookup) (label : GoString)
    (r : Request) :
    SilenceIDSound engine getSilenceByID label r ↔
      ∀ tenant matchers, silenceID r ≠ [] → r.context.tenant = some tenant →
        getSilenceByID (silenceID r) = .found matchers →
        OwnershipReadable engine label tenant matchers := by
  unfold SilenceIDSound enforceTenancyOnSilenceID
  by_cases noID : silenceID r = []
  · simp [noID]
  · rw [if_neg noID]
    cases r.context.tenant with
    | none => simp
    | some tenant =>
        cases getSilenceByID (silenceID r) with
        | notFound => simp
        | failed message => simp
        | found matchers =>
            dsimp only
            have sound := hasMatcherForLabel_sound_iff engine label tenant matchers
            constructor
            · rintro ⟨noPanic, owned⟩ _ _ _ isTenant isFound
              cases isTenant
              cases isFound
              refine sound.mp ⟨?_, ?_⟩
              · intro panics
                rw [panics] at noPanic
                exact noPanic rfl
              · intro isOwner
                rw [isOwner] at owned
                exact owned tenant matchers _ rfl rfl rfl
            · intro condition
              obtain ⟨noPanic, owned⟩ := sound.mpr (condition tenant matchers noID rfl rfl)
              cases found : hasMatcherForLabel label tenant matchers with
              | none => exact absurd found noPanic
              | some isOwner =>
                  cases isOwner with
                  | false => simp
                  | true =>
                      refine ⟨by simp, ?_⟩
                      intro _ _ _ isTenant isFound _
                      cases isTenant
                      cases isFound
                      exact owned found

/-! ### Posting -/

def OnOther (label : GoString) (m : Option SilenceMatcher) : Bool :=
  m.elim true fun m => m.name != some label

/-- The middleware does not panic, and the silence it forwards is the tenant's
and no other's, with the caller's matchers on other labels. -/
def SilencePostSound (label : GoString) (r : Request) : Prop :=
  enforceTenancyOnSilenceMatchers codec label r ≠ .panicked ∧
    ∀ tenant sent, r.context.tenant = some tenant →
      enforceTenancyOnSilenceMatchers codec label r = .passed sent →
      ∃ sil forwarded, codec.decode r.body = .ok sil ∧ codec.encode forwarded = .ok sent.body ∧
        forwarded.id = sil.id ∧ forwarded.fields = sil.fields ∧
        (∀ labels, Silences engine forwarded.matchers labels → labels label = tenant) ∧
        forwarded.matchers.filter (OnOther label) = sil.matchers.filter (OnOther label) ∧
        hasMatcherForLabel label tenant forwarded.matchers = some true ∧
        ∀ other, other ≠ tenant → hasMatcherForLabel label other forwarded.matchers ≠ some true

theorem otherMatchers_eq (label : GoString) (matchers : List (Option SilenceMatcher)) :
    otherMatchers label matchers =
      if none ∈ matchers then none else some (matchers.filter (OnOther label)) := by
  induction matchers with
  | nil => rfl
  | cons m rest ih =>
      cases m with
      | none => simp [otherMatchers]
      | some m =>
          rw [otherMatchers, ih]
          by_cases isLabel : m.name = some label
          · simp [isLabel, OnOther]
          · by_cases missing : none ∈ rest
            · simp [isLabel, missing]
            · rw [List.filter_cons_of_pos (by simpa [OnOther] using isLabel)]
              simp [isLabel, missing]

theorem namesTenant_onOther (label tenant : GoString) (m : Option SilenceMatcher)
    (onOther : OnOther label m = true) : NamesTenant label tenant m = false := by
  cases m with
  | none => rfl
  | some m =>
      simp only [OnOther, Option.elim_some, bne_iff_ne, ne_eq] at onOther
      simp [NamesTenant, onOther]

/-- A silence with the tenant's matcher in front and only other labels behind it
is found by this tenant only. -/
theorem hasMatcherForLabel_tenantFirst (label tenant other : GoString)
    (others : List (Option SilenceMatcher)) (onOther : ∀ m ∈ others, OnOther label m = true) :
    hasMatcherForLabel label other (some (tenantSilenceMatcher label tenant) :: others) =
        some true ↔ other = tenant := by
  rw [hasMatcherForLabel_cons]
  by_cases same : other = tenant
  · simp [NamesTenant, tenantSilenceMatcher, same]
  · have absent : others.any (NamesTenant label other) = false := by
      rw [List.any_eq_false]
      intro m member
      simp [namesTenant_onOther label other m (onOther m member)]
    have different : tenant ≠ other := fun equal => same equal.symm
    rw [if_neg (by simp [NamesTenant, tenantSilenceMatcher, different]), hasMatcherForLabel_eq,
      absent]
    simp [same]

theorem tenantFirst_owned (label tenant : GoString) (others : List (Option SilenceMatcher))
    (labels : LabelSet)
    (silences : Silences engine (some (tenantSilenceMatcher label tenant) :: others) labels) :
    labels label = tenant := by
  refine sound_of_required engine label tenant _ ?_ labels silences
  simp [RequiresTenant, NamesTenant, tenantSilenceMatcher]

theorem silencePostSound_iff (label : GoString) (r : Request) :
    SilencePostSound codec engine label r ↔
      ∀ tenant sil, r.context.tenant = some tenant → r.method = methodPost →
        codec.decode r.body = .ok sil → sil.id = [] → none ∉ sil.matchers := by
  unfold SilencePostSound enforceTenancyOnSilenceMatchers
  cases r.context.tenant with
  | none => simp
  | some tenant =>
      dsimp only
      by_cases isPost : r.method = methodPost
      · rw [if_neg (by simp [isPost])]
        cases codec.decode r.body with
        | error error => simp
        | ok sil =>
            dsimp only
            by_cases isUpdate : sil.id = []
            · rw [if_neg (by simp [isUpdate]), otherMatchers_eq]
              by_cases missing : none ∈ sil.matchers
              · rw [if_pos missing]
                simp [isPost, isUpdate, missing]
              · rw [if_neg missing]
                refine iff_of_true ?_ ?_
                · have onOther : ∀ m ∈ sil.matchers.filter (OnOther label),
                      OnOther label m = true := fun m member => (List.mem_filter.mp member).2
                  dsimp only
                  split
                  · simp
                  · split
                    · simp
                    · rename_i body isBody
                      refine ⟨by simp, ?_⟩
                      intro _ sent isTenant isSent
                      cases isTenant
                      cases isSent
                      refine ⟨sil, _, rfl, isBody, rfl, rfl,
                        tenantFirst_owned engine label tenant _, ?_, ?_, ?_⟩
                      · rw [List.filter_cons_of_neg (by simp [OnOther, tenantSilenceMatcher]),
                          List.filter_filter]
                        simp only [Bool.and_self]
                      · exact (hasMatcherForLabel_tenantFirst label tenant tenant _ onOther).mpr
                          rfl
                      · intro other different isOwner
                        exact different ((hasMatcherForLabel_tenantFirst label tenant other _
                          onOther).mp isOwner)
                · intro _ _ _ _ isSil _
                  cases isSil
                  exact missing
            · rw [if_pos isUpdate]
              simp [isUpdate]
      · rw [if_pos isPost]
        simp [isPost]

/-- Both middlewares are sound exactly on these silences: what they dereference
is there, and a silence that excludes the tenant is not taken for its own. -/
theorem silenceOwnership_iff (getSilenceByID : GoString → SilenceLookup) (label : GoString)
    (r : Request) :
    (SilenceIDSound engine getSilenceByID label r ↔
      ∀ tenant matchers, silenceID r ≠ [] → r.context.tenant = some tenant →
        getSilenceByID (silenceID r) = .found matchers →
        OwnershipReadable engine label tenant matchers) ∧
    (SilencePostSound codec engine label r ↔
      ∀ tenant sil, r.context.tenant = some tenant → r.method = methodPost →
        codec.decode r.body = .ok sil → sil.id = [] → none ∉ sil.matchers) :=
  ⟨silenceIDSound_iff engine getSilenceByID label r, silencePostSound_iff codec engine label r⟩

end

/-! A silence for every alert that does not carry the label of the tenant. -/

def foreignAlerts : List (Option SilenceMatcher) :=
  [some ⟨some (ascii "tenant_id"), some (ascii "a"), some false, some false⟩]

def silenceRequest (method : GoString) : Request where
  method := method
  url := ⟨ascii "/api/metrics/v1/am/api/v2/silence/5", [], []⟩
  header := []
  body := ascii "\x7b\"matchers\":[null]\x7d"
  contentLength := 19
  tls := none
  context :=
    { Context.background with
      tenant := some (ascii "a")
      route := some ⟨[], [], [(silenceIDParam, ascii "5")]⟩ }

/-- The tenant `a` may delete a silence of the alerts of `b`, and a missing
matcher in a posted silence is dereferenced. -/
theorem foreignAlerts_not_sound :
    ¬ SilenceIDSound .literals (fun _ => .found foreignAlerts) (ascii "tenant_id")
        (silenceRequest methodDelete) ∧
      enforceTenancyOnSilenceMatchers ⟨fun _ => .ok ⟨[], [none], ()⟩, fun _ => .ok []⟩
        (ascii "tenant_id") (silenceRequest methodPost) = .panicked := by
  refine ⟨?_, by decide +kernel⟩
  rintro ⟨_, owned⟩
  have passes : enforceTenancyOnSilenceID (fun _ => .found foreignAlerts) (ascii "tenant_id")
      (silenceRequest methodDelete) = .passed (silenceRequest methodDelete) := by
    decide +kernel
  refine absurd (owned (ascii "a") foreignAlerts _ rfl rfl passes (fun _ => ascii "b") ?_)
    (by decide +kernel)
  intro m member
  rw [foreignAlerts, List.mem_singleton, Option.some.injEq] at member
  rw [member]
  decide +kernel

end McoaGateway.Metrics
