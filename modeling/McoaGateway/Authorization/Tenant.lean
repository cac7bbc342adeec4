/-
Label matchers for tenants (`authorization/tenant.go`).

`withTenantLabel` turns the tenant string of the request context into one
matcher on the tenant label.  It splits the string which
`withTenantFromHeader` joined; the last part of this file shows that the two
middlewares in sequence admit exactly the names listed in the header.
-/

import McoaGateway.Authentication.TenantHeader

namespace McoaGateway

open GoString

/-- A label name as `WithTenantLabel` demands it: the source panics on an empty
one when the middleware is built. -/
structure TenantLabel where
  name : GoString
  nonempty : name ≠ []

/-- The label of a gateway that is given no other. -/
def tenantIdLabel : TenantLabel :=
  ⟨ascii "tenant_id", by decide⟩

/-- The loop that trims and escapes the names; `none` when one of them is
empty. -/
def quoteTenants : List GoString → Option (List GoString)
  | [] => some []
  | t :: rest =>
      let t := trimSpace t
      if t = [] then none else (quoteTenants rest).map (quoteMeta t :: ·)

def tenantMatchers (tenantLabel : TenantLabel) (tenant : GoString) :
    Except HttpError (List Matcher) :=
  match quoteTenants (split (byte '|') tenant) with
  | none => .error ⟨.badRequest, ascii "empty tenant name not allowed"⟩
  | some tenants =>
      if tenants.length = 1 then
        -- One tenant is matched as it was written, without escapes.
        let originalTenant := trimSpace ((split (byte '|') tenant).headD [])
        .ok [⟨.equal, tenantLabel.name, originalTenant⟩]
      else
        .ok [⟨.regexp, tenantLabel.name, join (byte '|') tenants⟩]

def withTenantLabel {Upstream : Type} (tenantLabel : TenantLabel) :
    Middleware Upstream :=
  fun next request =>
    match request.context.tenant with
    | none =>
        prometheusAPIError .badRequest
          (ascii "error finding tenant in request context")
    | some tenant =>
        match tenantMatchers tenantLabel tenant with
        | .error error => [.answered error]
        | .ok matchers => next (request.withData (.document ⟨matchers, []⟩))

/-! ### The matcher of an admissible list of names -/

/-- Equality for one name, an alternation of literals for several. -/
def tenantMatcher (tenantLabel : TenantLabel) : List GoString → Matcher
  | [name] => ⟨.equal, tenantLabel.name, name⟩
  | names => ⟨.regexp, tenantLabel.name, join (byte '|') (names.map quoteMeta)⟩

private theorem isTenantNameByte_cases (b : UInt8) (admitted : isTenantNameByte b = true) :
    b ∉ spaceRunes.flatten ∧ b < 128 := by
  have inspected := forall_byte
    (fun b => !isTenantNameByte b ||
      (!spaceRunes.flatten.contains b && decide (b < 128)))
    (by decide +kernel) b
  simpa [admitted] using inspected

private theorem AdmissibleTenants.trimSpace {names : List GoString}
    (admissible : AdmissibleTenants names) (name : GoString) (member : name ∈ names) :
    GoString.trimSpace name = name := by
  refine trimSpace_eq_self name ?_
  intro b inName
  exact (isTenantNameByte_cases b (admissible.alphabet name member b inName)).1

private theorem quoteTenants_eq (names : List GoString)
    (trimmed : ∀ name ∈ names, trimSpace name = name)
    (nonempty : ∀ name ∈ names, name ≠ []) :
    quoteTenants names = some (names.map quoteMeta) := by
  induction names with
  | nil => rfl
  | cons name rest ih =>
      rw [List.forall_mem_cons] at trimmed nonempty
      simp only [quoteTenants, trimmed.1, if_neg nonempty.1,
        ih trimmed.2 nonempty.2, Option.map_some, List.map_cons]

theorem tenantMatchers_join (tenantLabel : TenantLabel) (names : List GoString)
    (admissible : AdmissibleTenants names) :
    tenantMatchers tenantLabel (join (byte '|') names) =
      .ok [tenantMatcher tenantLabel names] := by
  have nonempty : ∀ name ∈ names, name ≠ [] := by
    intro name member empty
    have positive := admissible.nameNonempty name member
    simp [empty] at positive
  rw [tenantMatchers, admissible.split_join,
    quoteTenants_eq names admissible.trimSpace nonempty]
  match names with
  | [] => exact absurd admissible.nonempty (by simp)
  | [name] =>
      simp [tenantMatcher, admissible.trimSpace name List.mem_cons_self]
  | first :: second :: rest => simp [tenantMatcher]

theorem tenantMatcher_matches (engine : RegexpEngine) (tenantLabel : TenantLabel)
    (names : List GoString) (admissible : AdmissibleTenants names)
    (value : GoString) :
    (tenantMatcher tenantLabel names).matches engine value = true ↔
      value ∈ names := by
  match names with
  | [] => exact absurd admissible.nonempty (by simp)
  | [name] =>
      simp only [tenantMatcher, Matcher.matches, beq_iff_eq, List.mem_singleton]
  | first :: second :: rest =>
      refine regexp_literals_matches engine tenantLabel.name _ (by simp) ?_ value
      intro name member b inName
      exact (isTenantNameByte_cases b (admissible.alphabet name member b inName)).2

/-! ### Both middlewares in sequence -/

/-- What the two middlewares do with a request, for any handler behind them. -/
theorem tenantHeader_label_serve {Upstream : Type} (tenantHeader : GoString)
    (tenantLabel : TenantLabel) (next : Handler Upstream) (request : Request) :
    let names := headerTenants (request.header.values tenantHeader)
    (AdmissibleTenants names ∧
        chain [withTenantFromHeader tenantHeader, withTenantLabel tenantLabel]
            next request =
          .passed .tenantHeader ::
            next ((request.withTenant (join (byte '|') names)).withData
              (.document ⟨[tenantMatcher tenantLabel names], []⟩))) ∨
      (¬ AdmissibleTenants names ∧
        ∃ error, chain [withTenantFromHeader tenantHeader, withTenantLabel tenantLabel]
            next request = [.answered error]) := by
  intro names
  rw [chain_cons, chain_cons, chain_nil, withTenantFromHeader]
  cases listed : tenantsFromHeader tenantHeader
      (request.header.values tenantHeader) with
  | error error =>
      refine Or.inr ⟨?_, error, rfl⟩
      intro admissible
      have accepted :=
        (tenantsFromHeader_eq_ok tenantHeader _ names).mpr ⟨rfl, admissible⟩
      rw [listed] at accepted
      cases accepted
  | ok listedNames =>
      obtain ⟨rfl, admissible⟩ := (tenantsFromHeader_eq_ok tenantHeader _ _).mp listed
      refine Or.inl ⟨admissible, ?_⟩
      simp only [withTenantLabel, Request.withTenant_tenant,
        tenantMatchers_join tenantLabel _ admissible, names]

theorem tenantHeader_label_exact (engine : RegexpEngine) (tenantHeader : GoString)
    (tenantLabel : TenantLabel) (request : Request) :
    ((∃ sent, PassesOn
        (chain [withTenantFromHeader tenantHeader, withTenantLabel tenantLabel])
        request sent) ↔
      AdmissibleTenants (headerTenants (request.header.values tenantHeader))) ∧
    ∀ sent, PassesOn
        (chain [withTenantFromHeader tenantHeader, withTenantLabel tenantLabel])
        request sent →
      ∃ m, sent.context.data = some (.document ⟨[m], []⟩) ∧
        m.name = tenantLabel.name ∧
        (m.type = if (headerTenants (request.header.values tenantHeader)).length = 1
          then .equal else .regexp) ∧
        ∀ value, m.matches engine value = true ↔
          value ∈ headerTenants (request.header.values tenantHeader) := by
  unfold PassesOn
  rcases tenantHeader_label_serve tenantHeader tenantLabel deliver request with
    ⟨admissible, served⟩ | ⟨inadmissible, error, served⟩
  · rw [served]
    refine ⟨⟨fun _ => admissible, fun _ => ?_⟩, ?_⟩
    · exact ⟨_, List.mem_cons_of_mem _ List.mem_cons_self⟩
    intro sent passed
    simp only [deliver, List.mem_cons, reduceCtorEq, Event.forwarded.injEq, true_and,
      List.not_mem_nil, or_false, false_or] at passed
    subst passed
    refine ⟨tenantMatcher tenantLabel
      (headerTenants (request.header.values tenantHeader)), rfl, ?_, ?_, ?_⟩
    · unfold tenantMatcher
      split <;> rfl
    · unfold tenantMatcher
      split
      · rename_i name single
        simp [single]
      · rename_i several
        rw [if_neg]
        intro one
        obtain ⟨name, single⟩ := List.length_eq_one_iff.mp one
        exact several name single
    · exact tenantMatcher_matches engine tenantLabel _ admissible
  · rw [served]
    simp [inadmissible]

end McoaGateway
