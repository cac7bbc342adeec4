/-
Tenants named by a request header (`authentication/tenant_header.go`).

`withTenantFromHeader` flattens the header values into a list of names, checks
the list, and leaves its join by `|` in the request context.  The check is a
loop with an accumulator for the names already seen; `validateTenants_eq_none`
says what surviving it means for the list as a whole.
-/

import McoaGateway.Http

namespace McoaGateway

open GoString

def maxTenantNameLength : Nat := 256

def maxTenants : Nat := 100

/-- The character class of `tenantNameRegex`. -/
def isTenantNameByte (b : UInt8) : Bool :=
  (byte 'a' ≤ b && b ≤ byte 'z') || (byte 'A' ≤ b && b ≤ byte 'Z') ||
    (byte '0' ≤ b && b ≤ byte '9') || b = byte '_' || b = byte '-'

def tenantNameRegex (name : GoString) : Bool :=
  !name.isEmpty && name.all isTenantNameByte

/-- The inner loop over the parts of one header value. -/
def appendParts (tenants : List GoString) (value : GoString) : List GoString :=
  (split (byte '|') value).foldl
    (fun tenants part =>
      let tenant := trimSpace part
      if tenant ≠ [] then tenants ++ [tenant] else tenants)
    tenants

def collectTenants (tenantValues : List GoString) : List GoString :=
  tenantValues.foldl appendParts []

/-- The validation loop: the error of the first name that is too long, badly
formed or already seen. -/
def validateTenants (seen : List GoString) : List GoString → Option HttpError
  | [] => none
  | tenant :: rest =>
      if tenant.length > maxTenantNameLength then
        some ⟨.badRequest,
          ascii "tenant name too long (max 256 characters): " ++ tenant⟩
      else if !tenantNameRegex tenant then
        some ⟨.badRequest, ascii "invalid tenant name '" ++ tenant ++
          ascii "' (allowed: a-z, A-Z, 0-9, _, -)"⟩
      else if tenant ∈ seen then
        some ⟨.badRequest, ascii "duplicate tenant name: " ++ tenant⟩
      else
        validateTenants (tenant :: seen) rest

def tenantsFromHeader (tenantHeader : GoString) (tenantValues : List GoString) :
    Except HttpError (List GoString) :=
  if tenantValues.length = 0 then
    .error ⟨.badRequest,
      ascii "tenant header '" ++ tenantHeader ++ ascii "' is required"⟩
  else
    let tenants := collectTenants tenantValues
    if tenants.length = 0 then
      .error ⟨.badRequest, ascii "empty tenant name not allowed"⟩
    else if tenants.length > maxTenants then
      .error ⟨.badRequest, ascii "too many tenants (max 100)"⟩
    else
      match validateTenants [] tenants with
      | some error => .error error
      | none => .ok tenants

def withTenantFromHeader {Upstream : Type} (tenantHeader : GoString) :
    Middleware Upstream :=
  fun next request =>
    match tenantsFromHeader tenantHeader (request.header.values tenantHeader) with
    | .error error => [.answered error]
    | .ok tenants =>
        .passed .tenantHeader :: next (request.withTenant (join (byte '|') tenants))

/-! ### The names in a list of header values -/

/-- The non-empty trimmed parts of the values split on `|`, in order. -/
def headerTenants (tenantValues : List GoString) : List GoString :=
  ((tenantValues.flatMap (split (byte '|'))).map trimSpace).filter (· ≠ [])

private theorem appendParts_eq (tenants : List GoString) (value : GoString) :
    appendParts tenants value = tenants ++ headerTenants [value] := by
  have general : ∀ parts : List GoString, ∀ tenants : List GoString,
      parts.foldl
          (fun tenants part =>
            let tenant := trimSpace part
            if tenant ≠ [] then tenants ++ [tenant] else tenants)
          tenants =
        tenants ++ (parts.map trimSpace).filter (· ≠ []) := by
    intro parts
    induction parts with
    | nil =>
        intro tenants
        simp
    | cons part parts ih =>
        intro tenants
        rw [List.foldl_cons, ih]
        by_cases empty : trimSpace part = []
        · simp [empty]
        · simp [empty]
  simp only [appendParts, general, headerTenants, List.flatMap_cons,
    List.flatMap_nil, List.append_nil]

theorem collectTenants_eq (tenantValues : List GoString) :
    collectTenants tenantValues = headerTenants tenantValues := by
  have general : ∀ tenants : List GoString,
      tenantValues.foldl appendParts tenants =
        tenants ++ headerTenants tenantValues := by
    induction tenantValues with
    | nil =>
        intro tenants
        simp [headerTenants]
    | cons value rest ih =>
        intro tenants
        rw [List.foldl_cons, ih, appendParts_eq]
        simp [headerTenants]
  simpa [collectTenants] using general []

/-! ### Admissible lists of names -/

/-- One to a hundred distinct names of one to 256 bytes over the tenant name
alphabet. -/
structure AdmissibleTenants (names : List GoString) : Prop where
  nonempty : 1 ≤ names.length
  bounded : names.length ≤ maxTenants
  distinct : names.Nodup
  nameNonempty : ∀ name ∈ names, 1 ≤ name.length
  nameBounded : ∀ name ∈ names, name.length ≤ maxTenantNameLength
  alphabet : ∀ name ∈ names, ∀ b ∈ name, isTenantNameByte b = true

theorem tenantNameRegex_eq_true (name : GoString) :
    tenantNameRegex name = true ↔
      1 ≤ name.length ∧ ∀ b ∈ name, isTenantNameByte b = true := by
  cases name with
  | nil => simp [tenantNameRegex]
  | cons first rest => simp [tenantNameRegex]

theorem validateTenants_cons (seen rest : List GoString) (tenant : GoString) :
    validateTenants seen (tenant :: rest) =
      if tenant.length > maxTenantNameLength then
        some ⟨.badRequest,
          ascii "tenant name too long (max 256 characters): " ++ tenant⟩
      else if !tenantNameRegex tenant then
        some ⟨.badRequest, ascii "invalid tenant name '" ++ tenant ++
          ascii "' (allowed: a-z, A-Z, 0-9, _, -)"⟩
      else if tenant ∈ seen then
        some ⟨.badRequest, ascii "duplicate tenant name: " ++ tenant⟩
      else
        validateTenants (tenant :: seen) rest := rfl

theorem validateTenants_eq_none (seen names : List GoString) :
    validateTenants seen names = none ↔
      (∀ name ∈ names, name.length ≤ maxTenantNameLength ∧
          tenantNameRegex name = true ∧ name ∉ seen) ∧
        names.Nodup := by
  induction names generalizing seen with
  | nil => exact ⟨fun _ => ⟨nofun, List.nodup_nil⟩, fun _ => rfl⟩
  | cons name rest ih =>
      rw [validateTenants_cons]
      by_cases tooLong : name.length > maxTenantNameLength
      · simp only [if_pos tooLong]
        constructor
        · intro impossible
          cases impossible
        · intro valid
          have short := (valid.1 name List.mem_cons_self).1
          omega
      · rw [if_neg tooLong]
        by_cases wellFormed : tenantNameRegex name = true
        · by_cases repeated : name ∈ seen
          · simp [wellFormed, repeated]
          · have short : name.length ≤ maxTenantNameLength := by omega
            rw [List.forall_mem_cons, List.nodup_cons, if_neg (by simp [wellFormed]),
              if_neg repeated, ih]
            constructor
            · rintro ⟨valid, distinct⟩
              refine ⟨⟨⟨short, wellFormed, repeated⟩, ?_⟩, ?_, distinct⟩
              · intro other member
                obtain ⟨bounded, formed, unseen⟩ := valid other member
                exact ⟨bounded, formed, fun old => unseen (List.mem_cons_of_mem _ old)⟩
              · intro member
                exact (valid name member).2.2 List.mem_cons_self
            · rintro ⟨⟨-, valid⟩, fresh, distinct⟩
              refine ⟨?_, distinct⟩
              intro other member
              obtain ⟨bounded, formed, unseen⟩ := valid other member
              refine ⟨bounded, formed, ?_⟩
              rw [List.mem_cons, not_or]
              refine ⟨?_, unseen⟩
              rintro rfl
              exact fresh member
        · simp [wellFormed]

theorem tenantsFromHeader_eq_ok (tenantHeader : GoString)
    (tenantValues names : List GoString) :
    tenantsFromHeader tenantHeader tenantValues = .ok names ↔
      names = headerTenants tenantValues ∧ AdmissibleTenants names := by
  have noValues : tenantValues.length = 0 → headerTenants tenantValues = [] := by
    intro empty
    rw [List.length_eq_zero_iff.mp empty]
    rfl
  simp only [tenantsFromHeader, collectTenants_eq]
  constructor
  · intro accepted
    split_ifs at accepted with absent empty many
    cases checked : validateTenants [] (headerTenants tenantValues) with
    | some error =>
        rw [checked] at accepted
        cases accepted
    | none =>
        rw [checked] at accepted
        cases accepted
        obtain ⟨valid, distinct⟩ := (validateTenants_eq_none _ _).mp checked
        refine ⟨rfl, ?_⟩
        refine ⟨by omega, by omega, distinct, ?_, ?_, ?_⟩
        · intro name member
          exact ((tenantNameRegex_eq_true name).mp (valid name member).2.1).1
        · intro name member
          exact (valid name member).1
        · intro name member
          exact ((tenantNameRegex_eq_true name).mp (valid name member).2.1).2
  · rintro ⟨rfl, admissible⟩
    have some_name := admissible.nonempty
    have few := admissible.bounded
    have present : tenantValues.length ≠ 0 := by
      intro empty
      rw [noValues empty] at some_name
      simp at some_name
    have checked : validateTenants [] (headerTenants tenantValues) = none := by
      rw [validateTenants_eq_none]
      refine ⟨?_, admissible.distinct⟩
      intro name member
      refine ⟨admissible.nameBounded name member, ?_, List.not_mem_nil⟩
      rw [tenantNameRegex_eq_true]
      exact ⟨admissible.nameNonempty name member, admissible.alphabet name member⟩
    rw [if_neg present, if_neg (by omega), if_neg (by omega), checked]

theorem AdmissibleTenants.split_join {names : List GoString}
    (admissible : AdmissibleTenants names) :
    split (byte '|') (join (byte '|') names) = names := by
  refine GoString.split_join _ _ ?_ ?_
  · intro empty
    have some_name := admissible.nonempty
    simp [empty] at some_name
  · intro name member bar
    have admitted := admissible.alphabet name member _ bar
    exact absurd admitted (by decide)

end McoaGateway
