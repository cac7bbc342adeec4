/-
Filters of Alertmanager requests (`api/metrics/v1/alertmanager_enforcer.go`).

`enforceTenancyOnFilter` puts a matcher for the tenant string in front of the
caller's `filter` values and drops those on the tenant label.  The receiver
reads the values with `amlabels.ParseMatcher`, whose regular expression is
written out here as a scan over the bytes.
-/

import McoaGateway.Authorization.Tenant
import McoaGateway.Quote
import McoaGateway.Server
import McoaGateway.Url

namespace McoaGateway.Metrics

open GoString

/-! ### `amlabels.ParseMatcher` -/

/-- The class `\s`. -/
def isMatcherSpace (b : UInt8) : Bool :=
  b = 9 || b = 10 || b = 12 || b = 13 || b = 32

def isFilterNameStart (b : UInt8) : Bool :=
  isNameStart b || b = byte ':'

def isFilterNameByte (b : UInt8) : Bool :=
  isNameByte b || b = byte ':'

def cutOperator : GoString → Option (MatchType × GoString)
  | 0x3D :: 0x7E :: rest => some (.regexp, rest)
  | 0x3D :: rest => some (.equal, rest)
  | 0x21 :: 0x3D :: rest => some (.notEqual, rest)
  | 0x21 :: 0x7E :: rest => some (.notRegexp, rest)
  | _ => none

/-- The loop that resolves the escapes of a value, with the flags `escaped` and
`expectTrailingQuote`. -/
def unescapeValue : Bool → Bool → GoString → Option GoString
  | _, expectTrailingQuote, [] => if expectTrailingQuote then none else some []
  | true, expectTrailingQuote, b :: rest =>
      let value := unescapeValue false expectTrailingQuote rest
      if b = byte 'n' then value.map (10 :: ·)
      else if b = byte '"' || b = byte '\\' then value.map (b :: ·)
      else value.map fun value => byte '\\' :: b :: value
  | false, expectTrailingQuote, b :: rest =>
      if b = byte '\\' then
        -- A backslash at the end stands for itself.
        if rest ≠ [] then unescapeValue true expectTrailingQuote rest
        else (unescapeValue false expectTrailingQuote rest).map (byte '\\' :: ·)
      else if b = byte '"' then
        if !expectTrailingQuote || rest ≠ [] then none else unescapeValue false false rest
      else (unescapeValue false expectTrailingQuote rest).map (b :: ·)

def trimMatcherSpace (text : GoString) : GoString :=
  ((text.dropWhile isMatcherSpace).reverse.dropWhile isMatcherSpace).reverse

def filterValue (raw : GoString) : Option GoString :=
  let (rawValue, expectTrailingQuote) :=
    match raw with
    | 0x22 :: rest => (rest, true)
    | _ => (raw, false)
  if validString rawValue then unescapeValue false expectTrailingQuote rawValue else none

section

variable (engine : RegexpEngine)

def parseMatcher (s : GoString) : Option Matcher :=
  let s := s.dropWhile isMatcherSpace
  let name := s.takeWhile isFilterNameByte
  if (name.head?.map isFilterNameStart).getD false then
    match cutOperator ((s.dropWhile isFilterNameByte).dropWhile isMatcherSpace) with
    | none => none
    | some (type, rest) =>
        match filterValue (trimMatcherSpace rest) with
        | none => none
        | some value => newMatcher engine type name value
  else none

/-! ### `WithEnforceTenancyOnFilter` -/

def filterParam : GoString := ascii "filter"

/-- The loop over the caller's filters; `none` when one of them is not a
matcher. -/
def keepFilters (label : GoString) : List GoString → Option (List GoString)
  | [] => some []
  | filter :: rest =>
      match parseMatcher engine filter with
      | none => none
      | some m =>
          if m.name = label then keepFilters label rest
          else (keepFilters label rest).map (filter :: ·)

variable (unicode : Unicode)

def enforceTenancyOnFilter (label : GoString) (r : Request) : Except HttpError Request :=
  match r.context.tenant with
  | none => .error ⟨.internalServerError, ascii "error finding tenant"⟩
  | some tenant =>
      let matcherStr := Matcher.string unicode ⟨.equal, label, tenant⟩
      let q := r.url.query
      match keepFilters engine label (q.all filterParam) with
      -- The source returns here without an answer.
      | none => .error ⟨.ok, []⟩
      | some kept =>
          let q := ((q.del filterParam).addAll filterParam (matcherStr :: kept)).del label
          .ok { r with url := { r.url with rawQuery := q.encode } }

def tenancyOnFilter (label : GoString) : Filter where
  run := enforceTenancyOnFilter engine unicode label
  keeps := by
    intro r sent passes
    unfold enforceTenancyOnFilter at passes
    split at passes
    · cases passes
    · dsimp only at passes
      split at passes
      · cases passes
      · cases passes
        exact ⟨rfl, rfl, rfl, rfl⟩

/-! ### The enforced filter read back -/

private theorem dropWhile_name (text rest : GoString) (b : UInt8)
    (name : ∀ c ∈ text, isFilterNameByte c = true) (stops : isFilterNameByte b = false) :
    (text ++ b :: rest).takeWhile isFilterNameByte = text ∧
      (text ++ b :: rest).dropWhile isFilterNameByte = b :: rest := by
  rw [List.takeWhile_append_of_pos name, List.dropWhile_append_of_pos name,
    List.takeWhile_cons_of_neg (by simp [stops]), List.dropWhile_cons_of_neg (by simp [stops]),
    List.append_nil]
  exact ⟨rfl, rfl⟩

theorem unescapeValue_plain (text : GoString) (plain : ∀ b ∈ text, isUnescaped b = true) :
    unescapeValue false true (text ++ [byte '"']) = some text := by
  induction text with
  | nil => rfl
  | cons b rest ih =>
      rw [List.forall_mem_cons] at plain
      have own := plain.1
      simp only [isUnescaped, Bool.and_eq_true, decide_eq_true_eq] at own
      rw [List.cons_append, unescapeValue, if_neg own.2, if_neg own.1.2, ih plain.2]
      rfl

theorem filterValue_quoted (text : GoString) (plain : ∀ b ∈ text, isUnescaped b = true) :
    filterValue (byte '"' :: (text ++ [byte '"'])) = some text := by
  have isAscii : ∀ b ∈ text ++ [byte '"'], b.toNat < 0x80 := by
    intro b member
    rcases List.mem_append.mp member with inText | isQuote
    · have own := plain b inText
      simp only [isUnescaped, Bool.and_eq_true, decide_eq_true_eq,
        UInt8.le_iff_toNat_le] at own
      exact Nat.lt_of_le_of_lt own.1.1.2 (by decide)
    · rw [List.mem_singleton.mp isQuote]
      decide
  change (if validString (text ++ [byte '"']) then
    unescapeValue false true (text ++ [byte '"']) else none) = some text
  rw [validString_ascii _ isAscii, if_pos rfl, unescapeValue_plain text plain]

theorem trimMatcherSpace_quoted (text : GoString) :
    trimMatcherSpace (byte '"' :: (text ++ [byte '"'])) =
      byte '"' :: (text ++ [byte '"']) := by
  have notSpace : ¬ isMatcherSpace (byte '"') = true := by decide
  rw [trimMatcherSpace, List.dropWhile_cons_of_neg notSpace, ← List.cons_append,
    List.reverse_append, List.reverse_singleton, List.singleton_append,
    List.dropWhile_cons_of_neg notSpace, List.reverse_cons, List.reverse_reverse]

private theorem isNameByte_facts (b : UInt8) :
    (isNameStart b = true → isFilterNameStart b = true ∧ isMatcherSpace b = false) ∧
      (isNameByte b = true → isFilterNameByte b = true) := by
  have inspected := forall_byte
    (fun b => (!isNameStart b || isFilterNameStart b && !isMatcherSpace b) &&
      (!isNameByte b || isFilterNameByte b)) (by decide +kernel) b
  simpa [imp_iff_not_or] using inspected

/-- The receiver reads the matcher that was written, for a label that needs no
quotes. -/
theorem parseMatcher_string (label value : GoString) (plainLabel : isPlainName label = true)
    (plain : ∀ b ∈ value, isUnescaped b = true) :
    parseMatcher engine (Matcher.string unicode ⟨.equal, label, value⟩) =
      some ⟨.equal, label, value⟩ := by
  have written : Matcher.string unicode ⟨.equal, label, value⟩ =
      label ++ byte '=' :: byte '"' :: (value ++ [byte '"']) := by
    rw [Matcher.string, if_pos plainLabel, quote_unescaped unicode value plain]
    rfl
  cases label with
  | nil => cases plainLabel
  | cons first rest =>
      simp only [isPlainName, Bool.and_eq_true, List.all_eq_true] at plainLabel
      obtain ⟨starts, notSpace⟩ := (isNameByte_facts first).1 plainLabel.1
      have name : ∀ c ∈ first :: rest, isFilterNameByte c = true := by
        intro c member
        apply (isNameByte_facts c).2
        rcases List.mem_cons.mp member with isFirst | inRest
        · rw [isFirst, isNameByte, plainLabel.1]
          rfl
        · exact plainLabel.2 c inRest
      obtain ⟨taken, dropped⟩ := dropWhile_name (first :: rest)
        (byte '"' :: (value ++ [byte '"'])) (byte '=') name (by decide)
      have front : (first :: rest ++ byte '=' :: byte '"' :: (value ++ [byte '"'])).dropWhile
          isMatcherSpace = first :: rest ++ byte '=' :: byte '"' :: (value ++ [byte '"']) := by
        rw [List.cons_append, List.dropWhile_cons_of_neg (by simp [notSpace])]
      have operator : (byte '=' :: byte '"' :: (value ++ [byte '"'])).dropWhile isMatcherSpace =
          byte '=' :: byte '"' :: (value ++ [byte '"']) :=
        List.dropWhile_cons_of_neg (by decide)
      rw [written, parseMatcher, front, taken, dropped, operator, List.head?_cons,
        Option.map_some, starts,
        Option.getD_some, if_pos rfl]
      change (match filterValue (trimMatcherSpace (byte '"' :: (value ++ [byte '"']))) with
        | none => none
        | some value => newMatcher engine .equal (first :: rest) value) = _
      rw [trimMatcherSpace_quoted, filterValue_quoted value plain]
      rfl

theorem parseMatcher_quotedLabel (label value : GoString) (quoted : isPlainName label = false) :
    parseMatcher engine (Matcher.string unicode ⟨.equal, label, value⟩) = none := by
  have written : ∃ rest, Matcher.string unicode ⟨.equal, label, value⟩ = byte '"' :: rest := by
    rw [Matcher.string, if_neg (by simp [quoted]), quote, List.cons_append]
    exact ⟨_, rfl⟩
  obtain ⟨rest, isQuoted⟩ := written
  rw [isQuoted, parseMatcher, List.dropWhile_cons_of_neg (by decide),
    List.takeWhile_cons_of_neg (by decide)]
  rfl

/-! ### The tenants of a filter list -/

theorem keepFilters_eq (label : GoString) (filters : List GoString) :
    keepFilters engine label filters =
      if ∀ filter ∈ filters, (parseMatcher engine filter).isSome then
        some (filters.filter fun filter =>
          (parseMatcher engine filter).map Matcher.name ≠ some label)
      else none := by
  induction filters with
  | nil => simp [keepFilters]
  | cons filter rest ih =>
      rw [keepFilters, ih]
      cases isMatcher : parseMatcher engine filter with
      | none => simp [isMatcher]
      | some m =>
          simp only [List.forall_mem_cons, isMatcher, Option.isSome_some, true_and]
          by_cases own : m.name = label
          · rw [if_pos own, List.filter_cons_of_neg (by simp [isMatcher, own])]
          · rw [if_neg own, List.filter_cons_of_pos (by simp [isMatcher, own])]
            split
            · rfl
            · rfl

/-- A caller's filter on another label than the tenant's. -/
def OnOtherLabel (label filter : GoString) : Bool :=
  (parseMatcher engine filter).map Matcher.name ≠ some label

/-- The matchers on the tenant label in a filter list admit the values that the
matcher of the query enforcement admits, and the other filters are the
caller's. -/
def SameTenants (tenantLabel : TenantLabel) (tenant : GoString)
    (callers forwarded : List GoString) : Prop :=
  (∃ matchers : List Matcher, forwarded.map (parseMatcher engine) = matchers.map some ∧
      ∃ m, tenantMatchers tenantLabel tenant = .ok [m] ∧
        ∀ value, (∀ f ∈ matchers, f.name = tenantLabel.name → f.matches engine value = true) ↔
          m.matches engine value = true) ∧
    forwarded.filter (OnOtherLabel engine tenantLabel.name) =
      callers.filter (OnOtherLabel engine tenantLabel.name)

/-- A request is answered with an error status, or forwarded with a filter list
for the same tenants. -/
def FilterEnforced (tenantLabel : TenantLabel) (tenant : GoString) (r : Request)
    (result : Except HttpError Request) : Prop :=
  match result with
  | .error error => 400 ≤ error.status.code
  | .ok sent => SameTenants engine tenantLabel tenant (r.url.query.all filterParam)
      (sent.url.query.all filterParam)

theorem forwarded_filters (label tenant : GoString) (r sent : Request)
    (isTenant : r.context.tenant = some tenant)
    (passes : enforceTenancyOnFilter engine unicode label r = .ok sent) :
    sent.url.query.all filterParam =
      if label = filterParam then []
      else Matcher.string unicode ⟨.equal, label, tenant⟩ ::
        (r.url.query.all filterParam).filter (OnOtherLabel engine label) := by
  rw [enforceTenancyOnFilter, isTenant] at passes
  dsimp only at passes
  rw [keepFilters_eq] at passes
  split at passes
  · cases passes
  · rename_i kept isKept
    split at isKept
    · cases isKept
      cases passes
      rw [Url.query, Values.all_parseQuery_encode]
      by_cases same : label = filterParam
      · rw [if_pos same, same, Values.all_del_self]
      · rw [if_neg same, Values.all_del_of_ne _ _ _ (Ne.symm same), Values.all_addAll_self,
          Values.all_del_self]
        rfl
    · cases isKept

theorem enforceTenancyOnFilter_isOk (label tenant : GoString) (r : Request)
    (isTenant : r.context.tenant = some tenant) :
    (∃ sent, enforceTenancyOnFilter engine unicode label r = .ok sent ∧
        ∀ filter ∈ r.url.query.all filterParam, (parseMatcher engine filter).isSome) ∨
      (enforceTenancyOnFilter engine unicode label r = .error ⟨.ok, []⟩ ∧
        ¬ ∀ filter ∈ r.url.query.all filterParam, (parseMatcher engine filter).isSome) := by
  rw [enforceTenancyOnFilter, isTenant]
  dsimp only
  rw [keepFilters_eq]
  by_cases parse : ∀ filter ∈ r.url.query.all filterParam, (parseMatcher engine filter).isSome
  · rw [if_pos parse]
    exact Or.inl ⟨_, rfl, parse⟩
  · rw [if_neg parse]
    exact Or.inr ⟨rfl, parse⟩

omit unicode in
theorem join_unescaped (names : List GoString) (admissible : AdmissibleTenants names) :
    ∀ b ∈ join (byte '|') names, isUnescaped b = true := by
  intro b member
  rcases mem_join _ _ _ member with isBar | ⟨name, isName, inName⟩
  · rw [isBar]
    decide
  · have inspected := forall_byte (fun b => !isTenantNameByte b || isUnescaped b)
      (by decide +kernel) b
    simpa [admissible.alphabet name isName b inName] using inspected

theorem join_not_mem (names : List GoString) (admissible : AdmissibleTenants names)
    (several : names.length ≠ 1) : join (byte '|') names ∉ names := by
  intro member
  match names with
  | [] => cases member
  | [name] => exact several rfl
  | first :: second :: rest =>
      have bar : byte '|' ∈ join (byte '|') (first :: second :: rest) := by
        rw [join_cons_cons]
        exact List.mem_append_right _ List.mem_cons_self
      exact absurd (admissible.alphabet _ member _ bar) (by decide)

theorem map_parseMatcher (filters : List GoString)
    (parse : ∀ filter ∈ filters, (parseMatcher engine filter).isSome) :
    filters.map (parseMatcher engine) = (filters.filterMap (parseMatcher engine)).map some := by
  induction filters with
  | nil => rfl
  | cons filter rest ih =>
      rw [List.forall_mem_cons] at parse
      obtain ⟨m, isMatcher⟩ := Option.isSome_iff_exists.mp parse.1
      rw [List.map_cons, List.filterMap_cons, isMatcher, List.map_cons, ih parse.2]

theorem sameTenants_iff (tenantLabel : TenantLabel) (names callers : List GoString)
    (admissible : AdmissibleTenants names) (plainLabel : isPlainName tenantLabel.name = true)
    (parse : ∀ filter ∈ callers, (parseMatcher engine filter).isSome) :
    SameTenants engine tenantLabel (join (byte '|') names) callers
        (Matcher.string unicode ⟨.equal, tenantLabel.name, join (byte '|') names⟩ ::
          callers.filter (OnOtherLabel engine tenantLabel.name)) ↔
      names.length = 1 := by
  have own := parseMatcher_string engine unicode tenantLabel.name (join (byte '|') names)
    plainLabel (join_unescaped names admissible)
  have matcher := tenantMatchers_join tenantLabel names admissible
  have admits := tenantMatcher_matches engine tenantLabel names admissible
  constructor
  · rintro ⟨⟨matchers, isRead, m, isMatcher, same⟩, _⟩
    rw [matcher] at isMatcher
    cases isMatcher
    by_contra several
    -- The joined names satisfy every matcher on the tenant label.
    refine join_not_mem names admissible several ((admits _).mp ((same _).mp ?_))
    intro f member isLabel
    have inRead : some f ∈ matchers.map some := List.mem_map_of_mem member
    rw [← isRead, List.map_cons, own, List.mem_cons] at inRead
    rcases inRead with isOwn | isCaller
    · cases isOwn
      exact beq_self_eq_true _
    · obtain ⟨filter, inCallers, isF⟩ := List.mem_map.mp isCaller
      have other := (List.mem_filter.mp inCallers).2
      rw [OnOtherLabel, isF, Option.map_some, isLabel] at other
      exact absurd rfl (of_decide_eq_true other)
  · intro single
    obtain ⟨name, rfl⟩ := List.length_eq_one_iff.mp single
    have joined : join (byte '|') [name] = name := by simp [join]
    rw [joined] at own ⊢
    have single := matcher
    rw [joined] at single
    refine ⟨⟨⟨.equal, tenantLabel.name, name⟩ ::
      (callers.filter (OnOtherLabel engine tenantLabel.name)).filterMap (parseMatcher engine),
      ?_, ?_⟩, ?_⟩
    · rw [List.map_cons, own, List.map_cons, map_parseMatcher engine]
      exact fun filter member => parse filter (List.mem_filter.mp member).1
    · refine ⟨tenantMatcher tenantLabel [name], single, ?_⟩
      intro value
      rw [admits, List.mem_singleton]
      constructor
      · intro all
        exact beq_iff_eq.mp (all _ List.mem_cons_self rfl)
      · intro isName f member isLabel
        rcases List.mem_cons.mp member with isOwn | isCaller
        · rw [isOwn, isName]
          exact beq_self_eq_true _
        · obtain ⟨filter, inOthers, isF⟩ := List.mem_filterMap.mp isCaller
          have other := (List.mem_filter.mp inOthers).2
          rw [OnOtherLabel, isF, Option.map_some, isLabel] at other
          exact absurd rfl (of_decide_eq_true other)
    · have notOther : ¬ OnOtherLabel engine tenantLabel.name
          (Matcher.string unicode ⟨.equal, tenantLabel.name, name⟩) = true := by
        simp [OnOtherLabel, own]
      rw [List.filter_cons_of_neg notOther, List.filter_filter]
      simp only [Bool.and_self]

/-- The filter list of an accepted tenant header restricts to the tenants of the
query enforcement exactly if the header names one tenant, the label can be
written without quotes and is not the parameter itself, and every filter of the
caller is a matcher. -/
theorem filterEnforced_iff (tenantHeader : GoString) (tenantLabel : TenantLabel) (r : Request)
    (names : List GoString)
    (accepted : tenantsFromHeader tenantHeader (r.header.values tenantHeader) = .ok names) :
    FilterEnforced engine tenantLabel (join (byte '|') names) r
        ((tenancyOnFilter engine unicode tenantLabel.name).run
          (r.withTenant (join (byte '|') names))) ↔
      names.length = 1 ∧ isPlainName tenantLabel.name = true ∧
        tenantLabel.name ≠ filterParam ∧
        ∀ filter ∈ r.url.query.all filterParam, (parseMatcher engine filter).isSome := by
  have admissible : AdmissibleTenants names :=
    ((tenantsFromHeader_eq_ok tenantHeader _ names).mp accepted).2
  have isTenant := Request.withTenant_tenant r (join (byte '|') names)
  rw [show (tenancyOnFilter engine unicode tenantLabel.name).run =
    enforceTenancyOnFilter engine unicode tenantLabel.name from rfl]
  rcases enforceTenancyOnFilter_isOk engine unicode tenantLabel.name _ _ isTenant with
    ⟨sent, passes, parse⟩ | ⟨silent, unreadable⟩
  · have forwarded := forwarded_filters engine unicode tenantLabel.name _ _ sent isTenant passes
    rw [show (r.withTenant (join (byte '|') names)).url = r.url from rfl] at forwarded parse
    rw [passes, FilterEnforced, forwarded]
    by_cases isParam : tenantLabel.name = filterParam
    · rw [if_pos isParam]
      constructor
      · rintro ⟨⟨matchers, isRead, m, isMatcher, same⟩, _⟩
        rw [tenantMatchers_join tenantLabel names admissible] at isMatcher
        cases isMatcher
        have noMatchers : matchers = [] := by
          simpa using isRead.symm
        have emptyName := (tenantMatcher_matches engine tenantLabel names admissible []).mp
          ((same []).mp (by simp [noMatchers]))
        exact absurd (admissible.nameNonempty [] emptyName) (by decide)
      · intro condition
        exact absurd isParam condition.2.2.1
    · rw [if_neg isParam]
      cases plainLabel : isPlainName tenantLabel.name with
      | true =>
          rw [sameTenants_iff engine unicode tenantLabel names _ admissible plainLabel parse]
          exact ⟨fun single => ⟨single, rfl, isParam, parse⟩, And.left⟩
      | false =>
          constructor
          · rintro ⟨⟨matchers, isRead, _⟩, _⟩
            rw [List.map_cons, parseMatcher_quotedLabel engine unicode _ _ plainLabel] at isRead
            cases matchers with
            | nil => cases isRead
            | cons m rest => cases (List.cons.inj isRead).1
          · intro condition
            cases condition.2.1
  · rw [silent]
    constructor
    · intro enforced
      have high : 400 ≤ Status.ok.code := enforced
      exact absurd high (by decide)
    · intro condition
      exact absurd condition.2.2.2 unreadable

end

/-! Requests for alerts. -/

def alertsRequest (tenants filter : String) : Request where
  method := methodGet
  url := ⟨ascii "/api/metrics/v1/am/api/v2/alerts", [],
    Values.encode [(filterParam, ascii filter)]⟩
  header := [(canonicalHeaderKey (ascii "X-Scope-OrgID"), [ascii tenants])]
  body := []
  contentLength := 0
  tls := none
  context := .background

theorem filterEnforced_oneTenant :
    FilterEnforced .literals tenantIdLabel (join (byte '|') [ascii "a"])
      (alertsRequest "a" "severity=\"page\"")
      ((tenancyOnFilter .literals .asciiOnly tenantIdLabel.name).run
        ((alertsRequest "a" "severity=\"page\"").withTenant (join (byte '|') [ascii "a"]))) := by
  have accepted : tenantsFromHeader (ascii "X-Scope-OrgID")
      ((alertsRequest "a" "severity=\"page\"").header.values (ascii "X-Scope-OrgID")) =
        .ok [ascii "a"] := by decide +kernel
  rw [filterEnforced_iff .literals .asciiOnly (ascii "X-Scope-OrgID") tenantIdLabel _ _ accepted]
  exact ⟨rfl, by decide +kernel, by decide +kernel, by decide +kernel⟩

/-- Two tenants give a filter that no alert of either passes; a filter that is no
matcher is answered with 200. -/
theorem twoTenants_filter_not_enforced :
    tenantsFromHeader (ascii "X-Scope-OrgID")
        ((alertsRequest "a|b" "severity=\"page\"").header.values (ascii "X-Scope-OrgID")) =
      .ok [ascii "a", ascii "b"] ∧
    ¬ FilterEnforced .literals tenantIdLabel (join (byte '|') [ascii "a", ascii "b"])
      (alertsRequest "a|b" "severity=\"page\"")
      ((tenancyOnFilter .literals .asciiOnly tenantIdLabel.name).run
        ((alertsRequest "a|b" "severity=\"page\"").withTenant
          (join (byte '|') [ascii "a", ascii "b"]))) ∧
    (tenancyOnFilter .literals .asciiOnly tenantIdLabel.name).run
        ((alertsRequest "a" "severity").withTenant (ascii "a")) = .error ⟨.ok, []⟩ := by
  refine ⟨by decide +kernel, ?_, by decide +kernel⟩
  have readable : ((tenancyOnFilter .literals .asciiOnly tenantIdLabel.name).run
      ((alertsRequest "a|b" "severity=\"page\"").withTenant
        (join (byte '|') [ascii "a", ascii "b"]))).map
          (fun sent => (sent.url.query.all filterParam).map (parseMatcher .literals)) =
      .ok [some ⟨.equal, ascii "tenant_id", ascii "a|b"⟩,
        some ⟨.equal, ascii "severity", ascii "page"⟩] := by decide +kernel
  generalize (tenancyOnFilter .literals .asciiOnly tenantIdLabel.name).run
    ((alertsRequest "a|b" "severity=\"page\"").withTenant
      (join (byte '|') [ascii "a", ascii "b"])) = result at readable ⊢
  cases result with
  | error error => cases readable
  | ok sent =>
      have forwarded := Except.ok.inj readable
      dsimp only at forwarded
      rintro ⟨⟨matchers, isRead, m, isMatcher, same⟩, _⟩
      have isA : m.matches .literals (ascii "a") = true := by
        have matcher : tenantMatchers tenantIdLabel (join (byte '|') [ascii "a", ascii "b"]) =
            .ok [⟨.regexp, ascii "tenant_id", ascii "a|b"⟩] := by decide +kernel
        rw [matcher] at isMatcher
        cases isMatcher
        decide +kernel
      have own : some ⟨.equal, ascii "tenant_id", ascii "a|b"⟩ ∈ matchers.map some := by
        rw [← isRead, forwarded]
        exact List.mem_cons_self
      obtain ⟨f, member, isOwn⟩ := List.mem_map.mp own
      cases isOwn
      exact absurd ((same (ascii "a")).mpr isA _ member rfl) (by decide +kernel)

end McoaGateway.Metrics
