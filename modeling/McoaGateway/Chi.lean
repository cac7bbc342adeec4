/-
A router in the manner of chi.

A pattern is a sequence of literal bytes, parameters and a catch-all at the
end.  The radix tree of the router tries, at each node, the literal edge first,
then the parameters, then the catch-all, and goes back when a branch fails; a
path therefore reaches the most specific of the patterns that match it and that
have an endpoint for the method.  This file states the router in that form,
over any type of endpoints.  Regular expressions in parameters are not covered.
-/

import Mathlib.Data.List.TakeWhile
import McoaGateway.Path

namespace McoaGateway.Chi

open GoString

inductive Token where
  | literal (code : UInt8)
  -- A parameter ends before the byte `tail`.
  | param (name : GoString) (tail : UInt8)
  | catchAll
deriving DecidableEq, Repr

abbrev Pattern := List Token

abbrev Params := List (GoString × GoString)

/-- The pattern of a text; `name` collects the bytes of an open parameter. -/
def parsePattern (name : Option GoString) : GoString → Pattern
  | [] => []
  | code :: rest =>
      match name with
      | none =>
          if code = byte '{' then parsePattern (some []) rest
          else if code = byte '*' then [.catchAll]
          else .literal code :: parsePattern none rest
      | some collected =>
          if code = byte '}' then
            .param collected (rest.headD slash) :: parsePattern none rest
          else parsePattern (some (collected ++ [code])) rest

def pattern (text : GoString) : Pattern :=
  parsePattern none text

/-- The value of a parameter and what follows it.  A parameter takes nothing
from an empty path, and only the slash may be missing at its end. -/
def cutParam (tail : UInt8) (path : GoString) : Option (GoString × GoString) :=
  let value := path.takeWhile (· != tail)
  let rest := path.dropWhile (· != tail)
  if path = [] then none
  else if rest = [] ∧ tail ≠ slash then none
  else if slash ∈ value then none
  else some (value, rest)

def star : GoString := ascii "*"

def matchPattern : Pattern → GoString → Option Params
  | [], [] => some []
  | [], _ :: _ => none
  | .literal _ :: _, [] => none
  | .literal code :: rest, head :: path =>
      if code = head then matchPattern rest path else none
  | .param name tail :: rest, path =>
      match cutParam tail path with
      | none => none
      | some (value, path) => (matchPattern rest path).map ((name, value) :: ·)
  | .catchAll :: _, path => some [(star, path)]

def Token.rank : Token → Nat
  | .literal _ => 0
  | .param _ _ => 1
  | .catchAll => 2

/-- The order in which the tree tries two patterns. -/
def precedes : Pattern → Pattern → Bool
  | _, [] => false
  | [], _ :: _ => true
  | first :: p, second :: q =>
      if first.rank = second.rank then precedes p q
      else decide (first.rank < second.rank)

/-- The methods the router knows; `Handle` registers all of them. -/
def methods : List GoString :=
  [ascii "CONNECT", ascii "DELETE", ascii "GET", ascii "HEAD", ascii "OPTIONS",
    ascii "PATCH", ascii "POST", ascii "PUT", ascii "TRACE"]

structure Route (Endpoint : Type) where
  -- `none` for every method.
  method : Option GoString
  pattern : Pattern
  endpoint : Endpoint

section Lookup

variable {Endpoint : Type}

def Route.serves (route : Route Endpoint) (method : GoString) : Bool :=
  match route.method with
  | none => true
  | some own => own == method

structure Match (Endpoint : Type) where
  pattern : Pattern
  endpoint : Endpoint
  params : Params

def Route.match (route : Route Endpoint) (method path : GoString) :
    Option (Match Endpoint) :=
  if route.serves method then
    (matchPattern route.pattern path).map fun params =>
      ⟨route.pattern, route.endpoint, params⟩
  else none

/-- Of two matches the more specific one, and of two registrations of one
pattern the later one. -/
def better (best : Option (Match Endpoint)) (candidate : Match Endpoint) :
    Option (Match Endpoint) :=
  match best with
  | none => some candidate
  | some old =>
      if precedes old.pattern candidate.pattern then some old else some candidate

inductive Lookup (Endpoint : Type) where
  | found (endpoint : Endpoint) (params : Params)
  | methodNotAllowed
  | notFound

def lookup (routes : List (Route Endpoint)) (method path : GoString) :
    Lookup Endpoint :=
  if method ∉ methods then .methodNotAllowed
  else
    match (routes.filterMap (·.match method path)).foldl better none with
    | some best => .found best.endpoint best.params
    | none =>
        if routes.any (fun route => (matchPattern route.pattern path).isSome) then
          .methodNotAllowed
        else .notFound

/-- The endpoints of a router that is mounted under a pattern. -/
def mount (base : GoString) (endpoint : Endpoint) : List (Route Endpoint) :=
  if base.getLast? = some slash then [⟨none, pattern (base ++ star), endpoint⟩]
  else
    [⟨none, pattern base, endpoint⟩, ⟨none, pattern (base ++ [slash]), endpoint⟩,
      ⟨none, pattern (base ++ slash :: star), endpoint⟩]

def nextRoutePath (params : Params) : GoString :=
  match params.getLast? with
  | some (name, value) => if name = star then slash :: value else [slash]
  | none => [slash]

/-- `URLParam`: the last value recorded under a name. -/
def urlParam (params : Params) (name : GoString) : GoString :=
  ((params.reverse.find? (·.1 == name)).map (·.2)).getD []

/-! ### What a lookup finds -/

theorem foldl_better_mem (candidates : List (Match Endpoint))
    (start : Option (Match Endpoint)) (best : Match Endpoint)
    (chosen : candidates.foldl better start = some best) :
    start = some best ∨ best ∈ candidates := by
  induction candidates generalizing start with
  | nil => exact Or.inl chosen
  | cons candidate rest ih =>
      rw [List.foldl_cons] at chosen
      rcases ih _ chosen with fromStart | later
      · unfold better at fromStart
        cases start with
        | none =>
            cases fromStart
            exact Or.inr List.mem_cons_self
        | some old =>
            simp only at fromStart
            by_cases keep : precedes old.pattern candidate.pattern = true
            · rw [if_pos keep] at fromStart
              exact Or.inl fromStart
            · rw [if_neg keep] at fromStart
              cases fromStart
              exact Or.inr List.mem_cons_self
      · exact Or.inr (List.mem_cons_of_mem _ later)

theorem foldl_better_isSome (candidates : List (Match Endpoint))
    (start : Option (Match Endpoint))
    (present : start.isSome = true ∨ candidates ≠ []) :
    (candidates.foldl better start).isSome = true := by
  induction candidates generalizing start with
  | nil =>
      rcases present with started | impossible
      · exact started
      · exact absurd rfl impossible
  | cons candidate rest ih =>
      rw [List.foldl_cons]
      apply ih
      apply Or.inl
      unfold better
      cases start with
      | none => rfl
      | some old =>
          by_cases keep : precedes old.pattern candidate.pattern = true <;> simp [keep]

theorem Route.match_eq_some (route : Route Endpoint) (method path : GoString)
    (matched : Match Endpoint) :
    route.match method path = some matched ↔
      route.serves method = true ∧
        ∃ params, matchPattern route.pattern path = some params ∧
          matched = ⟨route.pattern, route.endpoint, params⟩ := by
  unfold Route.match
  by_cases own : route.serves method = true
  · simp only [own, if_true, Option.map_eq_some_iff, true_and]
    constructor
    · rintro ⟨params, found, same⟩
      exact ⟨params, found, same.symm⟩
    · rintro ⟨params, found, same⟩
      exact ⟨params, found, same.symm⟩
  · simp [own]

theorem lookup_found (routes : List (Route Endpoint)) (method path : GoString)
    (endpoint : Endpoint) (params : Params)
    (found : lookup routes method path = .found endpoint params) :
    method ∈ methods ∧ ∃ route ∈ routes, route.serves method = true ∧
      matchPattern route.pattern path = some params ∧ route.endpoint = endpoint := by
  unfold lookup at found
  by_cases known : method ∉ methods
  · rw [if_pos known] at found
    cases found
  rw [if_neg known] at found
  refine ⟨not_not.mp known, ?_⟩
  cases chosen : (routes.filterMap (·.match method path)).foldl better none with
  | none =>
      rw [chosen] at found
      simp only at found
      split at found <;> cases found
  | some best =>
      rw [chosen] at found
      simp only [Lookup.found.injEq] at found
      rcases foldl_better_mem _ _ _ chosen with impossible | member
      · cases impossible
      · obtain ⟨route, inRoutes, matched⟩ := List.mem_filterMap.mp member
        obtain ⟨own, values, fits, rfl⟩ :=
          (route.match_eq_some method path best).mp matched
        exact ⟨route, inRoutes, own, fits.trans (congrArg some found.2), found.1⟩

theorem lookup_of_match (routes : List (Route Endpoint)) (method path : GoString)
    (known : method ∈ methods) (route : Route Endpoint) (member : route ∈ routes)
    (own : route.serves method = true) (params : Params)
    (matched : matchPattern route.pattern path = some params) :
    ∃ endpoint values, lookup routes method path = .found endpoint values := by
  have candidate : (⟨route.pattern, route.endpoint, params⟩ : Match Endpoint) ∈
      routes.filterMap (·.match method path) := by
    rw [List.mem_filterMap]
    exact ⟨route, member, (route.match_eq_some method path _).mpr
      ⟨own, params, matched, rfl⟩⟩
  have chosen := foldl_better_isSome (routes.filterMap (·.match method path)) none
    (Or.inr (List.ne_nil_of_mem candidate))
  obtain ⟨best, isBest⟩ := Option.isSome_iff_exists.mp chosen
  refine ⟨best.endpoint, best.params, ?_⟩
  rw [lookup, if_neg (not_not.mpr known), isBest]

end Lookup

/-! ### What a pattern matches -/

def isPlain (text : GoString) : Bool :=
  text.all fun code => code != byte '{' && code != byte '*'

theorem pattern_append (text rest : GoString) (plain : isPlain text = true) :
    pattern (text ++ rest) = text.map Token.literal ++ pattern rest := by
  induction text with
  | nil => rfl
  | cons code text ih =>
      simp only [isPlain, List.all_cons, Bool.and_eq_true, bne_iff_ne, ne_eq] at plain ih
      rw [List.cons_append, pattern, parsePattern, if_neg plain.1.1, if_neg plain.1.2,
        List.map_cons, List.cons_append]
      exact congrArg _ (ih plain.2)

theorem pattern_of_plain (text : GoString) (plain : isPlain text = true) :
    pattern text = text.map Token.literal := by
  have whole := pattern_append text [] plain
  rwa [List.append_nil, pattern, pattern, parsePattern, List.append_nil] at whole

theorem matchPattern_literals (text : GoString) (rest : Pattern) (path : GoString)
    (params : Params) :
    matchPattern (text.map Token.literal ++ rest) path = some params ↔
      ∃ tail, path = text ++ tail ∧ matchPattern rest tail = some params := by
  induction text generalizing path with
  | nil => simp
  | cons code text ih =>
      rw [List.map_cons, List.cons_append]
      cases path with
      | nil => simp [matchPattern]
      | cons head path =>
          rw [matchPattern]
          by_cases same : code = head
          · rw [if_pos same, ih path, same]
            simp
          · rw [if_neg same]
            have different : ¬ head = code := fun equal => same equal.symm
            simp [different]

theorem matchPattern_plain (text path : GoString) (params : Params) :
    matchPattern (text.map Token.literal) path = some params ↔
      path = text ∧ params = [] := by
  have literals := matchPattern_literals text [] path params
  rw [List.append_nil] at literals
  rw [literals]
  constructor
  · rintro ⟨tail, rfl, ended⟩
    cases tail with
    | nil =>
        simp only [matchPattern, Option.some.injEq] at ended
        exact ⟨List.append_nil text, ended.symm⟩
    | cons head tail => cases ended
  · rintro ⟨rfl, rfl⟩
    exact ⟨[], (List.append_nil path).symm, rfl⟩

theorem plain_prefix_of_match (text rest path : GoString) (params : Params)
    (plain : isPlain text = true)
    (matched : matchPattern (pattern (text ++ rest)) path = some params) :
    text <+: path := by
  rw [pattern_append text rest plain, matchPattern_literals] at matched
  obtain ⟨tail, shape, -⟩ := matched
  exact ⟨tail, shape.symm⟩

def literalPrefix : Pattern → GoString
  | .literal code :: rest => code :: literalPrefix rest
  | _ => []

theorem literalPrefix_of_match (own : Pattern) (path : GoString) (params : Params)
    (matched : matchPattern own path = some params) : literalPrefix own <+: path := by
  induction own generalizing path params with
  | nil => exact List.nil_prefix
  | cons token rest ih =>
      cases token with
      | literal code =>
          cases path with
          | nil => cases matched
          | cons head path =>
              rw [matchPattern] at matched
              by_cases same : code = head
              · rw [if_pos same] at matched
                rw [literalPrefix, same, List.cons_prefix_cons]
                exact ⟨rfl, ih path params matched⟩
              · rw [if_neg same] at matched
                cases matched
      | param name tail => exact List.nil_prefix
      | catchAll => exact List.nil_prefix

theorem eq_literalPrefix_of_match (own : Pattern) (path : GoString) (params : Params)
    (literals : (literalPrefix own).length = own.length)
    (matched : matchPattern own path = some params) : path = literalPrefix own := by
  induction own generalizing path params with
  | nil =>
      cases path with
      | nil => rfl
      | cons head path => cases matched
  | cons token rest ih =>
      cases token with
      | literal code =>
          cases path with
          | nil => cases matched
          | cons head path =>
              rw [literalPrefix, List.length_cons, List.length_cons] at literals
              rw [matchPattern] at matched
              by_cases same : code = head
              · rw [if_pos same] at matched
                rw [literalPrefix, same, ih path params (by omega) matched]
              · rw [if_neg same] at matched
                cases matched
      | param name tail => simp [literalPrefix] at literals
      | catchAll => simp [literalPrefix] at literals

/-- No path beginning with `text` can match the pattern. -/
def clashes (text : GoString) (own : Pattern) : Bool :=
  !text.isPrefixOf (literalPrefix own) &&
    (!(literalPrefix own).isPrefixOf text || (literalPrefix own).length == own.length)

theorem not_match_of_clashes (text : GoString) (own : Pattern) (path : GoString)
    (params : Params) (clash : clashes text own = true) (begins : text <+: path) :
    matchPattern own path ≠ some params := by
  intro matched
  rw [clashes, Bool.and_eq_true, Bool.or_eq_true, Bool.not_eq_true', Bool.not_eq_true',
    beq_iff_eq] at clash
  obtain ⟨notLonger, different⟩ := clash
  have longer : ¬ text <+: literalPrefix own := by
    rw [← List.isPrefixOf_iff_prefix, notLonger]
    simp
  rcases different with notShorter | literals
  · rcases List.prefix_or_prefix_of_prefix
        (literalPrefix_of_match own path params matched) begins with first | second
    · rw [← List.isPrefixOf_iff_prefix, notShorter] at first
      cases first
    · exact longer second
  · rw [eq_literalPrefix_of_match own path params literals matched] at begins
    exact longer begins

/-- The routes of a mounted router, when the mount point does not end in a
slash. -/
theorem mem_mount {Endpoint : Type} (base : GoString) (endpoint : Endpoint)
    (unclosed : base.getLast? ≠ some slash) (route : Route Endpoint) :
    route ∈ mount base endpoint ↔
      ∃ rest ∈ [[], [slash], slash :: star],
        route = ⟨none, pattern (base ++ rest), endpoint⟩ := by
  rw [mount, if_neg unclosed]
  simp

theorem isPlain_append (first second : GoString) :
    isPlain (first ++ second) = (isPlain first && isPlain second) := by
  simp [isPlain]

theorem pattern_star (text : GoString) (plain : isPlain text = true) :
    pattern (text ++ star) = text.map Token.literal ++ [.catchAll] := by
  rw [pattern_append text star plain]
  rfl

/-- What the catch-all of a mounted router matched, and the path that the
router sees. -/
theorem mount_match {Endpoint : Type} (base : GoString) (endpoint : Endpoint)
    (plain : isPlain base = true) (unclosed : base.getLast? ≠ some slash)
    (route : Route Endpoint) (member : route ∈ mount base endpoint)
    (path : GoString) (params : Params)
    (matched : matchPattern route.pattern path = some params) :
    ∃ rest, nextRoutePath params = slash :: rest ∧
      (path = base ++ slash :: rest ∨ path = base ∧ rest = []) := by
  have closed : isPlain (base ++ [slash]) = true := by
    rw [isPlain_append, plain]
    rfl
  obtain ⟨last, among, rfl⟩ := (mem_mount base endpoint unclosed route).mp member
  simp only [List.mem_cons, List.not_mem_nil, or_false] at among
  rcases among with rfl | rfl | rfl
  · rw [List.append_nil, pattern_of_plain base plain, matchPattern_plain] at matched
    obtain ⟨rfl, rfl⟩ := matched
    exact ⟨[], rfl, Or.inr ⟨rfl, rfl⟩⟩
  · rw [pattern_of_plain _ closed, matchPattern_plain] at matched
    obtain ⟨rfl, rfl⟩ := matched
    exact ⟨[], rfl, Or.inl rfl⟩
  · have shape : base ++ slash :: star = (base ++ [slash]) ++ star := by simp
    rw [shape, pattern_star _ closed, matchPattern_literals] at matched
    obtain ⟨rest, rfl, caught⟩ := matched
    cases caught
    exact ⟨rest, rfl, Or.inl (by simp)⟩

theorem matchPattern_mount (base rest : GoString) (plain : isPlain base = true) :
    matchPattern (pattern (base ++ slash :: star)) (base ++ slash :: rest) =
      some [(star, rest)] := by
  have closed : isPlain (base ++ [slash]) = true := by
    rw [isPlain_append, plain]
    rfl
  have shape : ∀ tail, base ++ slash :: tail = (base ++ [slash]) ++ tail := by simp
  rw [shape star, pattern_star _ closed, matchPattern_literals]
  exact ⟨rest, shape rest, rfl⟩

theorem nextRoutePath_ne_nil (params : Params) : nextRoutePath params ≠ [] := by
  unfold nextRoutePath
  split
  · split <;> simp
  · simp

theorem cutParam_slash (path value rest : GoString) :
    cutParam slash path = some (value, rest) ↔
      path ≠ [] ∧ path = value ++ rest ∧ slash ∉ value ∧
        (rest = [] ∨ rest.head? = some slash) := by
  unfold cutParam
  constructor
  · intro cut
    by_cases empty : path = []
    · simp [empty] at cut
    have noSlash : slash ∉ path.takeWhile (· != slash) := by
      intro inside
      have passed := List.mem_takeWhile_imp inside
      simp at passed
    simp only [empty, if_false, ne_eq, not_true_eq_false, and_false, noSlash,
      Option.some.injEq, Prod.mk.injEq] at cut
    obtain ⟨rfl, rfl⟩ := cut
    refine ⟨empty, List.takeWhile_append_dropWhile.symm, noSlash, ?_⟩
    cases shape : path.dropWhile (· != slash) with
    | nil => exact Or.inl rfl
    | cons head tail =>
        have stopped := List.head?_dropWhile_not (· != slash) path
        rw [shape] at stopped
        simp at stopped
        exact Or.inr (by rw [stopped]; rfl)
  · rintro ⟨nonempty, rfl, noSlash, ends⟩
    have all : ∀ code ∈ value, (code != slash) = true := by
      intro code member
      rw [bne_iff_ne]
      intro same
      exact noSlash (same ▸ member)
    have stops : rest.takeWhile (· != slash) = [] ∧
        rest.dropWhile (· != slash) = rest := by
      rcases ends with rfl | headed
      · exact ⟨rfl, rfl⟩
      · cases rest with
        | nil => cases headed
        | cons head tail =>
            simp only [List.head?_cons, Option.some.injEq] at headed
            simp [headed]
    rw [List.takeWhile_append_of_pos all, List.dropWhile_append_of_pos all, stops.1,
      stops.2, List.append_nil]
    simp [nonempty, noSlash]

end McoaGateway.Chi
