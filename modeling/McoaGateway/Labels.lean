/-
Label matchers of the Prometheus data model.

A matcher constrains the value of one label.  The two regular expression kinds
are anchored at both ends; what a pattern means is left to a `RegexpEngine`,
of which only the reading of quoted literals joined by `|` is fixed.  The
engine `RegexpEngine.literals` shows that this is a consistent demand, and
runs on the patterns which the gateway builds itself.
-/

import McoaGateway.GoString

namespace McoaGateway

open GoString

/-! ### Regular expressions and `regexp.QuoteMeta` -/

def isRegexpMeta (b : UInt8) : Bool :=
  (ascii "\\.+*?()|[]\x7b\x7d^$").contains b

def quoteMeta (text : GoString) : GoString :=
  text.flatMap fun b => if isRegexpMeta b then [byte '\\', b] else [b]

/-- An implementation of regular expressions: a pattern which compiles has a
set of values that it matches from end to end.  Quoted ASCII literals separated
by `|` compile, and match exactly the literals. -/
structure RegexpEngine where
  compile : GoString → Option (GoString → Bool)
  compile_literals : ∀ literals : List GoString, literals ≠ [] →
    (∀ literal ∈ literals, ∀ b ∈ literal, b < 128) →
    ∃ accepts, compile (join (byte '|') (literals.map quoteMeta)) = some accepts ∧
      ∀ value, accepts value = true ↔ value ∈ literals

/-- Read a pattern made of escaped or plain bytes and the separator `|`. -/
def readLiterals : GoString → Option (List GoString)
  | [] => some [[]]
  | b :: rest =>
      if b = byte '|' then
        (readLiterals rest).map fun literals => [] :: literals
      else if b = byte '\\' then
        match rest with
        | [] => none
        | escaped :: rest =>
            if isRegexpMeta escaped then
              (readLiterals rest).map (List.modifyHead (escaped :: ·))
            else
              none
      else if isRegexpMeta b then
        none
      else
        (readLiterals rest).map (List.modifyHead (b :: ·))

private theorem readLiterals_bar (rest : GoString) :
    readLiterals (byte '|' :: rest) =
      (readLiterals rest).map fun literals => [] :: literals := by
  rw [readLiterals.eq_def]
  simp

private theorem readLiterals_escaped (b : UInt8) (rest : GoString)
    (special : isRegexpMeta b = true) :
    readLiterals (byte '\\' :: b :: rest) =
      (readLiterals rest).map (List.modifyHead (b :: ·)) := by
  have notBar : byte '\\' ≠ byte '|' := by decide
  rw [readLiterals.eq_def]
  simp [notBar, special]

private theorem readLiterals_plain (b : UInt8) (rest : GoString)
    (plain : isRegexpMeta b = false) :
    readLiterals (b :: rest) = (readLiterals rest).map (List.modifyHead (b :: ·)) := by
  have notBar : b ≠ byte '|' := by
    rintro rfl
    exact absurd plain (by decide)
  have notEscape : b ≠ byte '\\' := by
    rintro rfl
    exact absurd plain (by decide)
  rw [readLiterals.eq_def]
  simp [notBar, notEscape, plain]

private theorem readLiterals_quoteMeta_append (literal rest : GoString) :
    readLiterals (quoteMeta literal ++ rest) =
      (readLiterals rest).map (List.modifyHead (literal ++ ·)) := by
  induction literal with
  | nil =>
      have unchanged : List.modifyHead (([] : GoString) ++ ·) = id := by
        funext literals
        cases literals <;> rfl
      rw [unchanged]
      simp [quoteMeta]
  | cons b literal ih =>
      have unfolded : quoteMeta (b :: literal) ++ rest =
          (if isRegexpMeta b then [byte '\\', b] else [b]) ++
            (quoteMeta literal ++ rest) := by
        simp [quoteMeta]
      have composed : List.modifyHead (b :: ·) ∘ List.modifyHead (literal ++ ·) =
          List.modifyHead ((b :: literal) ++ ·) := by
        funext literals
        cases literals <;> rfl
      rw [unfolded, ← composed, ← Option.map_map, ← ih]
      cases special : isRegexpMeta b with
      | true => exact readLiterals_escaped b _ special
      | false => exact readLiterals_plain b _ special

private theorem readLiterals_join (literals : List GoString)
    (nonempty : literals ≠ []) :
    readLiterals (join (byte '|') (literals.map quoteMeta)) = some literals := by
  induction literals with
  | nil => exact absurd rfl nonempty
  | cons literal rest ih =>
      cases rest with
      | nil =>
          have single := readLiterals_quoteMeta_append literal []
          simpa [join, readLiterals] using single
      | cons next rest =>
          have tail := ih (List.cons_ne_nil next rest)
          have shape : join (byte '|') ((literal :: next :: rest).map quoteMeta) =
              quoteMeta literal ++
                (byte '|' :: join (byte '|') ((next :: rest).map quoteMeta)) := by
            simp [join, List.intercalate_cons_cons]
          rw [shape, readLiterals_quoteMeta_append, readLiterals_bar, tail]
          simp

def RegexpEngine.literals : RegexpEngine where
  compile pattern :=
    (readLiterals pattern).map fun literals value => literals.contains value
  compile_literals := by
    intro literals nonempty _
    refine ⟨fun value => literals.contains value, ?_, ?_⟩
    · rw [readLiterals_join literals nonempty]
      rfl
    · intro value
      simp

/-! ### `labels.Matcher` -/

inductive MatchType where
  | equal
  | notEqual
  | regexp
  | notRegexp
deriving DecidableEq, Repr

structure Matcher where
  type : MatchType
  name : GoString
  -- The compiled expression of the source is a function of this pattern.
  value : GoString
deriving DecidableEq, Repr

/-- A label set, as a matcher sees it: an absent label reads as empty. -/
abbrev LabelSet := GoString → GoString

section Matching

variable (engine : RegexpEngine)

def newMatcher (type : MatchType) (name value : GoString) : Option Matcher :=
  match type with
  | .equal | .notEqual => some ⟨type, name, value⟩
  | .regexp | .notRegexp =>
      if (engine.compile value).isSome then some ⟨type, name, value⟩ else none

def regexpMatches (pattern value : GoString) : Bool :=
  match engine.compile pattern with
  | some accepts => accepts value
  | none => false

def Matcher.matches (m : Matcher) (value : GoString) : Bool :=
  match m.type with
  | .equal => value == m.value
  | .notEqual => value != m.value
  | .regexp => regexpMatches engine m.value value
  | .notRegexp => !regexpMatches engine m.value value

def Satisfies (matchers : List Matcher) (labels : LabelSet) : Prop :=
  ∀ m ∈ matchers, m.matches engine (labels m.name) = true

/-- Every label set selected by the matchers has a value for the label of `m`
that `m` accepts. -/
def Implies (matchers : List Matcher) (m : Matcher) : Prop :=
  ∀ labels, Satisfies engine matchers labels →
    m.matches engine (labels m.name) = true

theorem newMatcher_eq_some (type : MatchType) (name value : GoString) (m : Matcher)
    (created : newMatcher engine type name value = some m) :
    m = ⟨type, name, value⟩ := by
  cases type <;> simp_all [newMatcher]

theorem regexp_literals_matches (name : GoString) (literals : List GoString)
    (nonempty : literals ≠ [])
    (isAscii : ∀ literal ∈ literals, ∀ b ∈ literal, b < 128) (value : GoString) :
    (Matcher.mk .regexp name
        (join (byte '|') (literals.map quoteMeta))).matches engine value = true ↔
      value ∈ literals := by
  obtain ⟨accepts, compiled, exact⟩ :=
    engine.compile_literals literals nonempty isAscii
  simp only [Matcher.matches, regexpMatches, compiled]
  exact exact value

end Matching

end McoaGateway
