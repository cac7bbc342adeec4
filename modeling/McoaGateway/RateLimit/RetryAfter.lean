/-
The `Retry-After` values of the shared rate limiter (`ratelimit/http.go`).

A limiter that refuses a request, or that fails, tells the client how long to
wait.  The duration it tracks for its key is doubled by every such answer and
forgotten when a request is passed on.  Durations are nanoseconds in an int64,
so the doubling wraps around: `Fits` says how many refusals in a row come out
right, and `retryAfter_backsOff_iff` that no others do.
-/

import McoaGateway.RateLimit.Http

namespace McoaGateway.RateLimit

open GoString

/-! ### The tracked duration -/

/-- The value of an int64 operation whose exact result is `x`. -/
def int64 (x : Int) : Int :=
  (x + 2 ^ 63) % 2 ^ 64 - 2 ^ 63

/-- `int(d.Seconds())`, the quotient being exact. -/
def wholeSeconds (d : Int) : Int :=
  d.tdiv 1000000000

structure RetryAfter where
  min : Int
  max : Int
deriving DecidableEq, Repr

/-- What `getAndSetNextRetryAfterValue` does under its lock: the seconds it
returns, and the duration it tracks from now on. -/
def RetryAfter.next (req : RetryAfter) (tracked : Option Int) : Int × Int :=
  match tracked with
  | none => (wholeSeconds req.min, int64 (req.min * 2))
  | some current =>
      let nextValue := int64 (current * 2)
      let nextValue := if req.max ≠ 0 ∧ nextValue > req.max then req.max else nextValue
      (wholeSeconds nextValue, nextValue)

def getAndSetNextRetryAfterValue (req : RetryAfter) (tracked : Option Int) :
    Option Int × Option Int :=
  if req.min = 0 then (none, tracked)
  else (some (req.next tracked).1, some (req.next tracked).2)

def resetRetryAfterValue (req : RetryAfter) (tracked : Option Int) : Option Int :=
  if req.min = 0 then tracked else none

/-! ### The handler -/

def formatInt (n : Int) : GoString :=
  if n < 0 then byte '-' :: itoa n.natAbs else itoa n.natAbs

def headerKeyRemaining : GoString := ascii "X-RateLimit-Remaining"

def headerKeyLimit : GoString := ascii "X-RateLimit-Limit"

def headerKeyReset : GoString := ascii "X-RateLimit-Reset"

def headerRetryAfter : GoString := ascii "Retry-After"

/-- What `GetRateLimits` of a shared client returns. -/
structure RateLimits where
  remaining : Int
  resetTime : Int
  verdict : Verdict
deriving DecidableEq, Repr

/-- The seconds a verdict tells the client to wait, and the tracked duration
when the handler is done. -/
def Limiter.track (limiter : Limiter) (req : RetryAfter) (tracked : Option Int)
    (verdict : Verdict) : Option Int × Option Int :=
  match verdict with
  | .admitted => (none, resetRetryAfterValue req tracked)
  | .overLimit => getAndSetNextRetryAfterValue req tracked
  | .failed _ =>
      let (retryAfter, tracked) := getAndSetNextRetryAfterValue req tracked
      (retryAfter, if limiter.failOpen then resetRetryAfterValue req tracked else tracked)

/-- What the limiter answers: the fields it sets in the response, and the error
it writes or the request it passes on. -/
structure Reply where
  header : Header
  result : Except HttpError Request

def Limiter.sharedHandler (limiter : Limiter) (req : RetryAfter) (tracked : Option Int)
    (limits : RateLimits) (request : Request) : Reply × Option Int :=
  let header := ((Header.set [] headerKeyLimit (formatInt limiter.limit)).set
    headerKeyRemaining (formatInt limits.remaining)).set
      headerKeyReset (formatInt limits.resetTime)
  let (retryAfter, tracked) := limiter.track req tracked limits.verdict
  let header :=
    match retryAfter with
    | some seconds => header.set headerRetryAfter (formatInt seconds)
    | none => header
  (⟨header, limiter.result limits.verdict request⟩, tracked)

def Limiter.passesOn (limiter : Limiter) : Verdict → Bool
  | .admitted => true
  | .overLimit => false
  | .failed _ => limiter.failOpen

/-- The response carries the seconds of `track`, and the tracked duration is
forgotten with the requests that are passed on. -/
theorem sharedHandler_track (limiter : Limiter) (req : RetryAfter) (tracked : Option Int)
    (limits : RateLimits) (request : Request) :
    ((limiter.sharedHandler req tracked limits request).1.header.get headerRetryAfter =
        ((limiter.track req tracked limits.verdict).1.map formatInt).getD []) ∧
      (limiter.sharedHandler req tracked limits request).1.result.isOk =
        limiter.passesOn limits.verdict ∧
      (limiter.sharedHandler req tracked limits request).2 =
        (limiter.track req tracked limits.verdict).2 := by
  refine ⟨?_, ?_, rfl⟩
  · unfold Limiter.sharedHandler
    dsimp only
    cases (limiter.track req tracked limits.verdict).1 with
    | some seconds => exact Header.get_set_self _ _ _
    | none =>
        dsimp only
        rw [Header.get_set_of_ne _ _ _ _ (by decide), Header.get_set_of_ne _ _ _ _ (by decide),
          Header.get_set_of_ne _ _ _ _ (by decide)]
        rfl
  · unfold Limiter.sharedHandler Limiter.result Limiter.passesOn
    dsimp only
    cases limits.verdict with
    | admitted => rfl
    | overLimit => rfl
    | failed message =>
        cases opens : limiter.failOpen with
        | true => rfl
        | false => rfl

/-! ### Between two resets -/

inductive Signal where
  | retryAfter (seconds : Int)
  | passedOn
deriving DecidableEq, Repr

def Limiter.signals (limiter : Limiter) (req : RetryAfter) :
    Option Int → List Verdict → List Signal
  | _, [] => []
  | tracked, verdict :: rest =>
      let (retryAfter, tracked) := limiter.track req tracked verdict
      (retryAfter.map Signal.retryAfter).toList ++
        ((if limiter.passesOn verdict then [Signal.passedOn] else []) ++
          limiter.signals req tracked rest)

/-- The seconds between the requests that are passed on. -/
def periods : List Signal → List (List Int)
  | [] => [[]]
  | .passedOn :: rest => [] :: periods rest
  | .retryAfter seconds :: rest => (periods rest).modifyHead (seconds :: ·)

/-- How many requests in a row were refused or failed, between those that are
passed on. -/
def Limiter.refusals (limiter : Limiter) : List Verdict → List Nat
  | [] => [0]
  | .admitted :: rest => 0 :: limiter.refusals rest
  | .overLimit :: rest => (limiter.refusals rest).modifyHead (· + 1)
  | .failed _ :: rest =>
      if limiter.failOpen then 1 :: limiter.refusals rest
      else (limiter.refusals rest).modifyHead (· + 1)

def RetryAfter.emissions (req : RetryAfter) : Option Int → Nat → List Int
  | _, 0 => []
  | tracked, count + 1 =>
      (req.next tracked).1 :: req.emissions (some (req.next tracked).2) count

theorem periods_signals (limiter : Limiter) (req : RetryAfter) (nonzero : req.min ≠ 0)
    (tracked : Option Int) (verdicts : List Verdict) :
    ∃ first rest, limiter.refusals verdicts = first :: rest ∧
      periods (limiter.signals req tracked verdicts) =
        req.emissions tracked first :: rest.map (req.emissions none) := by
  have emits : ∀ tracked, getAndSetNextRetryAfterValue req tracked =
      (some (req.next tracked).1, some (req.next tracked).2) :=
    fun tracked => if_neg nonzero
  have resets : ∀ tracked, resetRetryAfterValue req tracked = none :=
    fun tracked => if_neg nonzero
  induction verdicts generalizing tracked with
  | nil => exact ⟨0, [], rfl, rfl⟩
  | cons verdict verdicts ih =>
      have refused : ∃ first rest,
          (limiter.refusals verdicts).modifyHead (· + 1) = first :: rest ∧
            periods (.retryAfter (req.next tracked).1 ::
                limiter.signals req (some (req.next tracked).2) verdicts) =
              req.emissions tracked first :: rest.map (req.emissions none) := by
        obtain ⟨first, rest, counts, values⟩ := ih (some (req.next tracked).2)
        refine ⟨first + 1, rest, ?_, ?_⟩
        · rw [counts, List.modifyHead_cons]
        · rw [periods, values, List.modifyHead_cons, RetryAfter.emissions]
      cases verdict with
      | admitted =>
          obtain ⟨first, rest, counts, values⟩ := ih none
          refine ⟨0, first :: rest, ?_, ?_⟩
          · rw [Limiter.refusals, counts]
          · have signalled : limiter.signals req tracked (.admitted :: verdicts) =
                .passedOn :: limiter.signals req none verdicts := by
              rw [Limiter.signals, Limiter.track, resets]
              rfl
            rw [signalled, periods, values]
            rfl
      | overLimit =>
          have signalled : limiter.signals req tracked (.overLimit :: verdicts) =
              .retryAfter (req.next tracked).1 ::
                limiter.signals req (some (req.next tracked).2) verdicts := by
            rw [Limiter.signals, Limiter.track, emits]
            rfl
          rw [signalled]
          exact refused
      | failed message =>
          rw [Limiter.refusals]
          cases opens : limiter.failOpen with
          | true =>
              obtain ⟨first, rest, counts, values⟩ := ih none
              refine ⟨1, first :: rest, ?_, ?_⟩
              · rw [if_pos rfl, counts]
              · have signalled : limiter.signals req tracked (.failed message :: verdicts) =
                    .retryAfter (req.next tracked).1 :: .passedOn ::
                      limiter.signals req none verdicts := by
                  rw [Limiter.signals, Limiter.track, emits]
                  dsimp only
                  rw [opens, if_pos rfl, resets, Limiter.passesOn, opens]
                  rfl
                rw [signalled, periods, periods, values]
                rfl
          | false =>
              have signalled : limiter.signals req tracked (.failed message :: verdicts) =
                  .retryAfter (req.next tracked).1 ::
                    limiter.signals req (some (req.next tracked).2) verdicts := by
                rw [Limiter.signals, Limiter.track, emits]
                dsimp only
                rw [opens, if_neg Bool.false_ne_true, Limiter.passesOn, opens]
                rfl
              rw [signalled, if_neg Bool.false_ne_true]
              exact refused

theorem periods_signals_none (limiter : Limiter) (req : RetryAfter) (nonzero : req.min ≠ 0)
    (verdicts : List Verdict) :
    periods (limiter.signals req none verdicts) =
      (limiter.refusals verdicts).map (req.emissions none) := by
  obtain ⟨first, rest, counts, values⟩ := periods_signals limiter req nonzero none verdicts
  rw [counts, values, List.map_cons]

/-! ### The range of the tracked duration -/

/-- A minimum of at least a second, and no maximum or one that is not smaller. -/
structure Backoff extends RetryAfter where
  second_le_min : 1000000000 ≤ min
  min_lt : min < 2 ^ 63
  max_lt : max < 2 ^ 63
  min_le_max : max = 0 ∨ min ≤ max

/-- The seconds of one period do not decrease, start with the minimum and stay
between the bounds. -/
structure BacksOff (req : RetryAfter) (seconds : List Int) : Prop where
  increases : seconds.Pairwise (· ≤ ·)
  nonnegative : ∀ s ∈ seconds, 0 ≤ s
  startsAtMin : ∀ s ∈ seconds.head?, s = wholeSeconds req.min
  aboveMin : ∀ s ∈ seconds, wholeSeconds req.min ≤ s
  belowMax : req.max ≠ 0 → ∀ s ∈ seconds, s * 1000000000 ≤ req.max

/-- The doubling stays in range: for `count` refusals because even the exact
multiple of the minimum does, or for any number of them because the maximum is
reached before.  A minimum above `2 ^ 62` overflows at once, and two refusals
come out right if the second value happens to land behind the first. -/
def Backoff.Fits (req : Backoff) (count : Nat) : Prop :=
  count ≤ 1 ∨ 2 ^ count * req.min < 2 ^ 63 ∨
    (req.min < 2 ^ 61 ∧ req.max ≠ 0 ∧ req.max < 2 ^ 62) ∨
    (count = 2 ∧ 2 ^ 64 + wholeSeconds req.min * 1000000000 ≤ 4 * req.min ∧
      4 * req.min < 2 ^ 64 + 2 ^ 63)

theorem wholeSeconds_mono {d e : Int} (ordered : d ≤ e) : wholeSeconds d ≤ wholeSeconds e :=
  Int.tdiv_le_tdiv (by decide) ordered

theorem wholeSeconds_of_nonneg {d : Int} (nonnegative : 0 ≤ d) :
    wholeSeconds d = d / 1000000000 :=
  Int.tdiv_eq_ediv_of_nonneg nonnegative

theorem wholeSeconds_nonpos {d : Int} (nonpositive : d ≤ 0) : wholeSeconds d ≤ 0 := by
  have bounded := wholeSeconds_mono nonpositive
  rwa [show wholeSeconds 0 = 0 from rfl] at bounded

/-- The smaller one of a duration and the maximum, if there is one. -/
def RetryAfter.cap (req : RetryAfter) (d : Int) : Int :=
  if req.max ≠ 0 ∧ d > req.max then req.max else d

theorem RetryAfter.next_some (req : RetryAfter) (current : Int) :
    req.next (some current) =
      (wholeSeconds (req.cap (int64 (current * 2))), req.cap (int64 (current * 2))) :=
  rfl

theorem RetryAfter.cap_cases (req : RetryAfter) (d : Int) :
    (req.cap d = d ∧ (req.max ≠ 0 → d ≤ req.max)) ∨
      (req.cap d = req.max ∧ req.max ≠ 0 ∧ req.max < d) := by
  unfold RetryAfter.cap
  split
  · rename_i above
    exact Or.inr ⟨rfl, above.1, above.2⟩
  · rename_i within
    refine Or.inl ⟨rfl, fun capped => ?_⟩
    by_contra above
    exact within ⟨capped, not_le.mp above⟩

theorem int64_of_lt {x : Int} (atLeast : 0 ≤ x) (below : x < 2 ^ 63) : int64 x = x := by
  unfold int64
  omega

theorem int64_wrapped {x : Int} (atLeast : 2 ^ 63 ≤ x) (below : x < 2 ^ 64) :
    int64 x = x - 2 ^ 64 := by
  unfold int64
  omega

section

variable (req : Backoff)

/-- `Fits` for the refusals that follow, when a duration is tracked. -/
def Backoff.FitsFrom (current : Int) (count : Nat) : Prop :=
  2 ^ count * current < 2 ^ 63 ∨ (current < 2 ^ 62 ∧ req.max ≠ 0 ∧ req.max < 2 ^ 62)

theorem Backoff.max_pos (capped : req.max ≠ 0) : req.min ≤ req.max := by
  rcases req.min_le_max with isZero | atLeast
  · exact absurd isZero capped
  · exact atLeast

theorem Backoff.FitsFrom.double_lt {req : Backoff} {current : Int} {count : Nat}
    (fits : req.FitsFrom current (count + 1)) (positive : 0 < current) :
    current * 2 < 2 ^ 63 := by
  rcases fits with exact | ⟨small, _⟩
  · rw [pow_succ, mul_assoc] at exact
    have one : (1 : Int) ≤ 2 ^ count := one_le_pow₀ (by decide)
    have scaled := mul_le_mul_of_nonneg_right one (by omega : 0 ≤ 2 * current)
    omega
  · omega

theorem Backoff.FitsFrom.cap {req : Backoff} {current : Int} {count : Nat}
    (fits : req.FitsFrom current (count + 1)) :
    req.FitsFrom (req.cap (current * 2)) count := by
  have notAbove : req.cap (current * 2) ≤ current * 2 := by
    rcases req.cap_cases (current * 2) with ⟨same, _⟩ | ⟨same, _, above⟩ <;> omega
  rcases fits with exact | ⟨_, capped, smallMax⟩
  · left
    have scaled : (2 : Int) ^ count * req.cap (current * 2) ≤ 2 ^ count * (current * 2) :=
      mul_le_mul_of_nonneg_left notAbove (by positivity)
    rw [pow_succ, mul_assoc, mul_comm 2 current] at exact
    exact lt_of_le_of_lt scaled exact
  · right
    refine ⟨?_, capped, smallMax⟩
    rcases req.cap_cases (current * 2) with ⟨same, within⟩ | ⟨same, _, _⟩
    · have bounded := within capped
      omega
    · omega

/-- From a tracked duration the seconds do not decrease, as long as the doubling
stays in range; `low` is what was told last. -/
theorem emissions_backsOff (low current : Int) (count : Nat) (ordered : low ≤ current)
    (positive : 0 < current) (below : req.max ≠ 0 → low ≤ req.max)
    (fits : req.FitsFrom current count) :
    (req.emissions (some current) count).Pairwise (· ≤ ·) ∧
      ∀ s ∈ req.emissions (some current) count,
        wholeSeconds low ≤ s ∧ (req.max ≠ 0 → s * 1000000000 ≤ req.max) := by
  induction count generalizing low current with
  | zero => exact ⟨List.Pairwise.nil, fun s member => by cases member⟩
  | succ count ih =>
      have inRange := fits.double_lt positive
      have minPositive := req.second_le_min
      have exact : int64 (current * 2) = current * 2 := int64_of_lt (by omega) inRange
      have stillFits := fits.cap
      rw [RetryAfter.emissions, RetryAfter.next_some, exact]
      generalize isValue : req.cap (current * 2) = value at stillFits ⊢
      have notBelow : low ≤ value ∧ 0 < value ∧ (req.max ≠ 0 → value ≤ req.max) := by
        rcases req.cap_cases (current * 2) with ⟨same, within⟩ | ⟨same, capped, _⟩
        · rw [isValue] at same
          rw [same]
          exact ⟨by omega, by omega, within⟩
        · have atLeast := req.max_pos capped
          have lowBelow := below capped
          rw [isValue] at same
          rw [same]
          exact ⟨lowBelow, by omega, fun _ => le_refl _⟩
      obtain ⟨aboveLow, valuePositive, belowMax⟩ := notBelow
      obtain ⟨increases, bounds⟩ := ih value value (le_refl value) valuePositive belowMax stillFits
      have first : wholeSeconds value * 1000000000 ≤ value := by
        rw [wholeSeconds_of_nonneg valuePositive.le]
        omega
      refine ⟨List.pairwise_cons.mpr ⟨fun s member => (bounds s member).1, increases⟩, ?_⟩
      intro s member
      rcases List.mem_cons.mp member with isFirst | inRest
      · rw [isFirst]
        exact ⟨wholeSeconds_mono aboveLow, fun capped => first.trans (belowMax capped)⟩
      · exact ⟨(wholeSeconds_mono aboveLow).trans (bounds s inRest).1, (bounds s inRest).2⟩

/-- A doubling that leaves the range is told to the client as a value below one
second. -/
theorem fitsFrom_of_seconds (current : Int) (count : Nat) (positive : 0 < current)
    (below : current < 2 ^ 63)
    (seconds : ∀ s ∈ req.emissions (some current) count, 1 ≤ s) :
    req.FitsFrom current count := by
  induction count generalizing current with
  | zero =>
      left
      rwa [pow_zero, one_mul]
  | succ count ih =>
      rw [RetryAfter.emissions, RetryAfter.next_some] at seconds
      obtain ⟨firstSeconds, restSeconds⟩ := List.forall_mem_cons.mp seconds
      have minPositive := req.second_le_min
      have inRange : current * 2 < 2 ^ 63 := by
        by_contra outside
        rw [int64_wrapped (by omega) (by omega)] at firstSeconds
        have nonpositive : req.cap (current * 2 - 2 ^ 64) ≤ 0 := by
          rcases req.cap_cases (current * 2 - 2 ^ 64) with ⟨same, _⟩ | ⟨_, capped, above⟩
          · omega
          · have atLeast := req.max_pos capped
            omega
        have told := wholeSeconds_nonpos nonpositive
        omega
      rw [int64_of_lt (by omega) inRange] at restSeconds
      rcases req.cap_cases (current * 2) with ⟨same, within⟩ | ⟨same, capped, above⟩
      · rw [same] at restSeconds
        rcases ih (current * 2) (by omega) inRange restSeconds with exact | ⟨small, more⟩
        · left
          rwa [pow_succ, mul_assoc, mul_comm 2 current]
        · exact Or.inr ⟨by omega, more⟩
      · have atLeast := req.max_pos capped
        rw [same] at restSeconds
        -- The maximum is told from now on, so it has to stand a doubling, unless
        -- this is the last refusal.
        cases count with
        | zero =>
            left
            rwa [zero_add, pow_one, mul_comm]
        | succ count =>
            have maxFits := ih req.max (by omega) req.max_lt restSeconds
            have small := maxFits.double_lt (by omega)
            exact Or.inr ⟨by omega, capped, by omega⟩

theorem emissions_none_succ (count : Nat) :
    req.emissions none (count + 1) =
      wholeSeconds req.min :: req.emissions (some (int64 (req.min * 2))) count :=
  rfl

theorem emissions_overflowing_min (large : 2 ^ 62 ≤ req.min)
    (lands : 4 * req.min < 2 ^ 64 + 2 ^ 63) (count : Nat) :
    req.emissions none (count + 2) =
      wholeSeconds req.min :: wholeSeconds (req.cap (4 * req.min - 2 ^ 64)) ::
        req.emissions (some (req.cap (4 * req.min - 2 ^ 64))) count := by
  have minLt := req.min_lt
  have first : int64 (req.min * 2) = req.min * 2 - 2 ^ 64 :=
    int64_wrapped (by omega) (by omega)
  have second : int64 ((req.min * 2 - 2 ^ 64) * 2) = 4 * req.min - 2 ^ 64 := by
    unfold int64
    omega
  rw [emissions_none_succ, first, RetryAfter.emissions, RetryAfter.next_some, second]

theorem Backoff.Fits.backsOff {req : Backoff} {count : Nat} (fits : req.Fits count) :
    BacksOff req.toRetryAfter (req.emissions none count) := by
  have minPositive := req.second_le_min
  have minLt := req.min_lt
  have minSeconds : 0 ≤ wholeSeconds req.min := by
    rw [wholeSeconds_of_nonneg (by omega)]
    omega
  have minBelow : wholeSeconds req.min * 1000000000 ≤ req.min := by
    rw [wholeSeconds_of_nonneg (by omega)]
    omega
  -- It is enough to look at what follows the first value.
  have assemble : ∀ rest : List Int, rest.Pairwise (· ≤ ·) →
      (∀ s ∈ rest, wholeSeconds req.min ≤ s ∧ (req.max ≠ 0 → s * 1000000000 ≤ req.max)) →
      BacksOff req.toRetryAfter (wholeSeconds req.min :: rest) := by
    intro rest increases bounds
    have aboveMin : ∀ s ∈ wholeSeconds req.min :: rest, wholeSeconds req.min ≤ s :=
      List.forall_mem_cons.mpr ⟨le_refl _, fun s member => (bounds s member).1⟩
    refine ⟨List.pairwise_cons.mpr ⟨fun s member => (bounds s member).1, increases⟩,
      fun s member => minSeconds.trans (aboveMin s member), ?_, aboveMin, ?_⟩
    · intro s isHead
      rw [List.head?_cons, Option.mem_some_iff] at isHead
      exact isHead.symm
    · intro capped
      exact List.forall_mem_cons.mpr ⟨minBelow.trans (req.max_pos capped),
        fun s member => (bounds s member).2 capped⟩
  cases count with
  | zero =>
      refine ⟨List.Pairwise.nil, ?_, ?_, ?_, ?_⟩
      · intro s member
        cases member
      · intro s member
        cases member
      · intro s member
        cases member
      · intro capped s member
        cases member
  | succ count =>
      cases count with
      | zero => exact assemble [] List.Pairwise.nil fun s member => by cases member
      | succ count =>
          have following : req.min < 2 ^ 62 → req.FitsFrom (req.min * 2) (count + 1) →
              BacksOff req.toRetryAfter (req.emissions none (count + 1 + 1)) := by
            intro small fitsFrom
            rw [emissions_none_succ, int64_of_lt (by omega) (by omega)]
            obtain ⟨increases, bounds⟩ := emissions_backsOff req req.min (req.min * 2) (count + 1)
              (by omega) (by omega) req.max_pos fitsFrom
            exact assemble _ increases bounds
          rcases fits with few | exact | ⟨small, capped, smallMax⟩ | ⟨isTwo, lands, below⟩
          · omega
          · have rescaled : (2 : Int) ^ (count + 1) * (req.min * 2) < 2 ^ 63 := by
              rw [mul_comm req.min 2, ← mul_assoc, ← pow_succ]
              exact exact
            have fitsFrom : req.FitsFrom (req.min * 2) (count + 1) := Or.inl rescaled
            have doubled := fitsFrom.double_lt (by omega)
            exact following (by omega) fitsFrom
          · exact following (by omega) (Or.inr ⟨by omega, capped, smallMax⟩)
          · have isZero : count = 0 := by omega
            rw [isZero, emissions_overflowing_min req (by omega) below]
            refine assemble _ (List.pairwise_singleton _ _) ?_
            intro s member
            rw [List.mem_singleton.mp member]
            rw [wholeSeconds_of_nonneg (by omega : 0 ≤ req.min)] at lands ⊢
            rcases req.cap_cases (4 * req.min - 2 ^ 64) with ⟨same, within⟩ | ⟨same, capped, _⟩
            · rw [same, wholeSeconds_of_nonneg (by omega)]
              exact ⟨by omega, fun capped => by have bounded := within capped; omega⟩
            · have atLeast := req.max_pos capped
              rw [same, wholeSeconds_of_nonneg (by omega)]
              exact ⟨by omega, fun _ => by omega⟩

theorem fits_of_backsOff (count : Nat)
    (backsOff : BacksOff req.toRetryAfter (req.emissions none count)) : req.Fits count := by
  have minPositive := req.second_le_min
  have minLt := req.min_lt
  have oneSecond : 1 ≤ wholeSeconds req.min := by
    rw [wholeSeconds_of_nonneg (by omega)]
    omega
  have aboveMin := backsOff.aboveMin
  rcases Nat.lt_or_ge count 2 with few | many
  · exact Or.inl (by omega)
  · obtain ⟨more, rfl⟩ := Nat.exists_eq_add_of_le many
    rw [Nat.add_comm 2 more] at aboveMin ⊢
    by_cases small : req.min < 2 ^ 62
    · rw [emissions_none_succ, int64_of_lt (by omega) (by omega)] at aboveMin
      have seconds : ∀ s ∈ req.emissions (some (req.min * 2)) (more + 1), 1 ≤ s :=
        fun s member => oneSecond.trans (aboveMin s (List.mem_cons_of_mem _ member))
      rcases fitsFrom_of_seconds req _ _ (by omega) (by omega) seconds with
        exact | ⟨smallMin, capped, smallMax⟩
      · rw [mul_comm req.min 2, ← mul_assoc, ← pow_succ] at exact
        exact Or.inr (Or.inl exact)
      · exact Or.inr (Or.inr (Or.inl ⟨by omega, capped, smallMax⟩))
    · by_cases lands : 4 * req.min < 2 ^ 64 + 2 ^ 63
      · rw [emissions_overflowing_min req (by omega) lands] at aboveMin
        have second := aboveMin _ (List.mem_cons_of_mem _ List.mem_cons_self)
        rw [wholeSeconds_of_nonneg (by omega : 0 ≤ req.min)] at second
        have behind : 2 ^ 64 + wholeSeconds req.min * 1000000000 ≤ 4 * req.min ∧
            2 ^ 62 ≤ req.cap (4 * req.min - 2 ^ 64) ∧
            req.cap (4 * req.min - 2 ^ 64) < 2 ^ 63 := by
          rw [wholeSeconds_of_nonneg (by omega : 0 ≤ req.min)]
          rcases req.cap_cases (4 * req.min - 2 ^ 64) with ⟨same, _⟩ | ⟨same, capped, above⟩
          · rw [same, wholeSeconds_of_nonneg (by omega)] at second
            omega
          · have atLeast := req.max_pos capped
            omega
        obtain ⟨lowEnough, large, inRange⟩ := behind
        cases more with
        | zero => exact Or.inr (Or.inr (Or.inr ⟨rfl, lowEnough, lands⟩))
        | succ more =>
            have seconds : ∀ s ∈ req.emissions
                (some (req.cap (4 * req.min - 2 ^ 64))) (more + 1), 1 ≤ s :=
              fun s member => oneSecond.trans
                (aboveMin s (List.mem_cons_of_mem _ (List.mem_cons_of_mem _ member)))
            have doubled := (fitsFrom_of_seconds req _ _ (by omega) inRange seconds).double_lt
              (by omega)
            omega
      · have first : int64 (req.min * 2) = req.min * 2 - 2 ^ 64 :=
          int64_wrapped (by omega) (by omega)
        have second : int64 ((req.min * 2 - 2 ^ 64) * 2) = 4 * req.min - 2 ^ 65 := by
          unfold int64
          omega
        rw [emissions_none_succ, first, RetryAfter.emissions, RetryAfter.next_some,
          second] at aboveMin
        have told := aboveMin _ (List.mem_cons_of_mem _ List.mem_cons_self)
        have nonpositive : req.cap (4 * req.min - 2 ^ 65) ≤ 0 := by
          rcases req.cap_cases (4 * req.min - 2 ^ 65) with ⟨same, _⟩ | ⟨_, capped, above⟩
          · omega
          · have atLeast := req.max_pos capped
            omega
        have negative := wholeSeconds_nonpos nonpositive
        omega

/-- Over a sequence of verdicts, the values told between two resets back off
exactly if the doubling stays in range for each row of refusals. -/
theorem retryAfter_backsOff_iff (limiter : Limiter) (verdicts : List Verdict) :
    (∀ seconds ∈ periods (limiter.signals req.toRetryAfter none verdicts),
        BacksOff req.toRetryAfter seconds) ↔
      ∀ count ∈ limiter.refusals verdicts, req.Fits count := by
  have minPositive := req.second_le_min
  rw [periods_signals_none limiter req.toRetryAfter (by omega), List.forall_mem_map]
  constructor
  · intro backsOff count member
    exact fits_of_backsOff req count (backsOff count member)
  · intro fits count member
    exact (fits count member).backsOff

end

/-- A first wait of one second, without a maximum. -/
def unbounded : Backoff where
  min := 1000000000
  max := 0
  second_le_min := le_refl _
  min_lt := by decide
  max_lt := by decide
  min_le_max := Or.inl rfl

/-- The 34th refusal in a row asks for a negative wait, and from the 55th on
clients are told not to wait at all. -/
theorem retryAfter_wraps :
    ∃ seconds, periods ((onceASecond.limiter .shared 0).signals unbounded.toRetryAfter none
          (List.replicate 55 .overLimit)) = [seconds] ∧
      seconds.take 4 = [1, 4, 8, 16] ∧
      (seconds.drop 32).take 2 = [8589934592, -1266874889] ∧ seconds.drop 54 = [0] ∧
      ¬ BacksOff unbounded.toRetryAfter seconds := by
  have told := periods_signals_none (onceASecond.limiter .shared 0) unbounded.toRetryAfter
    (by decide) (List.replicate 55 .overLimit)
  have counted : (onceASecond.limiter .shared 0).refusals (List.replicate 55 .overLimit) =
      [55] := by
    decide +kernel
  rw [counted, List.map_singleton] at told
  refine ⟨_, told, by decide +kernel, by decide +kernel, by decide +kernel, ?_⟩
  intro backsOff
  exact absurd (backsOff.nonnegative (-1266874889) (by decide +kernel)) (by decide)

end McoaGateway.RateLimit
