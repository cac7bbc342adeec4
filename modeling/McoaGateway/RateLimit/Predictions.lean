/-
What the answers of the rate limit script predict
(`ratelimit/gcra_rate_limit.lua`).

The script tells how many more requests fit, when to come back and when the key
is as good as unused.  In every state that a run reaches these numbers are
exact: all of them are read off one quantity, the distance of the next arrival
time from the end of the period.
-/

import McoaGateway.RateLimit.Gcra

namespace McoaGateway.RateLimit

section

variable (limits : Limits)

/-- How far behind the end of the period that starts now the arrival time would
be after one more request. -/
def Limits.slack (now : ℚ) (key : Option Stored) : ℚ :=
  now - (arrival key now + limits.interval - limits.duration)

theorem Limits.execute_eq (now : ℚ) (key : Option Stored) :
    limits.execute now key =
      if limits.slack now key < 0 then
        (⟨true, ⌊(limits.slack now key + limits.interval) / limits.interval⌋,
          ⌈- limits.slack now key⌉, ⌈arrival key now - now⌉, limits.slack now key,
          limits.interval⟩, key)
      else
        (⟨false, ⌊limits.slack now key / limits.interval⌋, 0,
          ⌈arrival key now + limits.interval - now⌉, limits.slack now key, limits.interval⟩,
          some ⟨arrival key now + limits.interval,
            now + ⌈arrival key now + limits.interval - now⌉⟩) := by
  have positive : 0 < limits.interval := limits.interval_pos
  have increment : limits.arguments.period / limits.arguments.rate * limits.arguments.cost =
      limits.interval := mul_one _
  have offset : limits.arguments.period / limits.arguments.rate * limits.arguments.burst =
      limits.duration := limits.interval_mul_limit
  have interval : limits.arguments.period / limits.arguments.rate = limits.interval := rfl
  have slack : now - (arrival key now + limits.interval - limits.duration) =
      limits.slack now key := rfl
  have few : ⌊limits.slack now key / limits.interval⌋ < 0 ↔ limits.slack now key < 0 := by
    rw [Int.floor_lt, Int.cast_zero, div_lt_iff₀ positive, zero_mul]
  have unlimited : now - (arrival key now - limits.duration) =
      limits.slack now key + limits.interval := by
    rw [Limits.slack]
    ring
  have costly : ¬ (⌊limits.slack now key / limits.interval⌋ = 0 ∧ limits.interval ≤ 0) :=
    fun free => absurd free.2 (not_le.mpr positive)
  rw [Limits.execute, gcraRateLimit, increment, offset, interval]
  dsimp only
  rw [slack, unlimited, if_neg costly, if_pos positive, mul_neg_one]
  simp only [few]

theorem Limits.limited_iff (now : ℚ) (key : Option Stored) :
    (limits.execute now key).1.limited = true ↔ limits.slack now key < 0 := by
  rw [limits.execute_eq]
  split
  · rename_i behind
    exact iff_of_true rfl behind
  · rename_i ahead
    exact iff_of_false Bool.false_ne_true ahead

theorem Limits.interval_le_duration : limits.interval ≤ limits.duration := by
  have one : (1 : ℚ) ≤ limits.limit := by exact_mod_cast limits.limitPositive
  have scaled := mul_le_mul_of_nonneg_left one limits.interval_pos.le
  rwa [mul_one, limits.interval_mul_limit] at scaled

theorem Limits.stored_of_limited (now : ℚ) (key : Option Stored)
    (limited : limits.slack now key < 0) :
    ∃ stored, key = some stored ∧ arrival key now = stored.tat ∧
      now + limits.duration < stored.tat + limits.interval := by
  have short := limits.interval_le_duration
  rw [Limits.slack] at limited
  cases key with
  | none =>
      rw [arrival_none] at limited
      linarith
  | some stored =>
      have ahead : now ≤ stored.tat := by
        by_contra behind
        have isNow : arrival (some stored) now = now := max_eq_right (not_le.mp behind).le
        rw [isNow] at limited
        linarith
      have isStored : arrival (some stored) now = stored.tat := max_eq_left ahead
      rw [isStored] at limited
      exact ⟨stored, rfl, isStored, by linarith⟩

theorem Limits.slack_admitted (now : ℚ) (key : Option Stored)
    (admits : ¬ limits.slack now key < 0) :
    limits.slack now (limits.execute now key).2 = limits.slack now key - limits.interval := by
  have positive := limits.interval_pos
  have atLeast := le_arrival key now
  rw [limits.execute_eq, if_neg admits]
  have moved : arrival (some ⟨arrival key now + limits.interval,
      now + ⌈arrival key now + limits.interval - now⌉⟩) now =
        arrival key now + limits.interval := max_eq_left (by dsimp only [Option.elim]; linarith)
  rw [Limits.slack, moved, Limits.slack]
  ring

theorem Limits.repeated_limited (now : ℚ) (key : Option Stored) (count : Nat) :
    (limits.execute now (keyAfter limits key (List.replicate count now))).1.limited = true ↔
      limits.slack now key < count * limits.interval := by
  have positive := limits.interval_pos
  induction count generalizing key with
  | zero =>
      rw [List.replicate_zero, keyAfter, limits.limited_iff, Nat.cast_zero, zero_mul]
  | succ count ih =>
      rw [List.replicate_succ, keyAfter, Nat.cast_succ]
      refine (ih (limits.execute now key).2).trans ?_
      by_cases limited : limits.slack now key < 0
      · have unchanged : (limits.execute now key).2 = key :=
          limits.execute_limited now key ((limits.limited_iff now key).mpr limited)
        have scaled : 0 ≤ (count : ℚ) * limits.interval := by positivity
        rw [unchanged]
        constructor <;> intro _ <;> linarith
      · rw [limits.slack_admitted now key limited]
        constructor <;> intro _ <;> linarith

/-- The key at a later time, if nothing was executed in between: Redis may have
removed it. -/
def Idle (key : Option Stored) (time : ℚ) (idle : Option Stored) : Prop :=
  idle = key ∨ idle = none ∧ ∃ stored, key = some stored ∧ stored.expires ≤ time

theorem Idle.arrival {stored : Stored} {time : ℚ} {idle : Option Stored}
    (idles : Idle (some stored) time idle) (outlived : stored.tat ≤ stored.expires) :
    arrival idle time = arrival (some stored) time := by
  rcases idles with same | ⟨removed, old, isOld, due⟩
  · rw [same]
  · cases isOld
    rw [removed, arrival_none]
    exact (max_eq_right (outlived.trans due)).symm

theorem Limits.slack_congr {now : ℚ} {key other : Option Stored}
    (same : arrival key now = arrival other now) :
    limits.slack now key = limits.slack now other := by
  rw [Limits.slack, same, Limits.slack]

/-- Two keys with the same arrival time now answer every sequence of requests
that starts now in the same way, once the first one is admitted. -/
theorem answers_congr (now : ℚ) (times : List ℚ) {key other : Option Stored}
    (same : arrival key now = arrival other now) (admits : ¬ limits.slack now key < 0) :
    answers limits key (now :: times) = answers limits other (now :: times) := by
  have alsoAdmits : ¬ limits.slack now other < 0 := by
    rwa [← limits.slack_congr same]
  have sameKey : (limits.execute now key).2 = (limits.execute now other).2 := by
    rw [limits.execute_eq, limits.execute_eq, if_neg admits, if_neg alsoAdmits, same]
  rw [answers, answers, limits.execute_answer_congr now same, sameKey]

theorem unused_iff (stored : Stored) (time : ℚ) :
    (∀ idle, Idle (some stored) time idle → ∀ times, (∀ t ∈ times, time ≤ t) →
        answers limits idle times = answers limits none times) ↔ stored.tat ≤ time := by
  have short := limits.interval_le_duration
  constructor
  · intro unused
    have sameAnswer := unused (some stored) (Or.inl rfl) [time]
      (fun t member => (List.mem_singleton.mp member).ge)
    rw [answers, answers, answers, answers] at sameAnswer
    have sameDiff : limits.slack time (some stored) = limits.slack time none := by
      have read : ∀ key, (limits.execute time key).1.diff = limits.slack time key := by
        intro key
        rw [limits.execute_eq]
        split <;> rfl
      rw [← read, ← read, (Prod.mk.inj (List.cons.inj sameAnswer).1).2]
    have sameArrival : arrival (some stored) time = time := by
      rw [Limits.slack, Limits.slack, arrival_none] at sameDiff
      linarith
    have atLeast : stored.tat ≤ arrival (some stored) time := le_max_left _ _
    rwa [sameArrival] at atLeast
  · intro passed idle idles times after
    cases times with
    | nil => rfl
    | cons first rest =>
        have behind : time ≤ first := after first List.mem_cons_self
        have idleArrival : arrival idle first = arrival none first := by
          rw [arrival_none]
          rcases idles with same | ⟨removed, _⟩
          · rw [same]
            exact max_eq_right (passed.trans behind)
          · rw [removed, arrival_none]
        have admits : ¬ limits.slack first idle < 0 := by
          rw [Limits.slack, idleArrival, arrival_none]
          linarith
        exact answers_congr limits first rest idleArrival admits

variable {limits} {clock : ℚ} {history : List (ℚ × Answer)} {key : Option Stored}

theorem Run.tat_le (run : Run limits clock history key) (stored : Stored)
    (present : key = some stored) : stored.tat ≤ clock + limits.duration := by
  induction run with
  | start clock => cases present
  | @execute clock history key before now later ih =>
      rcases limits.execute_cases now key with ⟨_, unchanged⟩ | ⟨_, bounded, changed⟩
      · rw [unchanged] at present
        have earlier := ih present
        linarith
      · rw [changed] at present
        cases present
        exact bounded
  | remove before now later due ih => cases present

end

/-- In a state that a run reaches, the answer to a request at `now` tells how many
requests are admitted now, when the next one is, and when the key is as good as
unused. -/
theorem gcraRateLimit_predicts (limits : Limits) {clock : ℚ} {history : List (ℚ × Answer)}
    {key : Option Stored} (run : Run limits clock history key) (now : ℤ) (later : clock ≤ now) :
    ((limits.execute now key).1.limited = false →
        0 ≤ (limits.execute now key).1.remaining ∧
        ∀ count : Nat, (limits.execute now
            (keyAfter limits (limits.execute now key).2
              (List.replicate count (now : ℚ)))).1.limited = true ↔
          (limits.execute now key).1.remaining ≤ count) ∧
      ((limits.execute now key).1.limited = true →
        (limits.execute now key).1.remaining = 0 ∧ 0 < (limits.execute now key).1.retryIn ∧
        ∀ (time : ℤ) (idle : Option Stored), now ≤ time →
          Idle (limits.execute now key).2 time idle →
          ((limits.execute time idle).1.limited = true ↔
            time < now + (limits.execute now key).1.retryIn)) ∧
      ∀ time : ℤ, now ≤ time →
        ((∀ idle, Idle (limits.execute now key).2 time idle →
            ∀ times, (∀ t ∈ times, (time : ℚ) ≤ t) →
              answers limits idle times = answers limits none times) ↔
          now + (limits.execute now key).1.resetIn ≤ time) := by
  have positive := limits.interval_pos
  have counted : ∀ (tat : ℚ) (time : ℤ), now + ⌈tat - now⌉ ≤ time ↔ tat ≤ time := by
    intro tat time
    rw [← le_sub_iff_add_le', Int.ceil_le, Int.cast_sub, sub_le_sub_iff_right]
  by_cases limited : limits.slack now key < 0
  · obtain ⟨stored, isStored, isArrival, _⟩ := limits.stored_of_limited now key limited
    have bounded := run.tat_le stored isStored
    have outlived := (run.stored stored isStored).1
    rw [limits.execute_eq, if_pos limited]
    dsimp only
    have slack : limits.slack now key = now + limits.duration - limits.interval - stored.tat := by
      rw [Limits.slack, isArrival]
      ring
    rw [isArrival, isStored]
    rw [isStored] at slack limited
    refine ⟨fun admits => Bool.noConfusion admits, fun _ => ⟨?_, ?_, ?_⟩, ?_⟩
    · rw [Int.floor_eq_zero_iff, Set.mem_Ico, slack]
      constructor
      · apply div_nonneg _ positive.le
        linarith
      · rw [div_lt_one positive]
        linarith
    · rw [Int.ceil_pos]
      linarith
    · intro time idle _ idles
      rw [limits.limited_iff, limits.slack_congr (idles.arrival outlived),
        ← sub_lt_iff_lt_add', Int.lt_ceil, Int.cast_sub]
      constructor
      · intro behind
        obtain ⟨same, isSame, _, ahead⟩ := limits.stored_of_limited time _ behind
        cases isSame
        linarith
      · intro early
        have atLeast : stored.tat ≤ arrival (some stored) time := le_max_left _ _
        rw [Limits.slack]
        linarith
    · intro time _
      rw [unused_iff, counted]
  · have nonnegative := not_lt.mp limited
    have left := limits.slack_admitted now key limited
    have repeated := limits.repeated_limited now (limits.execute now key).2
    rw [left] at repeated
    rw [limits.execute_eq, if_neg limited] at repeated ⊢
    dsimp only at repeated ⊢
    refine ⟨fun _ => ⟨?_, ?_⟩, fun isLimited => Bool.noConfusion isLimited, ?_⟩
    · exact Int.floor_nonneg.mpr (div_nonneg nonnegative positive.le)
    · intro count
      rw [repeated, ← Int.lt_add_one_iff, Int.floor_lt, div_lt_iff₀ positive]
      push_cast
      constructor <;> intro _ <;> linarith
    · intro time _
      rw [unused_iff, counted]

theorem gcraRateLimit_predicts_perSecond :
    (perSecond.execute (1500 : ℤ) (some ⟨2000, 2000⟩)).1 = ⟨true, 0, 500, 500, -500, 1000⟩ ∧
      ((perSecond.execute (1999 : ℤ) (some ⟨2000, 2000⟩)).1.limited = true ↔
        (1999 : ℤ) < 1500 + (perSecond.execute (1500 : ℤ) (some ⟨2000, 2000⟩)).1.retryIn) := by
  have answered : perSecond.execute (1500 : ℤ) (some ⟨2000, 2000⟩) =
      (⟨true, 0, 500, 500, -500, 1000⟩, some ⟨2000, 2000⟩) := by decide +kernel
  have idle : Idle (perSecond.execute (1500 : ℤ) (some ⟨2000, 2000⟩)).2 (1999 : ℤ)
      (some ⟨2000, 2000⟩) := by
    rw [answered]
    exact Or.inl rfl
  refine ⟨congrArg Prod.fst answered, ?_⟩
  refine ((gcraRateLimit_predicts perSecond perSecond_run 1500 (by decide)).2.1 ?_).2.2
    1999 (some ⟨2000, 2000⟩) (by decide) idle
  rw [answered]

end McoaGateway.RateLimit
