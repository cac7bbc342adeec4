/-
The rate limiter on Redis (`ratelimit/gcra_rate_limit.lua`, `ratelimit/redis.go`).

The script keeps one number per key, the theoretical arrival time `tat` of the
next request, and stores it with an expiry.  Numbers are exact rationals here.
`Run` interleaves executions of the script on one key with removals of the key
at or after its expiry; each admitted request moves `tat` by at least one
emission interval, and it is never more than a period ahead of the clock, which
bounds what a window can admit.
-/

import Mathlib.Algebra.Order.Field.Rat
import Mathlib.Data.Rat.Floor
import Mathlib.Tactic.Linarith
import Mathlib.Tactic.FieldSimp
import Mathlib.Tactic.Ring

namespace McoaGateway.RateLimit

/-! ### The script -/

/-- The arguments of the script, without the clock. -/
structure Arguments where
  burst : ℚ
  rate : ℚ
  period : ℚ
  cost : ℚ
deriving DecidableEq

/-- The value of a key, and when Redis removes it. -/
structure Stored where
  tat : ℚ
  expires : ℚ
deriving DecidableEq

structure Answer where
  limited : Bool
  remaining : Int
  retryIn : Int
  resetIn : Int
  diff : ℚ
  emissionInterval : ℚ
deriving DecidableEq

def arrival (key : Option Stored) (now : ℚ) : ℚ :=
  max (key.elim now Stored.tat) now

def gcraRateLimit (arguments : Arguments) (now : ℚ) (key : Option Stored) :
    Answer × Option Stored :=
  let emissionInterval := arguments.period / arguments.rate
  let increment := emissionInterval * arguments.cost
  let burstOffset := emissionInterval * arguments.burst
  let tat := arrival key now
  let newTat := tat + increment
  let allowAt := newTat - burstOffset
  let diff := now - allowAt
  let remaining := ⌊diff / emissionInterval⌋
  if remaining < 0 then
    ({ limited := true
       remaining := ⌊(now - (tat - burstOffset)) / emissionInterval⌋
       retryIn := ⌈diff * -1⌉
       resetIn := ⌈tat - now⌉
       diff
       emissionInterval }, key)
  else if remaining = 0 ∧ increment ≤ 0 then
    ({ limited := true
       remaining := 0
       retryIn := 0
       resetIn := ⌈tat - now⌉
       diff
       emissionInterval }, key)
  else
    let resetIn := ⌈newTat - now⌉
    ({ limited := false, remaining, retryIn := 0, resetIn, diff, emissionInterval },
      if 0 < increment then some ⟨newTat, now + resetIn⟩ else key)

/-- The limit and the window of a rate limit request, as they reach the script. -/
structure Limits where
  limit : Int
  duration : Int
  limitPositive : 1 ≤ limit
  durationPositive : 1 ≤ duration

/-- The parameters of `GetRateLimits`: the limit is the burst and the rate. -/
def Limits.arguments (limits : Limits) : Arguments :=
  ⟨limits.limit, limits.limit, limits.duration, 1⟩

def Limits.execute (limits : Limits) (now : ℚ) (key : Option Stored) :
    Answer × Option Stored :=
  gcraRateLimit limits.arguments now key

def Limits.interval (limits : Limits) : ℚ :=
  limits.duration / limits.limit

/-! ### What one execution does -/

section

variable (limits : Limits)

theorem Limits.limit_pos : (0 : ℚ) < limits.limit := by
  exact_mod_cast limits.limitPositive

theorem Limits.interval_pos : 0 < limits.interval := by
  have positive : (0 : ℚ) < limits.duration := by
    exact_mod_cast limits.durationPositive
  exact div_pos positive limits.limit_pos

theorem Limits.interval_mul_limit : limits.interval * limits.limit = limits.duration :=
  div_mul_cancel₀ _ limits.limit_pos.ne'

theorem le_arrival (key : Option Stored) (now : ℚ) : now ≤ arrival key now :=
  le_max_right _ _

theorem arrival_none (now : ℚ) : arrival none now = now :=
  max_self now

theorem arrival_mono (key : Option Stored) {earlier later : ℚ} (ordered : earlier ≤ later) :
    arrival key earlier ≤ arrival key later := by
  cases key with
  | none =>
      rw [arrival_none, arrival_none]
      exact ordered
  | some stored => exact max_le_max_left stored.tat ordered

/-- An execution either changes nothing, or moves the arrival time by one
interval, to at most one period from now. -/
theorem Limits.execute_cases (now : ℚ) (key : Option Stored) :
    ((limits.execute now key).1.limited = true ∧ (limits.execute now key).2 = key) ∨
      ((limits.execute now key).1.limited = false ∧
        arrival key now + limits.interval ≤ now + limits.duration ∧
        (limits.execute now key).2 =
          some ⟨arrival key now + limits.interval,
            now + ⌈arrival key now + limits.interval - now⌉⟩) := by
  have positive : 0 < limits.interval := limits.interval_pos
  have increment : limits.arguments.period / limits.arguments.rate * limits.arguments.cost =
      limits.interval := mul_one _
  have offset : limits.arguments.period / limits.arguments.rate * limits.arguments.burst =
      limits.duration := limits.interval_mul_limit
  have interval : limits.arguments.period / limits.arguments.rate = limits.interval := rfl
  rw [Limits.execute, gcraRateLimit, increment, offset, interval]
  dsimp only
  by_cases few : ⌊(now - (arrival key now + limits.interval - limits.duration)) /
      limits.interval⌋ < 0
  · rw [if_pos few]
    exact Or.inl ⟨rfl, rfl⟩
  · have costly : ¬ (⌊(now - (arrival key now + limits.interval - limits.duration)) /
        limits.interval⌋ = 0 ∧ limits.interval ≤ 0) :=
      fun free => absurd free.2 (not_le.mpr positive)
    rw [if_neg few, if_neg costly, if_pos positive]
    refine Or.inr ⟨rfl, ?_, rfl⟩
    have notNegative : 0 ≤ (now - (arrival key now + limits.interval - limits.duration)) /
        limits.interval := Int.floor_nonneg.mp (not_lt.mp few)
    have ahead := (le_div_iff₀ positive).mp notNegative
    linarith

theorem Limits.execute_limited (now : ℚ) (key : Option Stored)
    (limited : (limits.execute now key).1.limited = true) :
    (limits.execute now key).2 = key := by
  rcases limits.execute_cases now key with ⟨_, unchanged⟩ | ⟨admitted, _, _⟩
  · exact unchanged
  · rw [limited] at admitted
    cases admitted

theorem Limits.execute_answer_congr (now : ℚ) {key other : Option Stored}
    (same : arrival key now = arrival other now) :
    (limits.execute now key).1 = (limits.execute now other).1 := by
  simp only [Limits.execute, gcraRateLimit, same]
  split
  · rfl
  · split
    · rfl
    · rfl

/-! ### Runs on one key -/

/-- The runs on one key from the time it is missing: the clock, the executions
so far with their answers, and the key. -/
inductive Run : ℚ → List (ℚ × Answer) → Option Stored → Prop where
  | start (clock : ℚ) : Run clock [] none
  | execute {clock : ℚ} {history : List (ℚ × Answer)} {key : Option Stored}
      (before : Run clock history key) (now : ℚ) (later : clock ≤ now) :
      Run now (history ++ [(now, (limits.execute now key).1)]) (limits.execute now key).2
  | remove {clock : ℚ} {history : List (ℚ × Answer)} {stored : Stored}
      (before : Run clock history (some stored)) (now : ℚ) (later : clock ≤ now)
      (due : stored.expires ≤ now) : Run now history none

def admitted (history : List (ℚ × Answer)) : List ℚ :=
  (history.filter fun entry => !entry.2.limited).map Prod.fst

theorem admitted_append (history : List (ℚ × Answer)) (now : ℚ) (answer : Answer) :
    admitted (history ++ [(now, answer)]) =
      admitted history ++ if answer.limited then [] else [now] := by
  rw [admitted, List.filter_append, List.map_append, ← admitted]
  cases isLimited : answer.limited with
  | true => simp [isLimited]
  | false => simp [isLimited]

def answers : Option Stored → List ℚ → List (ℚ × Answer)
  | _, [] => []
  | key, now :: rest =>
      (now, (limits.execute now key).1) :: answers (limits.execute now key).2 rest

/-- The key after executions, when it is never removed. -/
def keyAfter : Option Stored → List ℚ → Option Stored
  | key, [] => key
  | key, now :: rest => keyAfter (limits.execute now key).2 rest

theorem answers_append (key : Option Stored) (times : List ℚ) (now : ℚ) :
    answers limits key (times ++ [now]) =
      answers limits key times ++ [(now, (limits.execute now (keyAfter limits key times)).1)] := by
  induction times generalizing key with
  | nil => rfl
  | cons time times ih =>
      rw [List.cons_append, answers, answers, ih, keyAfter, List.cons_append]

theorem keyAfter_append (key : Option Stored) (times : List ℚ) (now : ℚ) :
    keyAfter limits key (times ++ [now]) =
      (limits.execute now (keyAfter limits key times)).2 := by
  induction times generalizing key with
  | nil => rfl
  | cons time times ih => rw [List.cons_append, keyAfter, keyAfter, ih]

variable {limits} {clock : ℚ} {history : List (ℚ × Answer)} {key : Option Stored}

/-- The stored time is at most a period behind the last admitted request, and
the key outlives it. -/
theorem Run.stored (run : Run limits clock history key) (stored : Stored)
    (present : key = some stored) :
    stored.tat ≤ stored.expires ∧
      ∃ last, (admitted history).getLast? = some last ∧
        stored.tat ≤ last + limits.duration := by
  induction run with
  | start clock => cases present
  | @execute clock history key before now later ih =>
      rcases limits.execute_cases now key with ⟨limited, unchanged⟩ | ⟨admits, bounded, changed⟩
      · rw [unchanged] at present
        rw [admitted_append, limited, if_pos rfl, List.append_nil]
        exact ih present
      · rw [changed] at present
        cases present
        rw [admitted_append, admits, if_neg Bool.false_ne_true]
        refine ⟨?_, now, List.getLast?_concat, bounded⟩
        have rounded := Int.le_ceil (arrival key now + limits.interval - now)
        dsimp only
        linarith
  | remove before now later due ih => cases present

theorem Run.arrival_due (run : Run limits clock history key) (stored : Stored)
    (present : key = some stored) (now : ℚ) (due : stored.expires ≤ now) :
    arrival (some stored) now = now := by
  have outlived := (run.stored stored present).1
  exact max_eq_right (outlived.trans due)

/-- Each request of a choice of admitted ones has moved the arrival time by an
interval. -/
theorem Run.arrival_bound (run : Run limits clock history key) (first : ℚ) (others : List ℚ)
    (chosen : (first :: others).Sublist (admitted history)) :
    first + (first :: others).length * limits.interval ≤ arrival key clock := by
  induction run generalizing first others with
  | start clock => cases chosen
  | @execute clock history key before now later ih =>
      rcases limits.execute_cases now key with ⟨limited, unchanged⟩ | ⟨admits, _, changed⟩
      · rw [admitted_append, limited, if_pos rfl, List.append_nil] at chosen
        rw [unchanged]
        exact (ih first others chosen).trans (arrival_mono key later)
      · rw [admitted_append, admits, if_neg Bool.false_ne_true] at chosen
        have moved : arrival key now + limits.interval ≤
            arrival (limits.execute now key).2 now := by
          rw [changed]
          exact le_max_left _ _
        refine le_trans ?_ moved
        obtain ⟨old, added, isChosen, oldChosen, addedChosen⟩ := List.sublist_append_iff.mp chosen
        have positive := limits.interval_pos
        -- The chosen requests are old ones, and possibly the new one behind them.
        have count : ((first :: others).length : ℚ) ≤ old.length + 1 := by
          rw [isChosen, List.length_append]
          have one := addedChosen.length_le
          rw [List.length_singleton] at one
          push_cast
          have oneRat : (added.length : ℚ) ≤ 1 := by exact_mod_cast one
          linarith
        have scaled := mul_le_mul_of_nonneg_right count positive.le
        cases old with
        | nil =>
            have isNow : first = now := by
              rw [List.nil_append] at isChosen
              rw [← isChosen] at addedChosen
              simpa using addedChosen.subset List.mem_cons_self
            have atLeast := le_arrival key now
            rw [isNow] at scaled ⊢
            simp only [List.length_nil, Nat.cast_zero, zero_add, one_mul] at scaled
            linarith
        | cons head rest =>
            have isHead : first = head := by
              rw [List.cons_append] at isChosen
              exact (List.cons.inj isChosen).1
            have earlier := (ih head rest oldChosen).trans (arrival_mono key later)
            rw [isHead] at scaled ⊢
            linarith
  | @remove clock history stored before now later due ih =>
      rw [arrival_none]
      have earlier := (ih first others chosen).trans (arrival_mono (some stored) later)
      rwa [before.arrival_due stored rfl now due] at earlier

theorem Run.answers (run : Run limits clock history key) :
    history = answers limits none (history.map Prod.fst) ∧
      ∀ now, clock ≤ now →
        arrival key now = arrival (keyAfter limits none (history.map Prod.fst)) now := by
  induction run with
  | start clock => exact ⟨rfl, fun now _ => rfl⟩
  | @execute clock history key before now later ih =>
      obtain ⟨sameAnswers, sameArrival⟩ := ih
      have sameNow := sameArrival now later
      rw [List.map_append, List.map_singleton, answers_append, keyAfter_append]
      constructor
      · rw [← sameAnswers, limits.execute_answer_congr now sameNow]
      · intro time behind
        have sameAnswer := limits.execute_answer_congr now sameNow
        rcases limits.execute_cases now key with ⟨limited, unchanged⟩ | ⟨admits, _, changed⟩
        · rw [unchanged, limits.execute_limited now _ (sameAnswer ▸ limited)]
          exact sameArrival time (later.trans behind)
        · rcases limits.execute_cases now (keyAfter limits none (history.map Prod.fst)) with
            ⟨limited, _⟩ | ⟨_, _, alsoChanged⟩
          · rw [← sameAnswer, admits] at limited
            cases limited
          · rw [changed, alsoChanged, sameNow]
  | @remove clock history stored before now later due ih =>
      refine ⟨ih.1, ?_⟩
      intro time behind
      rw [← ih.2 time (later.trans behind), before.arrival_due stored rfl time (due.trans behind),
        arrival_none]

/-- A choice of admitted requests takes an interval for each of them, and ends at
most a period behind its last one. -/
theorem Run.window (run : Run limits clock history key) (first last : ℚ) (times : List ℚ)
    (chosen : times.Sublist (admitted history)) (isFirst : times.head? = some first)
    (isLast : times.getLast? = some last) :
    first + times.length * limits.interval ≤ last + limits.duration := by
  induction run generalizing times with
  | start clock =>
      cases chosen
      cases isFirst
  | @execute clock history key before now later ih =>
      rcases limits.execute_cases now key with ⟨limited, _⟩ | ⟨admits, bounded, changed⟩
      · rw [admitted_append, limited, if_pos rfl, List.append_nil] at chosen
        exact ih times chosen isFirst isLast
      · have after := Run.execute before now later
        rw [changed] at after
        have chosenNow := chosen
        rw [admitted_append, admits, if_neg Bool.false_ne_true] at chosen
        obtain ⟨old, added, isChosen, oldChosen, addedChosen⟩ := List.sublist_append_iff.mp chosen
        rcases List.sublist_singleton.mp addedChosen with isEmpty | isNow
        · rw [isEmpty, List.append_nil] at isChosen
          rw [isChosen] at isFirst isLast ⊢
          exact ih old oldChosen isFirst isLast
        · have lastNow : last = now := by
            rw [isChosen, isNow, List.getLast?_concat] at isLast
            exact (Option.some.inj isLast).symm
          obtain ⟨others, isCons⟩ := List.head?_eq_some_iff.mp isFirst
          rw [isCons] at chosenNow ⊢
          have moved := after.arrival_bound first others chosenNow
          have newer : arrival (some ⟨arrival key now + limits.interval,
              now + ⌈arrival key now + limits.interval - now⌉⟩) now ≤ now + limits.duration := by
            refine max_le bounded ?_
            have positive : (0 : ℚ) ≤ limits.duration := by
              exact_mod_cast (zero_le_one.trans limits.durationPositive)
            linarith
          rw [lastNow]
          exact moved.trans newer
  | remove before now later due ih => exact ih times chosen isFirst isLast

theorem Limits.window_count (limits : Limits) (first last count : ℚ)
    (fits : first + count * limits.interval ≤ last + limits.duration) :
    count ≤ limits.limit + (last - first) * limits.limit / limits.duration := by
  have positive := limits.interval_pos
  have interval : limits.interval = limits.duration / limits.limit := rfl
  have limitPositive := limits.limit_pos
  have durationPositive : (0 : ℚ) < limits.duration := by
    exact_mod_cast limits.durationPositive
  calc count = count * limits.interval / limits.interval :=
        (mul_div_cancel_right₀ count positive.ne').symm
    _ ≤ (last - first + limits.duration) / limits.interval := by
        apply div_le_div_of_nonneg_right _ positive.le
        linarith
    _ = limits.limit + (last - first) * limits.limit / limits.duration := by
        rw [interval]
        field_simp
        ring

/-- What a run on one key can admit and store, and that it does not notice
removals. -/
theorem gcraRateLimit_window (limits : Limits) {clock : ℚ} {history : List (ℚ × Answer)}
    {key : Option Stored} (run : Run limits clock history key) :
    (∀ (times : List ℚ) (first last : ℚ), times.Sublist (admitted history) →
      times.head? = some first →
        times.getLast? = some last →
        (times.length : ℚ) ≤ limits.limit + (last - first) * limits.limit / limits.duration) ∧
      (∀ stored, key = some stored → ∃ last, (admitted history).getLast? = some last ∧
        stored.tat ≤ last + limits.duration) ∧
      (∀ now, (limits.execute now key).1.limited = true → (limits.execute now key).2 = key) ∧
      history = answers limits none (history.map Prod.fst) := by
  refine ⟨?_, fun stored present => (run.stored stored present).2,
    fun now limited => limits.execute_limited now key limited, run.answers.1⟩
  intro times first last chosen isFirst isLast
  exact limits.window_count first last _ (run.window first last times chosen isFirst isLast)

def perSecond : Limits :=
  ⟨1, 1000, le_refl 1, by decide⟩

/-- The answers to requests at 0, 500 and 1000, the key being removed before
the last of them. -/
def perSecondHistory : List (ℚ × Answer) :=
  [(0, (perSecond.execute 0 none).1), (500, (perSecond.execute 500 (some ⟨1000, 1000⟩)).1),
    (1000, (perSecond.execute 1000 none).1)]

theorem perSecond_run : Run perSecond 1000 perSecondHistory (some ⟨2000, 2000⟩) := by
  have first : (perSecond.execute 0 none).2 = some ⟨1000, 1000⟩ := by decide +kernel
  have second : (perSecond.execute 500 (some ⟨1000, 1000⟩)).2 = some ⟨1000, 1000⟩ := by
    decide +kernel
  have third : (perSecond.execute 1000 none).2 = some ⟨2000, 2000⟩ := by decide +kernel
  have afterFirst := (Run.start 0 : Run perSecond 0 [] none).execute 0 (le_refl 0)
  rw [first] at afterFirst
  have afterSecond := afterFirst.execute 500 (by decide)
  rw [second] at afterSecond
  have afterThird := (afterSecond.remove 1000 (by decide) (le_refl _)).execute 1000 (le_refl _)
  rw [third] at afterThird
  exact afterThird

theorem gcraRateLimit_window_perSecond :
    admitted perSecondHistory = [0, 1000] ∧
      ((2 : Nat) : ℚ) ≤ perSecond.limit + (1000 - 0) * perSecond.limit / perSecond.duration := by
  have admits : admitted perSecondHistory = [0, 1000] := by decide +kernel
  refine ⟨admits, ?_⟩
  refine (gcraRateLimit_window perSecond perSecond_run).1 [0, 1000] 0 1000 ?_ rfl rfl
  rw [admits]

end

end McoaGateway.RateLimit
