import LibidBridge.Revalidation
import Mathlib.Algebra.Order.Ring.Nat

/-!
# When the refresher retries

The delays of the refresh loop, carried in two durations from one retrieval to
the next: the interval after a success, and after each failure of a streak
twice the delay before it, up to the interval.  A `Duration` is bounded, and
doubling one past its bound panics; the loop never does.
-/

namespace LibidBridge

/-- The value after doubling a number of times, never past the bound. -/
def cappedDoubling (bound first : Nat) (times : Nat) : Nat :=
  min bound (first * 2 ^ times)

theorem cappedDoubling_zero {bound first : Nat} (inside : first ≤ bound) :
    cappedDoubling bound first 0 = first := by
  simp [cappedDoubling, inside]

theorem cappedDoubling_succ (bound first times : Nat) :
    cappedDoubling bound first (times + 1) =
      min (cappedDoubling bound first times * 2) bound := by
  unfold cappedDoubling
  rw [Nat.pow_succ, ← Nat.mul_assoc]
  omega

theorem cappedDoubling_le (bound first times : Nat) : cappedDoubling bound first times ≤ bound :=
  min_le_left _ _

theorem cappedDoubling_mono (bound first : Nat) {fewer more : Nat} (order : fewer ≤ more) :
    cappedDoubling bound first fewer ≤ cappedDoubling bound first more := by
  have powers : 2 ^ fewer ≤ 2 ^ more := Nat.pow_le_pow_right (by omega) order
  have products := Nat.mul_le_mul_left first powers
  unfold cappedDoubling
  omega

theorem first_le_cappedDoubling {bound first : Nat} (inside : first ≤ bound) (times : Nat) :
    first ≤ cappedDoubling bound first times := by
  have atZero := cappedDoubling_mono bound first (Nat.zero_le times)
  rwa [cappedDoubling_zero inside] at atZero

/-- A span of time in nanoseconds, whose seconds fit in 64 bits. -/
@[ext]
structure Duration where
  nanos : Nat
  bounded : nanos < 2 ^ 64 * 1000000000
  deriving DecidableEq

namespace Duration

def ZERO : Duration where
  nanos := 0
  bounded := by decide

def fromSecs (secs : UInt64) : Duration where
  nanos := secs.toNat * 1000000000
  bounded := by
    have := secs.toNat_lt
    omega

instance : LE Duration where
  le first second := first.nanos ≤ second.nanos

instance : Min Duration where
  min first second := if first.nanos ≤ second.nanos then first else second

/-- `duration * factor`, or `none` where it overflows and panics. -/
def mul (duration : Duration) (factor : Nat) : Option Duration :=
  if bounded : duration.nanos * factor < 2 ^ 64 * 1000000000 then
    some ⟨duration.nanos * factor, bounded⟩
  else none

theorem mul_eq_some_iff {duration product : Duration} {factor : Nat} :
    duration.mul factor = some product ↔ product.nanos = duration.nanos * factor := by
  unfold mul
  have bounded := product.bounded
  split_ifs with inside
  · rw [Option.some.injEq]
    constructor
    · rintro rfl
      rfl
    · intro same
      cases product
      simpa [eq_comm] using same
  · simp only [false_iff]
    omega

theorem nanos_min (first second : Duration) :
    (min first second).nanos = min first.nanos second.nanos := by
  change (if first.nanos ≤ second.nanos then first else second).nanos = _
  split_ifs with order
  · exact (min_eq_left order).symm
  · exact (min_eq_right (by omega)).symm

end Duration

/-- When the refresh loop revalidates. -/
structure Schedule where
  interval : Duration
  floor : Duration
  deriving DecidableEq

/-- What the loop carries from one retrieval to the next. -/
structure Timing where
  delay : Duration
  backoff : Duration
  deriving DecidableEq

namespace Schedule

def DEPLOYED : Schedule where
  interval := Duration.fromSecs 300
  floor := Duration.fromSecs 1

def start (schedule : Schedule) : Timing where
  delay := Duration.ZERO
  backoff := schedule.floor

/-- The timing after a retrieval; `none` where doubling the backoff panics. -/
def next (schedule : Schedule) (timing : Timing) : Except FetchError Bool → Option Timing
  | .ok _ => some ⟨schedule.interval, schedule.floor⟩
  | .error _ =>
      (timing.backoff.mul 2).map fun doubled =>
        ⟨timing.backoff, min doubled schedule.interval⟩

/-- The delay after a streak of failures and one more. -/
def retry (schedule : Schedule) (failures : Nat) : Nat :=
  cappedDoubling schedule.interval.nanos schedule.floor.nanos failures

end Schedule

/-- How many of the last outcomes are failures. -/
def streak (outcomes : List (Except FetchError Bool)) : Nat :=
  (outcomes.reverse.takeWhile fun outcome => !outcome.isOk).length

theorem streak_append_ok (outcomes : List (Except FetchError Bool)) (replaced : Bool) :
    streak (outcomes ++ [.ok replaced]) = 0 := by
  simp [streak, Except.isOk, Except.toBool]

theorem streak_append_error (outcomes : List (Except FetchError Bool)) (error : FetchError) :
    streak (outcomes ++ [.error error]) = streak outcomes + 1 := by
  simp [streak, Except.isOk, Except.toBool]

/-- A streak of failures that nothing or a success precedes is as long as it
is. -/
theorem streak_append_failures {before : List (Except FetchError Bool)}
    (fresh : streak before = 0) (failures : List FetchError) :
    streak (before ++ failures.map .error) = failures.length := by
  induction failures using List.reverseRecOn with
  | nil => simpa using fresh
  | append_singleton failures error ih =>
      rw [List.map_append, List.map_singleton, ← List.append_assoc, streak_append_error, ih]
      simp

namespace Schedule

/-- What the two durations are after these outcomes. -/
structure After (schedule : Schedule) (outcomes : List (Except FetchError Bool))
    (timing : Timing) : Prop where
  backoff : timing.backoff.nanos = schedule.retry (streak outcomes)
  first : outcomes = [] → timing.delay = Duration.ZERO
  succeeded : ∀ before replaced, outcomes = before ++ [.ok replaced] →
    timing.delay = schedule.interval
  failed : ∀ before error, outcomes = before ++ [.error error] →
    timing.delay.nanos = schedule.retry (streak before)

variable {schedule : Schedule}

/-- After a streak of failures that nothing or a success precedes, the floor is
doubled once for each failure before the last. -/
theorem After.delay_of_failures {before : List (Except FetchError Bool)}
    {failures : List FetchError} {timing : Timing}
    (after : schedule.After (before ++ failures.map .error) timing)
    (fresh : before = [] ∨ ∃ earlier replaced, before = earlier ++ [.ok replaced])
    (nonempty : failures ≠ []) :
    timing.delay.nanos = schedule.retry (failures.length - 1) := by
  have none : streak before = 0 := by
    rcases fresh with rfl | ⟨earlier, replaced, rfl⟩
    · rfl
    · exact streak_append_ok earlier replaced
  obtain ⟨earlier, last, rfl⟩ : ∃ earlier last, failures = earlier ++ [last] :=
    ⟨_, _, (List.dropLast_append_getLast nonempty).symm⟩
  have split : before ++ (earlier ++ [last]).map .error =
      (before ++ earlier.map .error) ++ [.error last] := by simp
  rw [after.failed _ last split, streak_append_failures none, List.length_append,
    List.length_singleton, Nat.add_sub_cancel]

theorem After.delay_between {outcomes : List (Except FetchError Bool)} {timing : Timing}
    (ordered : schedule.floor ≤ schedule.interval) (after : schedule.After outcomes timing)
    (nonempty : outcomes ≠ []) :
    schedule.floor ≤ timing.delay ∧ timing.delay ≤ schedule.interval := by
  obtain ⟨before, last, same⟩ : ∃ before last, outcomes = before ++ [last] :=
    ⟨_, _, (List.dropLast_append_getLast nonempty).symm⟩
  cases last with
  | ok replaced =>
      rw [after.succeeded before replaced same]
      exact ⟨ordered, le_refl schedule.interval.nanos⟩
  | error error =>
      change _ ≤ timing.delay.nanos ∧ timing.delay.nanos ≤ _
      rw [after.failed before error same]
      exact ⟨first_le_cappedDoubling ordered _, cappedDoubling_le _ _ _⟩

/-- A failure after a failure waits at least as long. -/
theorem After.delay_le {before : List (Except FetchError Bool)} {previous error : FetchError}
    {timing later : Timing} (after : schedule.After (before ++ [.error previous]) timing)
    (laterAfter : schedule.After (before ++ [.error previous] ++ [.error error]) later) :
    timing.delay ≤ later.delay := by
  change timing.delay.nanos ≤ later.delay.nanos
  rw [after.failed before previous rfl, laterAfter.failed _ error rfl]
  apply cappedDoubling_mono
  rw [streak_append_error]
  omega

section Delays

variable (ordered : schedule.floor ≤ schedule.interval)

include ordered

theorem after_start : schedule.After [] schedule.start where
  backoff := (cappedDoubling_zero ordered).symm
  first _ := rfl
  succeeded := by simp
  failed := by simp

/-- One outcome keeps the closed form: a success resets both durations, and a
failure waits the backoff and doubles it. -/
theorem after_next {outcomes : List (Except FetchError Bool)} {timing later : Timing}
    {outcome : Except FetchError Bool} (after : schedule.After outcomes timing)
    (stepped : schedule.next timing outcome = some later) :
    schedule.After (outcomes ++ [outcome]) later := by
  cases outcome with
  | ok replaced =>
      cases stepped
      exact
        { backoff := by
            rw [streak_append_ok]
            exact (cappedDoubling_zero ordered).symm
          first := by simp
          succeeded := fun _ _ _ => rfl
          failed := by simp }
  | error error =>
      obtain ⟨doubled, product, rfl⟩ := Option.map_eq_some_iff.mp stepped
      rw [Duration.mul_eq_some_iff] at product
      exact
        { backoff := by
            rw [Duration.nanos_min, product, after.backoff, streak_append_error]
            exact (cappedDoubling_succ _ _ _).symm
          first := by simp
          succeeded := by simp
          failed := by
            intro before other same
            obtain ⟨rfl, -⟩ := List.append_inj' same rfl
            exact after.backoff }

variable (doubles : 2 * schedule.interval.nanos < 2 ^ 64 * 1000000000)

include doubles

omit ordered in
theorem isSome_mul_backoff {outcomes : List (Except FetchError Bool)} {timing : Timing}
    (after : schedule.After outcomes timing) : (timing.backoff.mul 2).isSome := by
  have bounded : schedule.retry (streak outcomes) ≤ schedule.interval.nanos :=
    cappedDoubling_le _ _ _
  rw [← after.backoff] at bounded
  unfold Duration.mul
  rw [dif_pos (by omega)]
  rfl

/-- No sequence of outcomes ends the loop, and after each the durations are
what the closed form says. -/
theorem exists_run_next (outcomes : List (Except FetchError Bool)) :
    ∃ timing, run schedule.next schedule.start outcomes = some timing ∧
      schedule.After outcomes timing := by
  have kept : ∀ outcomes timing outcome later,
      run schedule.next schedule.start outcomes = some timing →
        schedule.After outcomes timing → schedule.next timing outcome = some later →
          schedule.After (outcomes ++ [outcome]) later :=
    fun _ _ _ _ _ after stepped => after_next ordered after stepped
  obtain ⟨timing, ran⟩ := exists_run (after_start ordered) kept (fun _ timing outcome after => by
    cases outcome with
    | ok replaced => rfl
    | error error => simpa [next] using isSome_mul_backoff doubles after) outcomes
  exact ⟨timing, ran, run_history (after_start ordered) kept ran⟩

end Delays

/-- The delays of the refresh loop, for every schedule whose floor is at most
its interval and whose interval can be doubled: none before the first
retrieval, the interval after a success, and after the last of a streak of
failures the floor doubled once for each failure before it, up to the interval.
So every delay but the first is between the two, no failure shortens the delay
of the one before it, and no outage overflows the backoff. -/
theorem delays_of_outcomes (schedule : Schedule) (ordered : schedule.floor ≤ schedule.interval)
    (doubles : 2 * schedule.interval.nanos < 2 ^ 64 * 1000000000)
    (outcomes : List (Except FetchError Bool)) :
    ∃ timing, run schedule.next schedule.start outcomes = some timing ∧
      (outcomes = [] → timing.delay = Duration.ZERO) ∧
      (∀ before replaced, outcomes = before ++ [.ok replaced] →
        timing.delay = schedule.interval) ∧
      (∀ before (failures : List FetchError),
        (before = [] ∨ ∃ earlier replaced, before = earlier ++ [.ok replaced]) →
          failures ≠ [] → outcomes = before ++ failures.map .error →
            timing.delay.nanos = min schedule.interval.nanos
              (schedule.floor.nanos * 2 ^ (failures.length - 1))) ∧
      (outcomes ≠ [] → schedule.floor ≤ timing.delay ∧ timing.delay ≤ schedule.interval) ∧
      (∀ before previous error later, outcomes = before ++ [.error previous] →
        schedule.next timing (.error error) = some later → timing.delay ≤ later.delay) ∧
      (timing.backoff.mul 2).isSome := by
  obtain ⟨timing, ran, after⟩ := exists_run_next ordered doubles outcomes
  refine ⟨timing, ran, after.first, after.succeeded, ?_, after.delay_between ordered, ?_,
    isSome_mul_backoff doubles after⟩
  · rintro before failures fresh nonempty rfl
    exact after.delay_of_failures fresh nonempty
  · rintro before previous error later rfl stepped
    exact after.delay_le (after_next ordered after stepped)

theorem delays_of_outcomes_deployed :
    ∃ timing, run DEPLOYED.next DEPLOYED.start
        [.ok true, .error .notUtf8, .error .notUtf8, .error .notUtf8] = some timing ∧
      timing.delay = Duration.fromSecs 4 := by
  obtain ⟨timing, ran, -, -, streaks, -⟩ := delays_of_outcomes DEPLOYED (by decide) (by decide)
    [.ok true, .error .notUtf8, .error .notUtf8, .error .notUtf8]
  refine ⟨timing, ran, ?_⟩
  have nanos := streaks [.ok true] [.notUtf8, .notUtf8, .notUtf8]
    (Or.inr ⟨[], true, rfl⟩) (by simp) rfl
  apply Duration.ext
  rw [nanos]
  decide

end Schedule

namespace Refresher

variable {crates : Crates}

/-- One turn of the refresh loop: a retrieval, and the timing of the next one;
`none` where the task would panic. -/
def turn (crates : Crates) (refresher : Refresher) (schedule : Schedule)
    (loop : AppState × Timing) (tick : Tick) : Option (AppState × Timing) :=
  (refresher.revalidate crates loop.1 tick.answer tick.now).bind fun (state, outcome) =>
    (schedule.next loop.2 outcome).map fun timing => (state, timing)

/-- The loop of a started deployment runs for as long as answers come: no
retrieval and no delay of it panics, its state is that of the revalidations,
and its timing that of their outcomes. -/
theorem exists_run_turn (laws : HeaderLaws crates) {settings : Settings} {bridge : Bridge}
    (started : Bridge.start crates settings = .ok bridge) {schedule : Schedule}
    (ordered : schedule.floor ≤ schedule.interval)
    (doubles : 2 * schedule.interval.nanos < 2 ^ 64 * 1000000000) (ticks : List Tick) :
    ∃ state timing outcomes,
      run (bridge.refresher.turn crates schedule) (bridge.state, schedule.start) ticks =
        some (state, timing) ∧
      run (bridge.refresher.step crates) bridge.state ticks = some state ∧
      outcomes.length = ticks.length ∧
      run schedule.next schedule.start outcomes = some timing := by
  have empty := Bridge.callback_of_start started
  induction ticks using List.reverseRecOn with
  | nil => exact ⟨_, _, [], rfl, rfl, rfl, rfl⟩
  | append_singleton ticks tick ih =>
      obtain ⟨state, timing, outcomes, ran, stepsRan, sameLength, delaysRan⟩ := ih
      obtain ⟨next, nextRan⟩ := @exists_run_step crates laws bridge.refresher _ empty
        (ticks ++ [tick])
      obtain ⟨middle, middleRan, stepped⟩ := run_snoc_eq_some.mp nextRan
      cases stepsRan.symm.trans middleRan
      obtain ⟨⟨_, outcome⟩, revalidated, rfl⟩ := Option.map_eq_some_iff.mp stepped
      obtain ⟨later, laterRan, _⟩ :=
        Schedule.exists_run_next ordered doubles (outcomes ++ [outcome])
      obtain ⟨before, beforeRan, timed⟩ := run_snoc_eq_some.mp laterRan
      cases delaysRan.symm.trans beforeRan
      refine ⟨_, later, outcomes ++ [outcome],
        run_snoc_eq_some.mpr ⟨_, ran, ?_⟩, nextRan, by simp [sameLength], laterRan⟩
      simp only [turn, revalidated, Option.bind_some, timed, Option.map_some]

end Refresher

end LibidBridge
