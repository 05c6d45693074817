import LibidBridge.Accounting
import LibidBridge.LoopRefinement

/-!
# Aborting the loop

The refresh loop is aborted when the service ends.  A runtime drops the aborted
task where it awaits something, and between its answer and its last record a
revalidation awaits nothing.  So the loop leaves whole turns behind: what is
kept and counted is what the loop as it is written leads to on the answers it
was given, and the requests still being answered change none of it.
-/

namespace LibidBridge

variable {crates : Crates}

namespace System

/-- While the refresher awaits an answer the state is, but for what the requests
count, the one the revalidations that returned led to, each on its answer. -/
theorem exists_returning_of_unanswered {settings : Settings} {bridge : Bridge}
    (started : Bridge.start crates settings = .ok bridge) {events : List Event}
    {system : System}
    (ran : run (step crates bridge.refresher) (start bridge) events = some system)
    (unanswered : system.refreshing.answered = false) :
    ∃ ticks, run (bridge.refresher.returning crates) (bridge.state, []) ticks =
        some (system.state.uncounted, system.returned) ∧
      ticks.map Refresher.Tick.answer = events.filterMap Event.answer := by
  cases tracks_of_run started ran with
  | between ticks returned answers _ => exact ⟨ticks, returned, answers.symm⟩
  | within _ _ _ _ _ answered _ =>
      rw [unanswered] at answered
      cases answered

end System

namespace Service

variable {refresher : Refresher} {schedule : Schedule} {service next : Service}
variable {happening : Happening}

/-- Whether the loop has an answer and has not recorded all of it. -/
def midway (service : Service) : Bool :=
  match service.loop with
  | .revalidating _ => service.system.refreshing.answered
  | .asleep _ | .ended => false

/-- Whether the loop, where it is aborted, is dropped at something it awaits. -/
def droppedAtAwait : Service × Happening × Service → Bool
  | (service, .abort, _) => !service.midway
  | _ => true

/-- A loop that was dropped at something it awaits has recorded every answer. -/
def EndsRecorded (service : Service) : Prop :=
  service.loop = .ended → service.system.refreshing.answered = false

section Steps

variable (ordered : schedule.floor ≤ schedule.interval)
variable (doubles : 2 * schedule.interval.nanos < 2 ^ 64 * 1000000000)

include ordered doubles

theorem endsRecorded_step (recorded : service.EndsRecorded)
    (coherent : service.Coherent schedule)
    (stepped : step crates refresher schedule service happening = some next)
    (dropped : droppedAtAwait (service, happening, next) = true) : next.EndsRecorded := by
  intro ended
  cases steps_of_step stepped with
  | elapse nanos => exact recorded ended
  | wake wakes slept due idle => cases ended
  | receive answer began etag within spent awaiting => cases within.symm.trans ended
  | proceed now began system within proceeds =>
      -- The loop goes on within the revalidation, or sleeps after it.
      rcases @settled_cases crates refresher schedule _ _ _ proceeds with
        ⟨_, _, same⟩ | ⟨outcome, _, _, same⟩
      · rw [same] at ended
        cases within.symm.trans ended
      · obtain ⟨timing, nexts, _⟩ := exists_next ordered doubles coherent outcome
        rw [same, nexts] at ended
        cases ended
  | arrive body => exact recorded ended
  | advance index system advances =>
      cases System.steps_of_step advances with
      | advance index handler state after present advanced => exact recorded ended
  | abort =>
      have awaits : service.midway = false := by simpa [droppedAtAwait] using dropped
      unfold midway at awaits
      cases stands : service.loop with
      | asleep wakes =>
          have idle := coherent.asleep wakes stands
          dsimp only
          rw [idle]
          rfl
      | revalidating began => simpa [stands] using awaits
      | ended => exact recorded stands

theorem endsRecorded_of_run {bridge : Bridge} {happenings : List Happening}
    (ran : run (step crates bridge.refresher schedule) (start schedule bridge) happenings =
      some service)
    (dropped : ∀ taken ∈ transitions (step crates bridge.refresher schedule)
      (start schedule bridge) happenings, droppedAtAwait taken = true) :
    service.EndsRecorded := by
  refine @run_history_of_forall _ _ _ _ _ _ (fun _ service => service.EndsRecorded)
    (fun taken => droppedAtAwait taken = true) nofun ?_ dropped ran
  intro before middle happening next ranBefore recorded awaited stepped
  exact endsRecorded_step ordered doubles recorded
    (coherent_of_run ordered doubles ranBefore) stepped awaited

end Steps

/-- Once the loop is over, what happens is what requests count. -/
theorem over_step (ended : service.loop = .ended)
    (stepped : step crates refresher schedule service happening = some next) :
    next.loop = .ended ∧ next.system.state.uncounted = service.system.state.uncounted ∧
      next.system.returned = service.system.returned := by
  cases steps_of_step stepped with
  | elapse nanos => exact ⟨ended, rfl, rfl⟩
  | wake wakes slept due idle => cases ended.symm.trans slept
  | receive answer began etag within spent awaiting => cases ended.symm.trans within
  | proceed now began system within proceeds => cases ended.symm.trans within
  | arrive body => exact ⟨ended, rfl, rfl⟩
  | advance index system advances =>
      cases System.steps_of_step advances with
      | advance index handler state after present advanced =>
          exact ⟨ended, System.uncounted_advance advanced, rfl⟩
  | abort => exact ⟨rfl, rfl, rfl⟩

theorem over_run {later : List Happening} {final : Service} (ended : service.loop = .ended)
    (ran : run (step crates refresher schedule) service later = some final) :
    final.loop = .ended ∧ final.system.state.uncounted = service.system.state.uncounted ∧
      final.system.returned = service.system.returned := by
  apply @run_invariant _ _ _ (fun final : Service => final.loop = .ended ∧
    final.system.state.uncounted = service.system.state.uncounted ∧
      final.system.returned = service.system.returned) _ _ _ _ ⟨ended, rfl, rfl⟩ ran
  rintro middle happening next ⟨done, state, returned⟩ stepped
  obtain ⟨still, sameState, sameReturned⟩ := over_step done stepped
  exact ⟨still, sameState.trans state, sameReturned.trans returned⟩

/-- Aborting the loop leaves whole turns.  Where it is dropped at something it
awaits, the loop as it is written gets to the same state, but for what requests
count, and to the same delays on exactly the answers that were given; the
metrics account for every retrieval that returned; and the requests answered
from then on change nothing else. -/
theorem aborted_between_turns {settings : Settings} {bridge : Bridge}
    (started : Bridge.start crates settings = .ok bridge)
    (ordered : schedule.floor ≤ schedule.interval)
    (doubles : 2 * schedule.interval.nanos < 2 ^ 64 * 1000000000)
    {happenings : List Happening}
    (ran : run (step crates bridge.refresher schedule) (start schedule bridge) happenings =
      some service)
    (dropped : ∀ taken ∈ transitions (step crates bridge.refresher schedule)
      (start schedule bridge) happenings, droppedAtAwait taken = true)
    (ended : service.loop = .ended) :
    (∃ ticks, run (bridge.refresher.turn crates schedule) (bridge.state, schedule.start) ticks =
        some (service.system.state.uncounted, service.timing) ∧
      ticks.map Refresher.Tick.answer = answers happenings) ∧
    CountsOutcomes service.system.state service.system.returned ∧
    ∀ later final, run (step crates bridge.refresher schedule) service later = some final →
      final.system.state.uncounted = service.system.state.uncounted ∧
        final.system.returned = service.system.returned := by
  have coherent := coherent_of_run ordered doubles ran
  have unanswered := endsRecorded_of_run ordered doubles ran dropped ended
  obtain ⟨ticks, returned, given⟩ :=
    System.exists_returning_of_unanswered started (system_run ran) unanswered
  refine ⟨⟨ticks, Refresher.run_turn_of_returning returned coherent.timing, given⟩, ?_,
    fun later final ranLater => (over_run ended ranLater).2⟩
  obtain ⟨retrievals, kinds, failures, available, served⟩ :=
    countsOutcomes_of_run started returned
  exact ⟨retrievals, kinds, failures, available, served⟩

end Service

/-- The loop is aborted within its second retrieval, after the first published,
and a request is answered after it. -/
def Reference.abortedRetrieval : List Happening :=
  [.wake, .arrive ⟨true⟩, .receive (tick "'sha256-A='".toList []).answer] ++
    List.replicate 6 (.proceed 0) ++
    [.elapse 300000000000, .wake, .abort, .advance 0, .advance 0]

theorem Service.aborted_between_turns_awaiting :
    ∃ service ticks, run (step Reference.crates Reference.bridge.refresher Schedule.DEPLOYED)
        (start Schedule.DEPLOYED Reference.bridge) Reference.abortedRetrieval = some service ∧
      service.system.state.callback.isSome ∧
      run (Reference.bridge.refresher.turn Reference.crates Schedule.DEPLOYED)
        (Reference.bridge.state, Schedule.DEPLOYED.start) ticks =
          some (service.system.state.uncounted, service.timing) ∧
      ticks.length = 1 := by
  have ran : (run (step Reference.crates Reference.bridge.refresher Schedule.DEPLOYED)
      (start Schedule.DEPLOYED Reference.bridge) Reference.abortedRetrieval).any
        (fun service => service.loop = .ended ∧ service.system.state.callback.isSome) := by
    decide +kernel
  obtain ⟨service, ran, stands⟩ := (Option.any_eq_true _ _).mp ran
  obtain ⟨ended, served⟩ := of_decide_eq_true stands
  have dropped : (transitions (step Reference.crates Reference.bridge.refresher
      Schedule.DEPLOYED) (start Schedule.DEPLOYED Reference.bridge)
        Reference.abortedRetrieval).all droppedAtAwait := by
    decide +kernel
  obtain ⟨⟨ticks, turned, given⟩, _⟩ := aborted_between_turns Reference.start_settings
    (by decide) (by decide) ran (List.all_eq_true.mp dropped) ended
  refine ⟨service, ticks, ran, served, turned, ?_⟩
  rw [← List.length_map Refresher.Tick.answer, given]
  rfl

end LibidBridge
