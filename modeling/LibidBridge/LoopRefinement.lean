import LibidBridge.Service

/-!
# The service and the loop as it is written

The running service, with its clock and its requests, against the refresh loop
alone, one whole revalidation and one choice of the next delay after the other.
What the service does, the loop does on the answers it was given; and what the
loop does on any answers, the service can do.  Where the loop sleeps, the two
agree on the state but for what requests count, and on the delays.
-/

namespace LibidBridge

variable {crates : Crates}

/-- Revalidations with the delays that their outcomes lead to are turns of the
loop. -/
theorem Refresher.run_turn_of_returning {refresher : Refresher} {schedule : Schedule}
    {ticks : List Tick} {start base : AppState} {outcomes : List (Except FetchError Bool)}
    {before after : Timing}
    (returned : run (refresher.returning crates) (start, []) ticks = some (base, outcomes))
    (delayed : run schedule.next before outcomes = some after) :
    run (refresher.turn crates schedule) (start, before) ticks = some (base, after) := by
  induction ticks using List.reverseRecOn generalizing base outcomes after with
  | nil =>
      cases returned
      cases delayed
      rfl
  | append_singleton ticks tick ih =>
      obtain ⟨⟨state, past⟩, ranTicks, last⟩ := run_snoc_eq_some.mp returned
      obtain ⟨⟨next, outcome⟩, revalidated, same⟩ := Option.map_eq_some_iff.mp last
      cases same
      obtain ⟨middle, earlier, delays⟩ := run_snoc_eq_some.mp delayed
      refine run_snoc_eq_some.mpr ⟨(state, middle), ih ranTicks earlier, ?_⟩
      have stepped : schedule.next middle outcome = some after := delays
      have ticked : refresher.revalidate crates state tick.answer tick.now =
          some (base, outcome) := revalidated
      simp only [turn, ticked, Option.bind_some, stepped, Option.map_some]

namespace Service

/-- The answers the loop was given. -/
def answers (happenings : List Happening) : List Answer :=
  (happenings.flatMap Happening.events).filterMap Event.answer

theorem answers_append (first second : List Happening) :
    answers (first ++ second) = answers first ++ answers second := by
  simp [answers]

theorem answers_replicate_proceed (steps now : Nat) :
    answers (List.replicate steps (.proceed now)) = [] := by
  simp [answers, Happening.events, Event.answer]

variable {refresher : Refresher} {schedule : Schedule} {service : Service}

section Steps

variable (ordered : schedule.floor ≤ schedule.interval)
variable (doubles : 2 * schedule.interval.nanos < 2 ^ 64 * 1000000000)

include ordered doubles

/-- A revalidation that has its answer can go on to its end with nothing in
between, and the loop then sleeps. -/
theorem exists_finished (coherent : service.Coherent schedule) {began : Nat}
    (within : service.loop = .revalidating began)
    (answered : service.system.refreshing.answered = true)
    (alive : service.system.refreshing ≠ .panicked) (now : Nat) :
    ∃ steps next outcome wakes,
      run (step crates refresher schedule) service (List.replicate steps (.proceed now)) =
        some next ∧
      service.system.refreshing.finish crates refresher service.system.state.uncounted now =
        some (next.system.state.uncounted, outcome) ∧
      schedule.next service.timing outcome = some next.timing ∧ next.loop = .asleep wakes := by
  generalize left : service.system.refreshing.left = count
  induction count using Nat.strong_induction_on generalizing service with
  | h count ih =>
      obtain ⟨system, proceeds⟩ := Option.isSome_iff_exists.mp
        (@System.isSome_proceed crates service.system refresher now answered alive)
      have stepped : step crates refresher schedule service (.proceed now) =
          some (service.settled schedule system) := by
        simp only [step, within, System.step, proceeds, Option.map_some]
      have fewer := System.left_proceed proceeds
      obtain ⟨_, ⟨still, _, same⟩ | ⟨idle, outcome, returned, finish⟩⟩ :=
        System.finish_proceed proceeds
      · rcases @settled_cases crates refresher schedule _ _ _ proceeds with
          ⟨_, _, goes⟩ | ⟨_, idle, _, _⟩
        · rw [goes] at stepped
          obtain ⟨steps, next, outcome, wakes, ran, finish, delay, sleeps⟩ :=
            @ih _ (left ▸ fewer) { service with system := system }
              (coherent_step ordered doubles coherent stepped) within still
              (System.lives_proceed proceeds).1 rfl
          refine ⟨steps + 1, next, outcome, wakes, ?_, ?_, delay, sleeps⟩
          · rw [List.replicate_succ, run_cons, stepped]
            exact ran
          · rw [← same now]
            exact finish
        · rw [idle] at still
          cases still
      · obtain ⟨timing, nexts, _⟩ := exists_next ordered doubles coherent outcome
        have settles : service.settled schedule system =
            { service with
              system := system
              timing := timing
              loop := .asleep (service.clock + timing.delay.nanos) } := by
          rw [settled, idle, returned, List.getLast?_concat]
          simp only [nexts]
        rw [settles] at stepped
        exact ⟨1, _, outcome, _, by rw [List.replicate_one, run_cons, stepped]; rfl, finish,
          nexts, rfl⟩

/-- A turn of the loop, on any answer, from where it sleeps. -/
theorem exists_turned (laws : HeaderLaws crates) (coherent : service.Coherent schedule)
    (lives : ∀ text, service.system.state.etag = some text → ∀ letter ∈ text, IsReadable letter)
    {wakes : Nat} (sleeps : service.loop = .asleep wakes) (tick : Refresher.Tick) :
    ∃ happenings next later,
      run (step crates refresher schedule) service happenings = some next ∧
      next.loop = .asleep later ∧ answers happenings = [tick.answer] ∧
      refresher.turn crates schedule (service.system.state.uncounted, service.timing) tick =
        some (next.system.state.uncounted, next.timing) := by
  have idle := coherent.asleep wakes sleeps
  -- The timer runs out, and so does the budget, before the answer is given.
  let woken : Service :=
    { service with
      system := { service.system with
        refreshing := System.received crates refresher service.system.state.etag tick.answer }
      loop := .revalidating (service.clock + wakes)
      clock := service.clock + wakes + REQUEST_TIMEOUT.nanos }
  have ran : run (step crates refresher schedule) service
      [.elapse wakes, .wake, .elapse REQUEST_TIMEOUT.nanos, .receive tick.answer] =
        some woken := by
    simp [woken, step, sleeps, idle, System.step]
  have stands : woken.Coherent schedule :=
    run_invariant (fun _ _ _ coherent stepped =>
      coherent_step ordered doubles coherent stepped) coherent ran
  obtain ⟨alive, _⟩ := @System.lives_received crates refresher laws _ lives tick.answer
  obtain ⟨steps, next, outcome, later, finishes, finish, delay, slept⟩ :=
    exists_finished ordered doubles stands rfl (System.answered_received _ _ _) alive tick.now
  refine ⟨_, next, later, run_append_eq_some.mpr ⟨woken, ran, finishes⟩, slept, ?_, ?_⟩
  · rw [answers_append, answers_replicate_proceed]
    rfl
  · have revalidated : refresher.revalidate crates service.system.state.uncounted tick.answer
        tick.now = some (next.system.state.uncounted, outcome) := by
      rw [← System.finish_received, AppState.etag_uncounted]
      exact finish
    have delayed : schedule.next service.timing outcome = some next.timing := delay
    simp only [Refresher.turn, revalidated, Option.bind_some, delayed, Option.map_some]

end Steps

section Both

variable {bridge : Bridge} {settings : Settings}
variable (started : Bridge.start crates settings = .ok bridge)

include started

theorem uncounted_of_start : bridge.state.uncounted = bridge.state := by
  obtain ⟨_, _, _, _, rfl⟩ := Bridge.start_eq_ok_iff.mp started
  rfl

theorem readable_etag_of_run (laws : HeaderLaws crates) {events : List Event} {system : System}
    (ran : run (System.step crates bridge.refresher) (System.start bridge) events =
      some system) :
    ∀ text, system.state.etag = some text → ∀ letter ∈ text, IsReadable letter := by
  intro text carried
  obtain ⟨published, served, etag⟩ := Option.bind_eq_some_iff.mp carried
  obtain ⟨arrival, _, composed⟩ :=
    (System.allReceived_of_run laws (Bridge.callback_of_start started) ran).1 published served
  exact composed.readable_etag laws text etag

variable (ordered : schedule.floor ≤ schedule.interval)
variable (doubles : 2 * schedule.interval.nanos < 2 ^ 64 * 1000000000)

include ordered doubles

/-- Every run of the service is one of the loop on the answers it was given, but
for a revalidation that has not returned. -/
theorem loop_of_service {happenings : List Happening} {service : Service}
    (ran : run (step crates bridge.refresher schedule) (start schedule bridge) happenings =
      some service) :
    ∃ ticks base,
      run (bridge.refresher.turn crates schedule) (bridge.state, schedule.start) ticks =
        some (base, service.timing) ∧
      ticks.map Refresher.Tick.answer <+: answers happenings ∧
      ∀ wakes, service.loop = .asleep wakes → service.system.state.uncounted = base ∧
        ticks.map Refresher.Tick.answer = answers happenings := by
  have coherent := coherent_of_run ordered doubles ran
  obtain ⟨ticks, base, returned, given, stands⟩ :=
    System.refresher_run_of_run started (system_run ran)
  exact ⟨ticks, base, Refresher.run_turn_of_returning returned coherent.timing, given,
    fun wakes sleeps => stands (coherent.asleep wakes sleeps)⟩

/-- Every run of the loop is one of the service, on the same answers. -/
theorem service_of_loop (laws : HeaderLaws crates) (ticks : List Refresher.Tick) :
    ∃ happenings service wakes,
      run (step crates bridge.refresher schedule) (start schedule bridge) happenings =
        some service ∧
      service.loop = .asleep wakes ∧ answers happenings = ticks.map Refresher.Tick.answer ∧
      run (bridge.refresher.turn crates schedule) (bridge.state, schedule.start) ticks =
        some (service.system.state.uncounted, service.timing) := by
  induction ticks using List.reverseRecOn with
  | nil =>
      refine ⟨[], _, _, rfl, rfl, rfl, ?_⟩
      rw [run_nil]
      exact congrArg (fun state => some (state, schedule.start)) (uncounted_of_start started).symm
  | append_singleton ticks tick ih =>
      obtain ⟨happenings, service, wakes, ran, sleeps, given, turned⟩ := ih
      have coherent := coherent_of_run ordered doubles ran
      have readable := readable_etag_of_run started laws (system_run ran)
      obtain ⟨more, next, later, ranMore, slept, givenMore, turn⟩ :=
        @exists_turned crates bridge.refresher schedule service ordered doubles laws coherent
          readable wakes sleeps tick
      refine ⟨happenings ++ more, next, later, run_append_eq_some.mpr ⟨service, ran, ranMore⟩,
        slept, ?_, run_snoc_eq_some.mpr ⟨_, turned, turn⟩⟩
      rw [answers_append, given, givenMore, List.map_append]
      rfl

/-- The service and the loop as it is written do the same: what either does on
some answers, the other does on them, with the same delays and, where the loop
sleeps, the same state but for what requests count. -/
theorem refines_loop (laws : HeaderLaws crates) :
    (∀ happenings service,
      run (step crates bridge.refresher schedule) (start schedule bridge) happenings =
          some service →
        ∃ ticks base,
          run (bridge.refresher.turn crates schedule) (bridge.state, schedule.start) ticks =
            some (base, service.timing) ∧
          ticks.map Refresher.Tick.answer <+: answers happenings ∧
          ∀ wakes, service.loop = .asleep wakes → service.system.state.uncounted = base ∧
            ticks.map Refresher.Tick.answer = answers happenings) ∧
    ∀ ticks, ∃ happenings service wakes,
      run (step crates bridge.refresher schedule) (start schedule bridge) happenings =
        some service ∧
      service.loop = .asleep wakes ∧ answers happenings = ticks.map Refresher.Tick.answer ∧
      run (bridge.refresher.turn crates schedule) (bridge.state, schedule.start) ticks =
        some (service.system.state.uncounted, service.timing) :=
  ⟨fun _ _ ran => loop_of_service started ordered doubles ran,
    service_of_loop started ordered doubles laws⟩

end Both

theorem refines_loop_deployed :
    ∃ happenings service wakes,
      run (step Reference.crates Reference.bridge.refresher Schedule.DEPLOYED)
          (start Schedule.DEPLOYED Reference.bridge) happenings = some service ∧
        service.loop = .asleep wakes ∧ answers happenings = [none] := by
  obtain ⟨happenings, service, wakes, ran, sleeps, given, _⟩ :=
    (@refines_loop Reference.crates Schedule.DEPLOYED Reference.bridge _
      Reference.start_settings (by decide) (by decide) Reference.headerLaws).2 [⟨none, 0⟩]
  exact ⟨happenings, service, wakes, ran, sleeps, given⟩

end Service

end LibidBridge
