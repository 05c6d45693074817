import LibidBridge.Service
import LibidBridge.Spacing

/-!
# How often the Distribution is asked

Against the clock of the running service, and however requests are answered
meanwhile, each retrieval begins no sooner than the schedule's delay after the
one before it returned.  No span of time holds more retrievals than the
schedule's floor fits into it, and one.
-/

namespace LibidBridge

variable {crates : Crates}

/-- The delay after an outcome that these came before. -/
def Schedule.pause (schedule : Schedule) (before : List (Except FetchError Bool)) :
    Except FetchError Bool → Nat
  | .ok _ => schedule.interval.nanos
  | .error _ => schedule.retry (streak before)

theorem Schedule.After.delay_eq_pause {schedule : Schedule}
    {before : List (Except FetchError Bool)} {outcome : Except FetchError Bool}
    {timing : Timing} (after : schedule.After (before ++ [outcome]) timing) :
    timing.delay.nanos = schedule.pause before outcome := by
  cases outcome with
  | ok replaced => rw [after.succeeded before replaced rfl, Schedule.pause]
  | error error => exact after.failed before error rfl

/-- A retrieval that returned: when it began and returned, and the delay after
it. -/
structure Retrieved where
  began : Nat
  ended : Nat
  delay : Nat

namespace Service

/-- The retrieval that a step of the service completes. -/
def completed (taken : Service × Happening × Service) : Option Retrieved :=
  match taken.1.loop, taken.2.2.loop with
  | .revalidating began, .asleep _ =>
      some ⟨began, taken.1.clock, taken.2.2.timing.delay.nanos⟩
  | _, _ => none

/-- When the retrieval begins that a step of the service begins. -/
def beginning (taken : Service × Happening × Service) : Option Nat :=
  match taken.2.1 with
  | .wake => some taken.1.clock
  | _ => none

section

variable (crates : Crates) (schedule : Schedule) (bridge : Bridge)
variable (happenings : List Happening)

/-- The retrievals of a run that returned, in order. -/
def retrievals : List Retrieved :=
  (transitions (step crates bridge.refresher schedule) (start schedule bridge)
    happenings).filterMap completed

/-- The times at which the retrievals of a run begin, in order. -/
def beginnings : List Nat :=
  (transitions (step crates bridge.refresher schedule) (start schedule bridge)
    happenings).filterMap beginning

end

variable {refresher : Refresher} {schedule : Schedule} {service next : Service}
variable {happening : Happening}

/-- No retrieval is completed where the loop stays where it is, or ends. -/
theorem completed_eq_none (stands : next.loop = service.loop ∨ next.loop = .ended) :
    completed (service, happening, next) = none := by
  unfold completed
  rcases stands with same | ended
  · dsimp only
    rw [same]
    cases service.loop <;> rfl
  · dsimp only
    rw [ended]
    cases service.loop <;> rfl

/-- None is completed by the step that wakes the loop. -/
theorem completed_of_asleep {wakes : Nat} (slept : service.loop = .asleep wakes) :
    completed (service, happening, next) = none := by
  unfold completed
  dsimp only
  rw [slept]

section Steps

variable (ordered : schedule.floor ≤ schedule.interval)
variable (doubles : 2 * schedule.interval.nanos < 2 ^ 64 * 1000000000)

include ordered doubles

/-- What a step does to the loop: leave it, wake it, end it, or put it to sleep
after the retrieval it completes. -/
theorem loop_step (coherent : service.Coherent schedule)
    (stepped : step crates refresher schedule service happening = some next) :
    (completed (service, happening, next) = none ∧
      next.system.returned = service.system.returned ∧
      ((beginning (service, happening, next) = none ∧
          (next.loop = service.loop ∨ next.loop = .ended)) ∨
        ∃ wakes, service.loop = .asleep wakes ∧ wakes ≤ service.clock ∧
          beginning (service, happening, next) = some service.clock ∧
          next.loop = .revalidating service.clock)) ∨
    ∃ (began : Nat) (outcome : Except FetchError Bool) (timing : Timing),
      service.loop = .revalidating began ∧ began ≤ service.clock ∧
      next.system.returned = service.system.returned ++ [outcome] ∧
      timing.delay.nanos = schedule.pause service.system.returned outcome ∧
      next.loop = .asleep (service.clock + timing.delay.nanos) ∧
      beginning (service, happening, next) = none ∧
      completed (service, happening, next) =
        some ⟨began, service.clock, timing.delay.nanos⟩ := by
  cases steps_of_step stepped with
  | elapse nanos =>
      exact Or.inl ⟨completed_eq_none (Or.inl rfl), rfl, Or.inl ⟨rfl, Or.inl rfl⟩⟩
  | wake wakes slept due idle =>
      exact Or.inl ⟨completed_of_asleep slept, rfl, Or.inr ⟨wakes, slept, due, rfl, rfl⟩⟩
  | receive answer began etag within spent awaiting =>
      exact Or.inl ⟨completed_eq_none (Or.inl rfl), rfl, Or.inl ⟨rfl, Or.inl rfl⟩⟩
  | proceed now began system within proceeds =>
      rcases @settled_cases crates refresher schedule _ _ _ proceeds with
        ⟨answered, returned, same⟩ | ⟨outcome, idle, returned, same⟩
      · rw [same]
        exact Or.inl ⟨completed_eq_none (Or.inl rfl), returned, Or.inl ⟨rfl, Or.inl rfl⟩⟩
      · obtain ⟨timing, nexts, ran⟩ := exists_next ordered doubles coherent outcome
        obtain ⟨other, ranOther, after⟩ :=
          Schedule.exists_run_next ordered doubles (service.system.returned ++ [outcome])
        cases ran.symm.trans ranOther
        rw [same, nexts]
        refine Or.inr ⟨began, outcome, timing, within, (coherent.revalidating began within).2,
          returned, after.delay_eq_pause, rfl, rfl, ?_⟩
        unfold completed
        dsimp only
        rw [within]
  | arrive body =>
      exact Or.inl ⟨completed_eq_none (Or.inl rfl), rfl, Or.inl ⟨rfl, Or.inl rfl⟩⟩
  | advance index system advances =>
      cases System.steps_of_step advances with
      | advance index handler state after present advanced =>
          exact Or.inl ⟨completed_eq_none (Or.inl rfl), rfl, Or.inl ⟨rfl, Or.inl rfl⟩⟩
  | abort =>
      exact Or.inl ⟨completed_eq_none (Or.inr rfl), rfl, Or.inl ⟨rfl, Or.inr rfl⟩⟩

end Steps

/-- The retrievals that returned, each begun no sooner than the delay of the one
before it allowed; and when the next one may begin, or began. -/
structure Paced (schedule : Schedule) (service : Service) (records : List Retrieved) :
    Prop where
  chain : records.IsChain fun first second => first.ended + first.delay ≤ second.began
  within : ∀ record ∈ records, record.began ≤ record.ended
  length : records.length = service.system.returned.length
  delays : ∀ (index : Nat) record outcome, records[index]? = some record →
    service.system.returned[index]? = some outcome →
      record.delay = schedule.pause (service.system.returned.take index) outcome
  asleep : ∀ wakes, service.loop = .asleep wakes → ∀ record ∈ records.getLast?,
    record.ended + record.delay ≤ wakes
  revalidating : ∀ began, service.loop = .revalidating began → ∀ record ∈ records.getLast?,
    record.ended + record.delay ≤ began

theorem Paced.unfinished {records : List Retrieved} (paced : Paced schedule service records)
    (returned : next.system.returned = service.system.returned)
    (loop : (next.loop = service.loop ∨ next.loop = .ended) ∨
      ∃ wakes, service.loop = .asleep wakes ∧ wakes ≤ service.clock ∧
        next.loop = .revalidating service.clock) : Paced schedule next records := by
  obtain ⟨chain, within, length, delays, asleep, revalidating⟩ := paced
  refine ⟨chain, within, by rw [length, returned], by rwa [returned], ?_, ?_⟩
  · intro wakes slept record last
    rcases loop with (same | ended) | ⟨_, _, _, woken⟩
    · exact asleep wakes (same ▸ slept) record last
    · cases ended.symm.trans slept
    · cases woken.symm.trans slept
  · intro began busy record last
    rcases loop with (same | ended) | ⟨wakes, slept, due, woken⟩
    · exact revalidating began (same ▸ busy) record last
    · cases ended.symm.trans busy
    · cases woken.symm.trans busy
      exact (asleep wakes slept record last).trans due

theorem Paced.finished {records : List Retrieved} (paced : Paced schedule service records)
    {began : Nat} {outcome : Except FetchError Bool} {delay : Nat}
    (busy : service.loop = .revalidating began) (past : began ≤ service.clock)
    (returned : next.system.returned = service.system.returned ++ [outcome])
    (pause : delay = schedule.pause service.system.returned outcome)
    (sleeps : next.loop = .asleep (service.clock + delay)) :
    Paced schedule next (records ++ [⟨began, service.clock, delay⟩]) := by
  obtain ⟨chain, within, length, delays, asleep, revalidating⟩ := paced
  constructor
  · rw [List.isChain_append]
    refine ⟨chain, List.IsChain.singleton _, ?_⟩
    intro record last other head
    cases head
    exact revalidating began busy record last
  · intro record member
    rcases List.mem_append.mp member with before | now
    · exact within record before
    · rw [List.mem_singleton.mp now]
      exact past
  · simp [length, returned]
  · intro index record found present ended
    rw [returned] at ended ⊢
    rw [List.getElem?_append] at present ended
    rw [length] at present
    split_ifs at present ended with earlier
    · rw [List.take_append_of_le_length earlier.le]
      exact delays index record found present ended
    · have last : index = service.system.returned.length := by
        have inside := List.getElem?_eq_some_iff.mp ended
        obtain ⟨inside, _⟩ := inside
        simp only [List.length_singleton] at inside
        omega
      subst last
      simp only [Nat.sub_self, List.getElem?_cons_zero, Option.some.injEq] at present ended
      subst present ended
      rw [List.take_left]
      exact pause
  · intro wakes slept record last
    cases sleeps.symm.trans slept
    rw [List.getLast?_concat] at last
    cases last
    exact le_refl _
  · intro since again
    cases sleeps.symm.trans again

/-- The beginnings of a run are kept apart by the floor, and so is the next
one. -/
structure Limited (schedule : Schedule) (service : Service) (begun : List Nat) : Prop where
  chain : begun.IsChain fun first second => first + schedule.floor.nanos ≤ second
  asleep : ∀ wakes, service.loop = .asleep wakes → ∀ last ∈ begun.getLast?,
    last + schedule.floor.nanos ≤ wakes
  revalidating : ∀ began, service.loop = .revalidating began → begun.getLast? = some began

section Runs

variable (ordered : schedule.floor ≤ schedule.interval)
variable (doubles : 2 * schedule.interval.nanos < 2 ^ 64 * 1000000000)

include ordered

theorem floor_le_pause (before : List (Except FetchError Bool))
    (outcome : Except FetchError Bool) :
    schedule.floor.nanos ≤ schedule.pause before outcome := by
  cases outcome with
  | ok replaced => exact ordered
  | error error => exact first_le_cappedDoubling ordered _

include doubles

variable {bridge : Bridge} {happenings : List Happening}
variable (ran : run (step crates bridge.refresher schedule) (start schedule bridge) happenings =
  some service)

include ran

theorem paced_of_run :
    Paced schedule service (retrievals crates schedule bridge happenings) := by
  apply run_history _ _ ran
  · exact ⟨List.IsChain.nil, nofun, rfl, nofun, nofun, nofun⟩
  · intro happenings middle happening next before paced stepped
    have coherent := coherent_of_run ordered doubles before
    rw [retrievals, transitions_snoc before stepped, List.filterMap_append]
    rcases loop_step ordered doubles coherent stepped with
      ⟨none, returned, loop⟩ | ⟨_, _, _, busy, past, returned, pause, sleeps, _, completes⟩
    · rw [List.filterMap_cons, none, List.filterMap_nil, List.append_nil]
      apply paced.unfinished returned
      rcases loop with ⟨_, same⟩ | ⟨wakes, slept, due, _, woken⟩
      · exact Or.inl same
      · exact Or.inr ⟨wakes, slept, due, woken⟩
    · rw [List.filterMap_cons, completes, List.filterMap_nil]
      exact paced.finished busy past returned pause sleeps

theorem limited_of_run :
    Limited schedule service (beginnings crates schedule bridge happenings) := by
  apply run_history _ _ ran
  · exact ⟨List.IsChain.nil, nofun, nofun⟩
  · intro happenings middle happening next before limited stepped
    have coherent := coherent_of_run ordered doubles before
    obtain ⟨chain, asleep, revalidating⟩ := limited
    rw [beginnings, transitions_snoc before stepped, List.filterMap_append]
    rcases loop_step ordered doubles coherent stepped with
      ⟨_, _, ⟨none, same | ended⟩ | ⟨wakes, slept, due, begins, woken⟩⟩ |
        ⟨_, outcome, _, busy, past, _, pause, sleeps, none, _⟩
    · rw [List.filterMap_cons, none, List.filterMap_nil, List.append_nil]
      exact ⟨chain, same ▸ asleep, same ▸ revalidating⟩
    · rw [List.filterMap_cons, none, List.filterMap_nil, List.append_nil]
      exact ⟨chain, by simp [ended], by simp [ended]⟩
    · rw [List.filterMap_cons, begins, List.filterMap_nil]
      refine ⟨?_, by simp [woken], ?_⟩
      · rw [List.isChain_append]
        refine ⟨chain, List.IsChain.singleton _, ?_⟩
        intro last member other head
        cases head
        exact (asleep wakes slept last member).trans due
      · intro began busy
        cases woken.symm.trans busy
        exact List.getLast?_concat
    · rw [List.filterMap_cons, none, List.filterMap_nil, List.append_nil]
      refine ⟨chain, ?_, by simp [sleeps]⟩
      intro wakes slept last member
      cases sleeps.symm.trans slept
      cases (revalidating _ busy).symm.trans member
      have waits := floor_le_pause ordered middle.system.returned outcome
      omega

/-- However requests are answered meanwhile, the retrievals of a running service
come one after the other, each no sooner after the one before it returned than
the schedule says of its outcome: the interval after a success, and after a
failure the floor doubled once for each failure of the streak before it, up to
the interval.  Where the floor takes any time at all, a span of time holds at
most one more beginning than the floor fits into it. -/
theorem retrievals_paced :
    (retrievals crates schedule bridge happenings).length = service.system.returned.length ∧
    (∀ record ∈ retrievals crates schedule bridge happenings, record.began ≤ record.ended) ∧
    (retrievals crates schedule bridge happenings).IsChain
      (fun first second => first.ended + first.delay ≤ second.began) ∧
    (∀ (index : Nat) record, (retrievals crates schedule bridge happenings)[index]? = some record →
      (∀ replaced, service.system.returned[index]? = some (.ok replaced) →
        record.delay = schedule.interval.nanos) ∧
      ∀ error, service.system.returned[index]? = some (.error error) →
        record.delay = min schedule.interval.nanos
          (schedule.floor.nanos * 2 ^ streak (service.system.returned.take index))) ∧
    (0 < schedule.floor.nanos → ∀ first span,
      ((beginnings crates schedule bridge happenings).filter fun time =>
        first ≤ time ∧ time ≤ first + span).length ≤ span / schedule.floor.nanos + 1) := by
  have paced := paced_of_run ordered doubles ran
  have limited := limited_of_run ordered doubles ran
  refine ⟨paced.length, paced.within, paced.chain, ?_, ?_⟩
  · intro index record found
    exact ⟨fun replaced ended => paced.delays index record _ found ended,
      fun error ended => paced.delays index record _ found ended⟩
  · intro positive first span
    exact (Spaced.of_isChain limited.chain).length_filter_le positive first span

end Runs

/-- A retrieval that times out, and the next one, begun a second later. -/
theorem retrievals_paced_timeout :
    ∃ service, run (step Reference.crates Reference.bridge.refresher Schedule.DEPLOYED)
        (start Schedule.DEPLOYED Reference.bridge)
        [.wake, .elapse 20000000000, .receive none, .proceed 0, .proceed 0, .proceed 0,
          .elapse 1000000000, .wake] = some service ∧
      ((beginnings Reference.crates Schedule.DEPLOYED Reference.bridge
        [.wake, .elapse 20000000000, .receive none, .proceed 0, .proceed 0, .proceed 0,
          .elapse 1000000000, .wake]).filter fun time => 0 ≤ time ∧ time ≤ 0 + 60000000000).length ≤
            60000000000 / Schedule.DEPLOYED.floor.nanos + 1 := by
  have ran : (run (step Reference.crates Reference.bridge.refresher Schedule.DEPLOYED)
      (start Schedule.DEPLOYED Reference.bridge)
      [.wake, .elapse 20000000000, .receive none, .proceed 0, .proceed 0, .proceed 0,
        .elapse 1000000000, .wake]).isSome := by decide +kernel
  obtain ⟨service, ran⟩ := Option.isSome_iff_exists.mp ran
  exact ⟨service, ran, (retrievals_paced (by decide) (by decide) ran).2.2.2.2 (by decide) 0
    60000000000⟩

end Service

end LibidBridge
