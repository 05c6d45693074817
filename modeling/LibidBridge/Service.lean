import LibidBridge.Progress
import LibidBridge.RetrySchedule

/-!
# The running service

What a deployment does from its start to its end: the refresh loop sleeps,
revalidates and chooses its next delay while requests are answered, until the
loop is aborted.  Time passes on a clock that the loop's timers read.  When
requests arrive and when the loop is aborted is left open: the listener and the
runtime are not the service's own.
-/

namespace LibidBridge

/-- How long the request and its answer may take. -/
def REQUEST_TIMEOUT : Duration :=
  Duration.fromSecs 20

/-- Where the refresh loop stands: asleep until a time, within the revalidation
it began at a time, or ended. -/
inductive Loop
  | asleep (wakes : Nat)
  | revalidating (began : Nat)
  | ended
  deriving DecidableEq

/-- What is served and by whom, the durations the loop carries, where it stands,
and the time since the service started. -/
structure Service where
  system : System
  timing : Timing
  loop : Loop
  clock : Nat

/-- What happens next: time passes; the loop wakes, is given its answer or takes
its next step; a callback request arrives or takes its next step; the loop is
aborted. -/
inductive Happening
  | elapse (nanos : Nat)
  | wake
  | receive (answer : Answer)
  | proceed (now : Nat)
  | arrive (body : Body)
  | advance (index : Nat)
  | abort

/-- What of it the system within the service sees. -/
def Happening.events : Happening → List Event
  | .wake => [.begin]
  | .receive answer => [.receive answer]
  | .proceed now => [.proceed now]
  | .arrive body => [.arrive body]
  | .advance index => [.advance index]
  | .elapse _ | .abort => []

namespace Service

/-- The loop's first sleep takes no time. -/
def start (schedule : Schedule) (bridge : Bridge) : Service where
  system := System.start bridge
  timing := schedule.start
  loop := .asleep schedule.start.delay.nanos
  clock := 0

/-- What a step of a revalidation leads to: where it was the last one, the loop
sleeps for the delay its outcome leads to, and ends where doubling the backoff
panics. -/
def settled (schedule : Schedule) (service : Service) (system : System) : Service :=
  match system.refreshing, system.returned.getLast? with
  | .idle, some outcome =>
      match schedule.next service.timing outcome with
      | some timing =>
          { service with
            system := system
            timing := timing
            loop := .asleep (service.clock + timing.delay.nanos) }
      | none => { service with system := system, loop := .ended }
  | _, _ => { service with system := system }

variable (crates : Crates)

/-- One step of the service, where what happens can happen. -/
def step (refresher : Refresher) (schedule : Schedule) (service : Service) :
    Happening → Option Service
  | .elapse nanos => some { service with clock := service.clock + nanos }
  | .wake =>
      match service.loop with
      | .asleep wakes =>
          if wakes ≤ service.clock then
            (service.system.step crates refresher .begin).map fun system =>
              { service with system := system, loop := .revalidating service.clock }
          else none
      | _ => none
  | .receive answer =>
      match service.loop with
      | .revalidating began =>
          -- The budget of a retrieval ends it no earlier than it runs out.
          if answer = none ∧ service.clock < began + REQUEST_TIMEOUT.nanos then none
          else
            (service.system.step crates refresher (.receive answer)).map fun system =>
              { service with system := system }
      | _ => none
  | .proceed now =>
      match service.loop with
      | .revalidating _ =>
          (service.system.step crates refresher (.proceed now)).map (service.settled schedule)
      | _ => none
  | .arrive body =>
      (service.system.step crates refresher (.arrive body)).map fun system =>
        { service with system := system }
  | .advance index =>
      (service.system.step crates refresher (.advance index)).map fun system =>
        { service with system := system }
  | .abort => some { service with loop := .ended }

variable {crates}

/-- What each happening leads to, where it can happen. -/
inductive Steps (crates : Crates) (refresher : Refresher) (schedule : Schedule)
    (service : Service) : Happening → Service → Prop
  | elapse (nanos : Nat) :
      Steps crates refresher schedule service (.elapse nanos)
        { service with clock := service.clock + nanos }
  | wake (wakes : Nat) (asleep : service.loop = .asleep wakes) (due : wakes ≤ service.clock)
      (idle : service.system.refreshing = .idle) :
      Steps crates refresher schedule service .wake
        { service with
          system := { service.system with refreshing := .awaiting service.system.state.etag }
          loop := .revalidating service.clock }
  | receive (answer : Answer) (began : Nat) (etag : Option Text)
      (revalidating : service.loop = .revalidating began)
      (spent : answer = none → began + REQUEST_TIMEOUT.nanos ≤ service.clock)
      (awaiting : service.system.refreshing = .awaiting etag) :
      Steps crates refresher schedule service (.receive answer)
        { service with
          system := { service.system with
            refreshing := System.received crates refresher etag answer } }
  | proceed (now began : Nat) (system : System)
      (revalidating : service.loop = .revalidating began)
      (proceeds : System.proceed crates refresher service.system now = some system) :
      Steps crates refresher schedule service (.proceed now) (service.settled schedule system)
  | arrive (body : Body) :
      Steps crates refresher schedule service (.arrive body)
        { service with
          system := { service.system with
            handlers := service.system.handlers ++ [System.arrived body] } }
  | advance (index : Nat) (system : System)
      (advances : System.step crates refresher service.system (.advance index) = some system) :
      Steps crates refresher schedule service (.advance index) { service with system := system }
  | abort : Steps crates refresher schedule service .abort { service with loop := .ended }

variable {refresher : Refresher} {schedule : Schedule} {service next : Service}
variable {happening : Happening}

theorem steps_of_step
    (stepped : step crates refresher schedule service happening = some next) :
    Steps crates refresher schedule service happening next := by
  cases happening with
  | elapse nanos =>
      cases stepped
      exact .elapse nanos
  | wake =>
      simp only [step] at stepped
      split at stepped
      · next wakes asleep =>
          split_ifs at stepped with due
          obtain ⟨system, begins, rfl⟩ := Option.map_eq_some_iff.mp stepped
          cases System.steps_of_step begins with
          | begin idle => exact .wake wakes asleep due idle
      · cases stepped
  | receive answer =>
      simp only [step] at stepped
      split at stepped
      · next began revalidating =>
          split_ifs at stepped with early
          obtain ⟨system, receives, rfl⟩ := Option.map_eq_some_iff.mp stepped
          cases System.steps_of_step receives with
          | receive answer etag awaiting =>
              refine .receive answer began etag revalidating (fun none => ?_) awaiting
              by_contra before
              exact early ⟨none, Nat.lt_of_not_le before⟩
      · cases stepped
  | proceed now =>
      simp only [step] at stepped
      split at stepped
      · next began revalidating =>
          obtain ⟨system, proceeds, rfl⟩ := Option.map_eq_some_iff.mp stepped
          exact .proceed now began system revalidating proceeds
      · cases stepped
  | arrive body =>
      cases stepped
      exact .arrive body
  | advance index =>
      obtain ⟨system, advances, rfl⟩ := Option.map_eq_some_iff.mp stepped
      exact .advance index system advances
  | abort =>
      cases stepped
      exact .abort

@[simp]
theorem settled_system (system : System) :
    (service.settled schedule system).system = system := by
  unfold settled
  split
  · split <;> rfl
  · rfl

@[simp]
theorem settled_clock (system : System) :
    (service.settled schedule system).clock = service.clock := by
  unfold settled
  split
  · split <;> rfl
  · rfl

/-- What a step of a revalidation leads to: more of it, or the sleep after it. -/
theorem settled_cases {system : System} {now : Nat}
    (proceeds : System.proceed crates refresher service.system now = some system) :
    (system.refreshing.answered = true ∧ system.returned = service.system.returned ∧
      service.settled schedule system = { service with system := system }) ∨
    ∃ outcome, system.refreshing = .idle ∧
      system.returned = service.system.returned ++ [outcome] ∧
      service.settled schedule system =
        match schedule.next service.timing outcome with
        | some timing =>
            { service with
              system := system
              timing := timing
              loop := .asleep (service.clock + timing.delay.nanos) }
        | none => { service with system := system, loop := .ended } := by
  obtain ⟨_, ⟨answered, returned, _⟩ | ⟨idle, outcome, returned, _⟩⟩ :=
    System.finish_proceed proceeds
  · refine Or.inl ⟨answered, returned, ?_⟩
    unfold settled
    split
    · next idle _ =>
        rw [idle] at answered
        cases answered
    · rfl
  · refine Or.inr ⟨outcome, idle, returned, ?_⟩
    rw [settled, idle, returned, List.getLast?_concat]

/-- A service runs its system, and nothing the system does escapes it. -/
theorem system_step (stepped : step crates refresher schedule service happening = some next) :
    run (System.step crates refresher) service.system happening.events = some next.system := by
  cases steps_of_step stepped with
  | elapse nanos => rfl
  | wake wakes asleep due idle =>
      simp [Happening.events, System.step, idle]
  | receive answer began etag revalidating spent awaiting =>
      simp [Happening.events, System.step, awaiting]
  | proceed now began system revalidating proceeds =>
      simp [Happening.events, System.step, proceeds]
  | arrive body => rfl
  | advance index system advances => simp [Happening.events, advances]
  | abort => rfl

theorem system_run {bridge : Bridge} {happenings : List Happening}
    (ran : run (step crates bridge.refresher schedule) (start schedule bridge) happenings =
      some service) :
    run (System.step crates bridge.refresher) (System.start bridge)
      (happenings.flatMap Happening.events) = some service.system := by
  have matched : ∀ (service : Service) happening next system, service.system = system →
      step crates bridge.refresher schedule service happening = some next →
        ∃ after, run (System.step crates bridge.refresher) system happening.events =
          some after ∧ next.system = after :=
    fun _ _ _ _ same stepped => ⟨_, same ▸ system_step stepped, rfl⟩
  obtain ⟨system, followed, rfl⟩ := run_followed matched rfl ran
  rwa [followed_eq_flatMap ran] at followed

/-- Where the loop stands against the revalidation within: none is under way
while it sleeps, and one is since it woke.  The timing it carries is the one its
outcomes lead to. -/
structure Coherent (schedule : Schedule) (service : Service) : Prop where
  timing : run schedule.next schedule.start service.system.returned = some service.timing
  asleep : ∀ wakes, service.loop = .asleep wakes → service.system.refreshing = .idle
  revalidating : ∀ began, service.loop = .revalidating began →
    service.system.refreshing ≠ .idle ∧ began ≤ service.clock

section Coherence

variable (ordered : schedule.floor ≤ schedule.interval)
variable (doubles : 2 * schedule.interval.nanos < 2 ^ 64 * 1000000000)

include ordered doubles

/-- No outcome ends the loop. -/
theorem exists_next (coherent : service.Coherent schedule)
    (outcome : Except FetchError Bool) :
    ∃ timing, schedule.next service.timing outcome = some timing ∧
      run schedule.next schedule.start (service.system.returned ++ [outcome]) = some timing := by
  obtain ⟨timing, ran, _⟩ :=
    Schedule.exists_run_next ordered doubles (service.system.returned ++ [outcome])
  obtain ⟨before, ranBefore, nexts⟩ := run_snoc_eq_some.mp ran
  cases coherent.timing.symm.trans ranBefore
  exact ⟨timing, nexts, ran⟩

theorem coherent_step (coherent : service.Coherent schedule)
    (stepped : step crates refresher schedule service happening = some next) :
    next.Coherent schedule := by
  obtain ⟨timing, asleep, revalidating⟩ := coherent
  cases steps_of_step stepped with
  | elapse nanos =>
      refine ⟨timing, asleep, fun began within => ?_⟩
      obtain ⟨busy, past⟩ := revalidating began within
      exact ⟨busy, Nat.le_add_right_of_le past⟩
  | wake wakes slept due idle =>
      refine ⟨timing, nofun, ?_⟩
      rintro began ⟨⟩
      exact ⟨nofun, le_refl _⟩
  | receive answer began etag within spent awaiting =>
      have answered := @System.answered_received crates refresher etag answer
      refine ⟨timing, ?_, ?_⟩
      · intro wakes slept
        cases within.symm.trans slept
      · intro since again
        refine ⟨fun idle => ?_, (revalidating since again).2⟩
        dsimp only at idle
        rw [idle] at answered
        cases answered
  | proceed now began system within proceeds =>
      rcases @settled_cases crates refresher schedule _ _ _ proceeds with
        ⟨answered, returned, same⟩ | ⟨outcome, idle, returned, same⟩
      · rw [same]
        refine ⟨by rwa [returned], ?_, ?_⟩
        · intro wakes slept
          cases within.symm.trans slept
        · intro since again
          refine ⟨fun idle => ?_, (revalidating since again).2⟩
          rw [idle] at answered
          cases answered
      · obtain ⟨later, nexts, ran⟩ :=
          exists_next ordered doubles ⟨timing, asleep, revalidating⟩ outcome
        rw [same, nexts]
        exact ⟨by rwa [returned], fun _ _ => idle, nofun⟩
  | arrive body => exact ⟨timing, asleep, revalidating⟩
  | advance index system advances =>
      cases System.steps_of_step advances with
      | advance index handler state after present advanced =>
          exact ⟨timing, asleep, revalidating⟩
  | abort => exact ⟨timing, nofun, nofun⟩

theorem coherent_of_run {bridge : Bridge} {happenings : List Happening}
    (ran : run (step crates bridge.refresher schedule) (start schedule bridge) happenings =
      some service) :
    service.Coherent schedule := by
  apply run_invariant (fun _ _ _ coherent stepped =>
    coherent_step ordered doubles coherent stepped) _ ran
  exact ⟨rfl, fun _ _ => rfl, nofun⟩

end Coherence

end Service

end LibidBridge
