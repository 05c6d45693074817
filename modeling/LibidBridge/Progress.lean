import LibidBridge.Linearization

/-!
# No task waits for another

Nothing that is shared is locked across a step, so in every state the system
reaches each task can take its next step whatever the others do: the refresher
begins, is given any answer, or goes on, and every request that is not answered
advances.  Each has few steps to take: a request three, and the refresher six
for each answer it is given.
-/

namespace LibidBridge

variable {crates : Crates}

theorem Published.ComposedFrom.readable_etag (laws : HeaderLaws crates)
    {inputs : DeploymentInputs} {arrival : Arrival} {published : Published}
    (composed : published.ComposedFrom crates inputs arrival) :
    ∀ text, published.etag = some text → ∀ letter ∈ text, IsReadable letter := by
  intro text carried
  rw [composed.etag] at carried
  obtain ⟨value, _, read⟩ := Option.bind_eq_some_iff.mp carried
  exact (laws.bytes_of_toStr read).2

namespace System

variable {refresher : Refresher} {system next : System}

/-- The refresher's task lives, and the validator it awaits an answer under is
one that a request can carry. -/
def Lives (system : System) : Prop :=
  system.refreshing ≠ .panicked ∧ ∀ etag, system.refreshing = .awaiting etag →
    ∀ text, etag = some text → ∀ letter ∈ text, IsReadable letter

theorem lives_received (laws : HeaderLaws crates) {etag : Option Text}
    (readable : ∀ text, etag = some text → ∀ letter ∈ text, IsReadable letter)
    (answer : Answer) :
    received crates refresher etag answer ≠ .panicked ∧
      ∀ other, received crates refresher etag answer ≠ .awaiting other := by
  have built : (refresher.upstream.request crates etag).isSome := by
    rw [Upstream.request_eq laws _ readable]
    rfl
  obtain ⟨outcome, retrieved⟩ :=
    Upstream.exists_retrieve built refresher.allowedOrigins answer
  rcases outcome with error | _ | published <;> simp [received, retrieved]

theorem lives_proceed {now : Nat} (proceeds : proceed crates refresher system now = some next) :
    next.Lives := by
  obtain ⟨state, refreshing, returned, handlers⟩ := system
  cases refreshing with
  | comparing published =>
      cases proceeds
      unfold Lives
      dsimp only
      split_ifs <;> simp
  | idle | awaiting | panicked => cases proceeds
  | _ =>
      cases proceeds
      simp [Lives]

theorem lives_step (laws : HeaderLaws crates) {inputs : DeploymentInputs}
    {events : List Event} (received : AllReceived crates inputs events system)
    (lives : system.Lives) {event : Event}
    (stepped : step crates refresher system event = some next) : next.Lives := by
  cases steps_of_step stepped with
  | begin idle =>
      refine ⟨nofun, ?_⟩
      rintro _ ⟨⟩ text carried
      obtain ⟨published, served, etag⟩ := Option.bind_eq_some_iff.mp carried
      obtain ⟨arrival, _, composed⟩ := received.1 published served
      exact composed.readable_etag laws text etag
  | receive answer etag awaiting =>
      obtain ⟨alive, done⟩ :=
        @lives_received crates refresher laws etag (lives.2 etag awaiting) answer
      exact ⟨alive, fun other same => absurd same (done other)⟩
  | proceed now next proceeds => exact lives_proceed proceeds
  | arrive body => exact lives
  | advance index handler state after present advances => exact lives

theorem lives_of_run (laws : HeaderLaws crates) {settings : Settings} {bridge : Bridge}
    (started : Bridge.start crates settings = .ok bridge) {events : List Event}
    (ran : run (step crates bridge.refresher) (start bridge) events = some system) :
    system.Lives := by
  have empty := Bridge.callback_of_start started
  apply run_history _ _ ran
  · exact ⟨nofun, nofun⟩
  · intro events middle event next before lives stepped
    exact lives_step laws (allReceived_of_run laws empty before) lives stepped

end System

/-- The steps a request has left, at most. -/
def Handler.left : Handler → Nat
  | .reading => 3
  | .counting none => 2
  | .counting (some _) => 1
  | .explaining => 1
  | .answered _ => 0

/-- The steps a revalidation that has its answer has left, at most. -/
def Refreshing.left : Refreshing → Nat
  | .comparing _ => 6
  | .replacing _ => 5
  | .clearing => 4
  | .countingPublished => 3
  | .settingAvailable => 2
  | .settingPublishedAt => 1
  | .countingUnchanged => 1
  | .countingFailed _ => 3
  | .countingKind _ => 2
  | .recording _ => 1
  | .idle | .awaiting _ | .panicked => 0

namespace Event

def advances (index : Nat) : Event → Bool
  | .advance other => other = index
  | _ => false

def proceeds : Event → Bool
  | .proceed _ => true
  | _ => false

def receives : Event → Bool
  | .receive _ => true
  | _ => false

end Event

namespace System

variable {refresher : Refresher} {system next final : System} {events : List Event}

theorem left_advance {state after : AppState} {handler next : Handler}
    (advances : advance state handler = some (after, next)) : next.left < handler.left := by
  rcases handler with _ | (_ | published) | _ | response
  · cases advances
    cases state.callback <;> simp [Handler.left]
  · cases advances
    simp [Handler.left]
  · cases advances
    simp [Handler.left]
  · cases advances
    simp [Handler.left]
  · cases advances

theorem left_arrived (body : Body) : (arrived body).left ≤ 3 := by
  unfold arrived
  split_ifs <;> simp [Handler.left]

theorem left_proceed {now : Nat}
    (proceeds : proceed crates refresher system now = some next) :
    next.refreshing.left < system.refreshing.left := by
  obtain ⟨state, refreshing, returned, handlers⟩ := system
  cases refreshing with
  | comparing published =>
      cases proceeds
      dsimp only
      split_ifs <;> simp [Refreshing.left]
  | idle | awaiting | panicked => cases proceeds
  | _ =>
      cases proceeds
      simp [Refreshing.left]

theorem left_received (etag : Option Text) (answer : Answer) :
    (received crates refresher etag answer).left ≤ 6 := by
  unfold received
  split <;> simp [Refreshing.left]

/-- The steps a request has left, where it has arrived, or will have. -/
def left (system : System) (index : Nat) : Nat :=
  (system.handlers[index]?.map Handler.left).getD 3

theorem left_eq_of_handlers_eq {index : Nat} (same : next.handlers = system.handlers) :
    next.left index = system.left index := by
  rw [left, same, left]

/-- A step of a request is one fewer left, and no other step adds to them. -/
theorem left_step (index : Nat) {event : Event}
    (stepped : step crates refresher system event = some next) :
    [event].countP (Event.advances index) + next.left index ≤ system.left index := by
  cases steps_of_step stepped with
  | begin idle => simp [Event.advances, left]
  | receive answer etag awaiting => simp [Event.advances, left]
  | proceed now next proceeds =>
      rw [left_eq_of_handlers_eq (handlers_proceed proceeds)]
      simp [Event.advances]
  | arrive body =>
      have bounded := left_arrived body
      simp only [left, List.countP_singleton, Event.advances, Bool.false_eq_true, if_false,
        Nat.zero_add, List.getElem?_append]
      split_ifs with inside
      · exact le_refl _
      · rw [List.getElem?_eq_none (Nat.le_of_not_lt inside)]
        cases joined : [arrived body][index - system.handlers.length]? with
        | none => simp
        | some handler =>
            rw [List.mem_singleton.mp (List.mem_of_getElem? joined)]
            simpa using bounded
  | advance changed handler state after present advances =>
      have fewer := left_advance advances
      obtain ⟨inside, _⟩ := List.getElem?_eq_some_iff.mp present
      by_cases same : changed = index
      · subst same
        simp only [left, present, List.countP_singleton, Event.advances, decide_true, if_true,
          List.getElem?_set_self inside, Option.map_some, Option.getD_some]
        omega
      · simp [left, Event.advances, same, List.getElem?_set_ne same]

/-- However long a run, a request takes three steps at most. -/
theorem advances_of_run {index : Nat}
    (ran : run (step crates refresher) system events = some final) :
    events.countP (Event.advances index) + final.left index ≤ system.left index := by
  apply run_history _ _ ran
  · simp
  · intro events middle event next before taken stepped
    have fewer := left_step index stepped
    rw [List.countP_append]
    omega

/-- Only an answer gives the refresher steps to take. -/
theorem refreshing_left_step {event : Event}
    (stepped : step crates refresher system event = some next) :
    [event].countP Event.proceeds + next.refreshing.left ≤
      6 * [event].countP Event.receives + system.refreshing.left := by
  cases steps_of_step stepped with
  | begin idle => simp [Event.proceeds, Refreshing.left]
  | receive answer etag awaiting =>
      have bounded := @left_received crates refresher etag answer
      simp only [List.countP_singleton, Event.proceeds, Event.receives, Bool.false_eq_true,
        if_false, if_true]
      omega
  | proceed now next proceeds =>
      have fewer := left_proceed proceeds
      simp only [List.countP_singleton, Event.proceeds, Event.receives, Bool.false_eq_true,
        if_false, if_true]
      omega
  | arrive body => simp [Event.proceeds]
  | advance changed handler state after present advances => simp [Event.proceeds]

/-- The refresher takes six steps at most for each answer it is given. -/
theorem proceeds_of_run (ran : run (step crates refresher) system events = some final) :
    events.countP Event.proceeds + final.refreshing.left ≤
      6 * events.countP Event.receives + system.refreshing.left := by
  apply run_history _ _ ran
  · simp
  · intro events middle event next before taken stepped
    have given := refreshing_left_step stepped
    rw [List.countP_append, List.countP_append]
    omega

theorem isSome_advance (state : AppState) {handler : Handler}
    (unanswered : ∀ response, handler ≠ .answered response) :
    (advance state handler).isSome := by
  rcases handler with _ | (_ | published) | _ | response
  · rfl
  · rfl
  · rfl
  · rfl
  · exact absurd rfl (unanswered response)

theorem isSome_proceed (refresher : Refresher) (now : Nat)
    (answered : system.refreshing.answered = true) (lives : system.refreshing ≠ .panicked) :
    (proceed crates refresher system now).isSome := by
  obtain ⟨state, refreshing, returned, handlers⟩ := system
  cases refreshing with
  | idle | awaiting => cases answered
  | panicked => exact absurd rfl lives
  | _ => rfl

/-- In every state the system reaches, each task can take its next step: the
refresher begins where it is idle, takes any answer it awaits, and otherwise
goes on at any time, and every request that is not answered advances.  A
request takes three steps at most, and the refresher six for each answer. -/
theorem never_blocked (laws : HeaderLaws crates) {settings : Settings} {bridge : Bridge}
    (started : Bridge.start crates settings = .ok bridge)
    (ran : run (step crates bridge.refresher) (start bridge) events = some system) :
    (system.refreshing = .idle →
      (step crates bridge.refresher system .begin).isSome) ∧
    (∀ etag, system.refreshing = .awaiting etag → ∀ answer,
      (step crates bridge.refresher system (.receive answer)).isSome) ∧
    (system.refreshing.answered = true → ∀ now,
      (step crates bridge.refresher system (.proceed now)).isSome) ∧
    (∀ (index : Nat) handler, system.handlers[index]? = some handler →
      (∃ response, handler = .answered response) ∨
        (step crates bridge.refresher system (.advance index)).isSome) ∧
    (∀ index, events.countP (Event.advances index) ≤ 3) ∧
    events.countP Event.proceeds ≤ 6 * events.countP Event.receives := by
  have lives := lives_of_run laws started ran
  refine ⟨?_, ?_, ?_, ?_, ?_, ?_⟩
  · intro idle
    simp [step, idle]
  · intro etag awaiting answer
    simp [step, awaiting]
  · intro answered now
    exact isSome_proceed bridge.refresher now answered lives.1
  · intro index handler present
    by_cases answered : ∃ response, handler = .answered response
    · exact Or.inl answered
    · right
      rw [step, present, Option.isSome_map]
      exact isSome_advance system.state (not_exists.mp answered)
  · intro index
    have taken : events.countP (Event.advances index) + system.left index ≤
        (start bridge).left index := advances_of_run ran
    have whole : (start bridge).left index = 3 := rfl
    omega
  · have taken := proceeds_of_run ran
    have none : (start bridge).refreshing.left = 0 := rfl
    omega

theorem never_blocked_first :
    ∃ system, run (step Reference.crates Reference.bridge.refresher) (start Reference.bridge)
        [.arrive ⟨true⟩, .begin] = some system ∧
      (step Reference.crates Reference.bridge.refresher system (.advance 0)).isSome := by
  have ran : run (step Reference.crates Reference.bridge.refresher) (start Reference.bridge)
      [.arrive ⟨true⟩, .begin] = some _ := rfl
  have advances := (never_blocked Reference.headerLaws Reference.start_settings ran).2.2.2.1
  rcases advances 0 .reading rfl with ⟨_, answered⟩ | enabled
  · cases answered
  · exact ⟨_, ran, enabled⟩

end System

end LibidBridge
