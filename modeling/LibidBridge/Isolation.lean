import LibidBridge.Linearization

/-!
# Each request in isolation

A request shares nothing with another that either could notice.  The steps of
every other request can be taken out of a run, and what is left is a run in
which the request is answered the same, and in which the refresher does, sends
and returns the same.
-/

namespace LibidBridge

variable {crates : Crates}

/-- The events of a run without those of every request but one, which is the
only one to arrive then; `seen` requests have arrived before. -/
def Event.isolate (index : Nat) : Nat → List Event → List Event
  | _, [] => []
  | seen, .arrive body :: events =>
      if seen = index then .arrive body :: isolate index (seen + 1) events
      else isolate index (seen + 1) events
  | seen, .advance other :: events =>
      if other = index then .advance 0 :: isolate index seen events
      else isolate index seen events
  | seen, event :: events => event :: isolate index seen events

/-- The state with what callback requests have counted replaced. -/
def AppState.recounted (state : AppState) (callbacks : Family) : AppState :=
  { state with metrics := { state.metrics with callbacks := callbacks } }

namespace System

/-- What is left of a system when every request but one is taken out. -/
def Isolated (index : Nat) (system alone : System) : Prop :=
  ∃ callbacks, alone = ⟨system.state.recounted callbacks, system.refreshing, system.returned,
    system.handlers[index]?.toList⟩

/-- What an event stands for where every request but one is taken out. -/
def isolated (index : Nat) (system : System) : Event → List Event
  | .arrive body => if system.handlers.length = index then [.arrive body] else []
  | .advance other => if other = index then [.advance 0] else []
  | event => [event]

variable {refresher : Refresher} {system next : System} {index : Nat}

/-- The refresher does not notice what the requests count, nor the requests. -/
theorem proceed_recounted (refresher : Refresher) (state : AppState) (refreshing : Refreshing)
    (returned : List (Except FetchError Bool)) (handlers others : List Handler)
    (callbacks : Family) (now : Nat) :
    proceed crates refresher ⟨state.recounted callbacks, refreshing, returned, others⟩ now =
      (proceed crates refresher ⟨state, refreshing, returned, handlers⟩ now).map fun next =>
        ⟨next.state.recounted callbacks, next.refreshing, next.returned, others⟩ := by
  cases refreshing <;> rfl

/-- A request reads nothing that another counts. -/
theorem advance_recounted {state after : AppState} {handler next : Handler}
    (advances : advance state handler = some (after, next)) (callbacks : Family) :
    ∃ counted, advance (state.recounted callbacks) handler =
      some (after.recounted counted, next) := by
  rcases handler with _ | (_ | published) | _ | response <;> cases advances
  · exact ⟨callbacks, rfl⟩
  · exact ⟨_, rfl⟩
  · exact ⟨_, rfl⟩
  · exact ⟨callbacks, rfl⟩

theorem recounted_advance {state after : AppState} {handler next : Handler}
    (advances : advance state handler = some (after, next)) (callbacks : Family) :
    after.recounted callbacks = state.recounted callbacks := by
  rcases handler with _ | (_ | published) | _ | response <;> cases advances <;> rfl

/-- Every step is matched by what it stands for in isolation. -/
theorem isolated_step {alone : System} {event : Event} (holds : Isolated index system alone)
    (stepped : step crates refresher system event = some next) :
    ∃ after, run (step crates refresher) alone (isolated index system event) = some after ∧
      Isolated index next after := by
  obtain ⟨callbacks, rfl⟩ := holds
  cases steps_of_step stepped with
  | begin idle =>
      refine ⟨_, ?_, callbacks, rfl⟩
      simp only [isolated, run_cons, run_nil, step, idle, Option.bind_some]
      rfl
  | receive answer etag awaiting =>
      refine ⟨_, ?_, callbacks, rfl⟩
      simp only [isolated, run_cons, run_nil, step, awaiting, Option.bind_some]
  | proceed now next proceeds =>
      refine ⟨_, ?_, callbacks, rfl⟩
      have matched := @proceed_recounted crates refresher system.state
        system.refreshing system.returned system.handlers system.handlers[index]?.toList
        callbacks now
      simp only [isolated, run_cons, run_nil, step, matched, proceeds, Option.map_some,
        Option.bind_some, handlers_proceed proceeds]
  | arrive body =>
      by_cases same : system.handlers.length = index
      · subst same
        refine ⟨_, ?_, callbacks, rfl⟩
        simp [isolated, step]
      · refine ⟨_, by rw [isolated, if_neg same, run_nil], callbacks, ?_⟩
        have kept : (system.handlers ++ [arrived body])[index]? = system.handlers[index]? := by
          rw [List.getElem?_append]
          split_ifs with inside
          · rfl
          · rw [List.getElem?_eq_none (Nat.le_of_not_lt inside), List.getElem?_eq_none]
            simp only [List.length_singleton]
            omega
        simp only [kept]
  | advance changed handler state after present advances =>
      obtain ⟨inside, _⟩ := List.getElem?_eq_some_iff.mp present
      by_cases same : changed = index
      · subst same
        obtain ⟨counted, alone⟩ := advance_recounted advances callbacks
        refine ⟨_, ?_, counted, rfl⟩
        simp [isolated, step, present, alone, List.getElem?_set_self inside]
      · refine ⟨_, by rw [isolated, if_neg same, run_nil], callbacks, ?_⟩
        simp only [List.getElem?_set_ne same, recounted_advance advances]

theorem length_handlers_step {event : Event}
    (stepped : step crates refresher system event = some next) :
    next.handlers.length =
      system.handlers.length + match event with
        | .arrive _ => 1
        | _ => 0 := by
  cases steps_of_step stepped with
  | begin idle => rfl
  | receive answer etag awaiting => rfl
  | proceed now next proceeds =>
      rw [handlers_proceed proceeds]
      rfl
  | arrive body => simp
  | advance changed handler state after present advances => simp

theorem followed_isolated {final : System} {events : List Event}
    (ran : run (step crates refresher) system events = some final) :
    followed (step crates refresher) (isolated index) system events =
      Event.isolate index system.handlers.length events := by
  induction events generalizing system with
  | nil => rfl
  | cons event events ih =>
      obtain ⟨next, stepped, rest⟩ := Option.bind_eq_some_iff.mp ran
      have counted := length_handlers_step stepped
      rw [followed, transitions_cons stepped, List.flatMap_cons]
      have followedRest := ih rest
      rw [followed] at followedRest
      rw [followedRest, counted]
      cases event with
      | begin => rfl
      | receive answer => rfl
      | proceed now => rfl
      | arrive body =>
          simp only [isolated, Event.isolate]
          split_ifs <;> rfl
      | advance other =>
          simp only [isolated, Event.isolate]
          split_ifs <;> rfl

/-- With every other request taken out of a run, the one that is left is
answered the same, the refresher stands where it stood, every revalidation has
returned what it returned, and the state is the same but for what the requests
count.  Where no request is left, none had any part in what the refresher did. -/
theorem isolated_of_run {bridge : Bridge} {events : List Event} {final : System}
    (ran : run (step crates bridge.refresher) (start bridge) events = some final)
    (index : Nat) :
    ∃ alone, run (step crates bridge.refresher) (start bridge)
        (Event.isolate index 0 events) = some alone ∧
      alone.handlers = final.handlers[index]?.toList ∧
      alone.refreshing = final.refreshing ∧ alone.returned = final.returned ∧
      alone.state.uncounted = final.state.uncounted := by
  have holds : Isolated index (start bridge) (start bridge) :=
    ⟨bridge.state.metrics.callbacks, rfl⟩
  obtain ⟨alone, ranAlone, callbacks, rfl⟩ := run_followed
    (fun _ _ _ _ holds stepped => isolated_step holds stepped) holds ran
  rw [followed_isolated ran] at ranAlone
  exact ⟨_, ranAlone, rfl, rfl, rfl, rfl⟩

/-- Two requests, of which the first is counted and the second is kept. -/
theorem isolated_of_run_second :
    ∃ final alone, run (step Reference.crates Reference.bridge.refresher)
        (start Reference.bridge)
        [.arrive ⟨true⟩, .arrive ⟨true⟩, .advance 0, .advance 0, .advance 1] = some final ∧
      final.state.metrics.callbacks.get "unavailable".toList = 1 ∧
      run (step Reference.crates Reference.bridge.refresher) (start Reference.bridge)
        [.arrive ⟨true⟩, .advance 0] = some alone ∧
      alone.handlers = [.counting none] ∧ alone.state.uncounted = final.state.uncounted := by
  have ran : run (step Reference.crates Reference.bridge.refresher) (start Reference.bridge)
      [.arrive ⟨true⟩, .arrive ⟨true⟩, .advance 0, .advance 0, .advance 1] = some _ := rfl
  obtain ⟨alone, ranAlone, handlers, _, _, uncounted⟩ := isolated_of_run ran 1
  exact ⟨_, alone, ran, rfl, ranAlone, handlers, uncounted⟩

end System

end LibidBridge
