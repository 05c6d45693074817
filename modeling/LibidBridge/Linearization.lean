import LibidBridge.Atomicity
import LibidBridge.Histories

/-!
# Requests answered at one moment

A callback request reads the shared state in steps that others come between.
Where it is not answered that there is no document, it is answered as the route
answers it all at once in one state that the run passed through between its
arrival and its answer.
-/

namespace LibidBridge

variable {crates : Crates}

namespace System

/-- What a step can do to one request: nothing, or let it advance. -/
theorem handler_step {refresher : Refresher} {system next : System} {event : Event}
    (stepped : step crates refresher system event = some next) {index : Nat}
    {handler : Handler} (present : system.handlers[index]? = some handler) :
    (event ≠ .advance index ∧ next.handlers[index]? = some handler) ∨
    (event = .advance index ∧ ∃ after,
      advance system.state handler = some (next.state, after) ∧
        next.handlers[index]? = some after) := by
  obtain ⟨inside, _⟩ := List.getElem?_eq_some_iff.mp present
  cases steps_of_step stepped with
  | begin idle => exact Or.inl ⟨nofun, present⟩
  | receive answer etag awaiting => exact Or.inl ⟨nofun, present⟩
  | proceed now next proceeds =>
      rw [handlers_proceed proceeds]
      exact Or.inl ⟨nofun, present⟩
  | arrive body =>
      refine Or.inl ⟨nofun, ?_⟩
      rw [List.getElem?_append_left inside]
      exact present
  | advance changed before state after found advances =>
      by_cases same : changed = index
      · subst same
        cases found.symm.trans present
        refine Or.inr ⟨rfl, after, advances, ?_⟩
        rw [List.getElem?_set_self inside]
      · refine Or.inl ⟨by simpa using same, ?_⟩
        rw [List.getElem?_set_ne same]
        exact present

end System

/-- How far a request has come agrees with the states passed since it arrived. -/
def Handler.ReadSince (crates : Crates) (refresher : Refresher) (arrival : System)
    (events : List Event) : Handler → Prop
  | .reading => True
  | .counting found =>
      Passes (System.step crates refresher) arrival events fun passed =>
        passed.state.callback = found
  | .explaining =>
      Passes (System.step crates refresher) arrival events fun passed =>
        passed.state.callback = none
  | .answered response =>
      (∃ published, response = standingHeaders (serving published) ∧
        Passes (System.step crates refresher) arrival events fun passed =>
          passed.state.callback = some published) ∨
      ∃ why, response = standingHeaders (unavailable why) ∧
        PassesThen (System.step crates refresher) arrival events
          (fun passed => passed.state.callback = none) fun passed => passed.state.failure = why

namespace System

variable {refresher : Refresher} {arrival middle next : System} {events : List Event}

/-- What has been read stays read, whatever happens next. -/
theorem ReadSince.snoc {handler : Handler}
    (read : handler.ReadSince crates refresher arrival events) (event : Event) :
    handler.ReadSince crates refresher arrival (events ++ [event]) := by
  cases handler with
  | reading => trivial
  | counting found => exact Passes.snoc read event
  | explaining => exact Passes.snoc read event
  | answered response =>
      rcases read with ⟨published, same, passes⟩ | ⟨why, same, passes⟩
      · exact Or.inl ⟨published, same, passes.snoc event⟩
      · exact Or.inr ⟨why, same, passes.snoc event⟩

/-- A request's step reads the state it is taken in. -/
theorem readSince_advance {state : AppState} {handler after : Handler}
    (ran : run (step crates refresher) arrival events = some middle)
    (read : handler.ReadSince crates refresher arrival events)
    (advances : advance middle.state handler = some (state, after)) :
    after.ReadSince crates refresher arrival events := by
  rcases handler with _ | (_ | published) | _ | response <;> cases advances
  · exact passes_of_final ran rfl
  · exact read
  · exact Or.inl ⟨published, rfl, read⟩
  · exact Or.inr ⟨_, rfl, Passes.then_final read ran rfl⟩

theorem readSince_of_run {index : Nat}
    (arrived : arrival.handlers[index]? = some .reading)
    (ran : run (step crates refresher) arrival events = some middle) :
    ∃ handler, middle.handlers[index]? = some handler ∧
      handler.ReadSince crates refresher arrival events := by
  apply @run_history _ _ _ (fun events middle =>
    ∃ handler, middle.handlers[index]? = some handler ∧
      handler.ReadSince crates refresher arrival events) _ _ _ _ _ ran
  · exact ⟨_, arrived, trivial⟩
  · rintro events middle event next before ⟨handler, present, read⟩ stepped
    rcases handler_step stepped present with ⟨_, kept⟩ | ⟨_, after, advances, moved⟩
    · exact ⟨handler, kept, ReadSince.snoc read event⟩
    · exact ⟨after, moved, ReadSince.snoc (readSince_advance before read advances) event⟩

/-- An answer is final. -/
theorem answered_of_run {index : Nat} {response : Response}
    (answered : arrival.handlers[index]? = some (.answered response))
    (ran : run (step crates refresher) arrival events = some middle) :
    middle.handlers[index]? = some (.answered response) := by
  apply @run_invariant _ _ _ (fun system =>
    system.handlers[index]? = some (.answered response)) _ _ _ _ answered ran
  intro system event next present stepped
  rcases handler_step stepped present with ⟨_, kept⟩ | ⟨_, after, advances, _⟩
  · exact kept
  · cases advances

/-- A callback request that is not answered `503` is answered as the route
answers it in one state passed between its arrival and its answer, whatever the
refresher and the other requests do meanwhile.  One that is answered `503`
passes a state without a document, and in it or a later one the reason its page
gives is the one recorded. -/
theorem answered_in_one_state {system final : System} {body : Body} {events : List Event}
    (ran : run (step crates refresher) system (.arrive body :: events) = some final)
    {response : Response}
    (found : final.handlers[system.handlers.length]? = some (.answered response)) :
    (response.status ≠ SERVICE_UNAVAILABLE →
      Passes (step crates refresher) system (.arrive body :: events) fun passed =>
        (answered crates passed.state (Call.readsCallback body)).2 = response) ∧
    (response.status = SERVICE_UNAVAILABLE →
      ∃ why, response = standingHeaders (unavailable why) ∧
        PassesThen (step crates refresher) system (.arrive body :: events)
          (fun passed => passed.state.callback = none) fun passed =>
            passed.state.failure = why) := by
  obtain ⟨joined, arrives, rest⟩ := Option.bind_eq_some_iff.mp ran
  cases arrives
  cases carries : carriesBody body with
  | true =>
      -- A request that carries a body is answered where it arrives.
      have present : (system.handlers ++ [arrived body])[system.handlers.length]? =
          some (.answered (standingHeaders ⟨BAD_REQUEST, [], []⟩)) := by
        simp [arrived, carries]
      have same := answered_of_run present rest
      cases same.symm.trans found
      refine ⟨fun _ => ?_, fun unavailable => ?_⟩
      · refine passes_of_final ran ?_
        simp [answered, routed, callback, Call.readsCallback, carries]
      · exact absurd unavailable (by decide : BAD_REQUEST ≠ SERVICE_UNAVAILABLE)
  | false =>
      have present : (system.handlers ++ [arrived body])[system.handlers.length]? =
          some .reading := by
        simp [arrived, carries]
      have reads : (Call.readsCallback body).ReadsCallback := ⟨rfl, rfl, carries⟩
      obtain ⟨handler, reached, read⟩ := readSince_of_run present rest
      cases reached.symm.trans found
      rcases read with ⟨published, rfl, passes⟩ | ⟨why, rfl, passes⟩
      · refine ⟨fun _ => ?_, fun unavailable => ?_⟩
        · refine Passes.mono (passes.cons rfl) fun passed served => ?_
          rw [answered_callback reads, served]
        · exact absurd unavailable (by decide : OK ≠ SERVICE_UNAVAILABLE)
      · exact ⟨fun other => absurd rfl other, fun _ => ⟨why, rfl, passes.cons rfl⟩⟩

/-- A request that reads a document while a revalidation begins. -/
theorem answered_in_one_state_document :
    ∃ final, run (step Reference.crates Reference.bridge.refresher)
        ⟨{ Reference.bridge.state with callback := some ⟨⟨[], []⟩, none⟩ }, .idle, [], []⟩
        [.arrive ⟨true⟩, .begin, .advance 0, .advance 0] = some final ∧
      Passes (step Reference.crates Reference.bridge.refresher)
        ⟨{ Reference.bridge.state with callback := some ⟨⟨[], []⟩, none⟩ }, .idle, [], []⟩
        [.arrive ⟨true⟩, .begin, .advance 0, .advance 0] fun passed =>
          (answered Reference.crates passed.state (Call.readsCallback ⟨true⟩)).2 =
            standingHeaders (serving ⟨⟨[], []⟩, none⟩) := by
  have ran : run (step Reference.crates Reference.bridge.refresher)
      ⟨{ Reference.bridge.state with callback := some ⟨⟨[], []⟩, none⟩ }, .idle, [], []⟩
      [.arrive ⟨true⟩, .begin, .advance 0, .advance 0] = some _ := rfl
  exact ⟨_, ran, (answered_in_one_state ran rfl).1 (by decide : OK ≠ SERVICE_UNAVAILABLE)⟩

end System

end LibidBridge
