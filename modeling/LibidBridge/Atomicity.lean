import LibidBridge.ReplaceOnly

/-!
# Interleaved steps as whole calls

The interleaved system against the functions it takes apart.  A callback
request that nothing interrupts is answered as the route answers it, and
however requests come in between, the revalidations that have returned are a
run of the refresher: the same outcomes in the same order, and the same state
but for the counter the requests write.
-/

namespace LibidBridge

variable {crates : Crates}

def Call.readsCallback (body : Body) : Call :=
  ⟨.get, .callback, none, [], body⟩

namespace System

/-- A request that nothing interrupts leaves the state, and is answered, as the
callback route does it. -/
theorem run_request (refresher : Refresher) (system : System) (body : Body) :
    ∃ steps, run (step crates refresher) system
        (.arrive body :: List.replicate steps (.advance system.handlers.length)) =
      some { system with
        state := (answered crates system.state (Call.readsCallback body)).1
        handlers := system.handlers ++
          [.answered (answered crates system.state (Call.readsCallback body)).2] } := by
  have advances : ∀ (state : AppState) handler, step crates refresher
      { system with state := state, handlers := system.handlers ++ [handler] }
        (.advance system.handlers.length) =
      (advance state handler).map fun after =>
        { system with state := after.1, handlers := system.handlers ++ [after.2] } := by
    intro state handler
    simp [step]
  have arrives : step crates refresher system (.arrive body) =
      some { system with handlers := system.handlers ++ [arrived body] } := rfl
  cases carries : carriesBody body with
  | true =>
      refine ⟨0, ?_⟩
      simp [arrives, arrived, answered, routed, callback, Call.readsCallback, carries]
  | false =>
      cases served : system.state.callback with
      | none =>
          refine ⟨3, ?_⟩
          simp [arrives, arrived, answered, routed, callback, Call.readsCallback, carries,
            served, List.replicate_succ, advances, advance]
      | some published =>
          refine ⟨2, ?_⟩
          simp [arrives, arrived, answered, routed, callback, Call.readsCallback, carries,
            served, List.replicate_succ, advances, advance]

end System

namespace AppState

/-- The state without what the callback requests count. -/
def uncounted (state : AppState) : AppState :=
  { state with metrics := { state.metrics with callbacks := [] } }

@[simp]
theorem callback_uncounted (state : AppState) : state.uncounted.callback = state.callback :=
  rfl

@[simp]
theorem etag_uncounted (state : AppState) : state.uncounted.etag = state.etag :=
  rfl

@[simp]
theorem serves_uncounted (state : AppState) (published : Published) :
    state.uncounted.serves published = state.serves published :=
  rfl

end AppState

/-- What is left of a revalidation that has its answer, when nothing comes in
between. -/
def Refreshing.finish (crates : Crates) (refresher : Refresher) (state : AppState) (now : Nat) :
    Refreshing → Option (AppState × Except FetchError Bool)
  | .comparing published =>
      if state.serves published then
        some (refresher.counted crates state now (.ok false), .ok false)
      else
        some (refresher.counted crates { state with callback := some published } now (.ok true),
          .ok true)
  | .replacing published =>
      some (refresher.counted crates { state with callback := some published } now (.ok true),
        .ok true)
  | .clearing => some (refresher.counted crates state now (.ok true), .ok true)
  | .countingPublished => some ({ state with metrics := state.metrics.published now }, .ok true)
  | .settingAvailable =>
      some ({ state with
        metrics := { state.metrics with available := 1, publishedAt := now } }, .ok true)
  | .settingPublishedAt =>
      some ({ state with metrics := { state.metrics with publishedAt := now } }, .ok true)
  | .countingUnchanged => some (refresher.counted crates state now (.ok false), .ok false)
  | .countingFailed error =>
      some (refresher.counted crates state now (.error error), .error error)
  | .countingKind error =>
      some ({ state with
        metrics := { state.metrics with failures := state.metrics.failures.inc error.kind }
        failure := some (refresher.reason crates error) }, .error error)
  | .recording error =>
      some ({ state with failure := some (refresher.reason crates error) }, .error error)
  | .idle | .awaiting _ | .panicked => none

def Refreshing.answered : Refreshing → Bool
  | .idle | .awaiting _ => false
  | _ => true

namespace System

/-- What an answer leads to finishes as the revalidation that meets it. -/
theorem finish_received (refresher : Refresher) (state : AppState) (answer : Answer)
    (now : Nat) :
    (received crates refresher state.etag answer).finish crates refresher state now =
      refresher.revalidate crates state answer now := by
  simp only [received, Refresher.revalidate, Refresher.published]
  rcases refresher.upstream.retrieve crates refresher.allowedOrigins state.etag answer with
    _ | error | _ | published
  · rfl
  · rfl
  · rfl
  · simp only [Refreshing.finish, Option.map_some]
    split_ifs <;> rfl

theorem answered_received (refresher : Refresher) (etag : Option Text) (answer : Answer) :
    (received crates refresher etag answer).answered = true := by
  unfold received
  split <;> rfl

theorem uncounted_advance {state after : AppState} {handler next : Handler}
    (advances : advance state handler = some (after, next)) :
    after.uncounted = state.uncounted := by
  rcases handler with _ | (_ | published) | _ | response <;> cases advances <;> rfl

/-- Beyond what the requests count, only the refresher's own steps change the
state or return. -/
theorem step_uncounted {refresher : Refresher} {system next : System} {event : Event}
    (stepped : step crates refresher system event = some next) :
    ((∀ now, event ≠ .proceed now) ∧ next.state.uncounted = system.state.uncounted ∧
      next.returned = system.returned) ∨
    ∃ now, event = .proceed now ∧ proceed crates refresher system now = some next := by
  cases steps_of_step stepped with
  | begin idle => exact Or.inl ⟨by simp, rfl, rfl⟩
  | receive answer etag awaiting => exact Or.inl ⟨by simp, rfl, rfl⟩
  | proceed now next proceeds => exact Or.inr ⟨now, rfl, proceeds⟩
  | arrive body => exact Or.inl ⟨by simp, rfl, rfl⟩
  | advance index handler state after present advances =>
      exact Or.inl ⟨by simp, uncounted_advance advances, rfl⟩

/-- A step of a revalidation that has its answer leaves the rest to be finished,
or is the last of it. -/
theorem finish_proceed {refresher : Refresher} {system next : System} {now : Nat}
    (proceeds : proceed crates refresher system now = some next) :
    system.refreshing.answered = true ∧
      ((next.refreshing.answered = true ∧ next.returned = system.returned ∧ ∀ later,
          next.refreshing.finish crates refresher next.state.uncounted later =
            system.refreshing.finish crates refresher system.state.uncounted later) ∨
        (next.refreshing = .idle ∧ ∃ outcome, next.returned = system.returned ++ [outcome] ∧
          system.refreshing.finish crates refresher system.state.uncounted now =
            some (next.state.uncounted, outcome))) := by
  obtain ⟨state, refreshing, returned, handlers⟩ := system
  cases refreshing with
  | idle | awaiting | panicked => cases proceeds
  | comparing published =>
      cases proceeds
      refine ⟨rfl, Or.inl ?_⟩
      cases current : state.serves published <;>
        simp [Refreshing.answered, Refreshing.finish, current]
  | replacing | clearing | countingPublished | settingAvailable | countingFailed | countingKind =>
      cases proceeds
      exact ⟨rfl, Or.inl ⟨rfl, rfl, fun _ => rfl⟩⟩
  | settingPublishedAt | countingUnchanged | recording =>
      cases proceeds
      exact ⟨rfl, Or.inr ⟨rfl, _, rfl, rfl⟩⟩

end System

/-- One revalidation as a step of a run that keeps every outcome. -/
def Refresher.returning (crates : Crates) (refresher : Refresher)
    (past : AppState × List (Except FetchError Bool)) (tick : Tick) :
    Option (AppState × List (Except FetchError Bool)) :=
  (refresher.revalidate crates past.1 tick.answer tick.now).map fun (next, outcome) =>
    (next, past.2 ++ [outcome])

theorem Refresher.run_step_of_returning {refresher : Refresher} {ticks : List Tick}
    {past final : AppState × List (Except FetchError Bool)}
    (ran : run (refresher.returning crates) past ticks = some final) :
    run (refresher.step crates) past.1 ticks = some final.1 := by
  induction ticks generalizing past with
  | nil =>
      cases ran
      rfl
  | cons tick ticks ih =>
      obtain ⟨middle, returned, rest⟩ := Option.bind_eq_some_iff.mp ran
      obtain ⟨next, revalidated, rfl⟩ := Option.map_eq_some_iff.mp returned
      have stepped : refresher.step crates past.1 tick = some next.1 := by
        rw [step, revalidated]
        rfl
      rw [run_cons, stepped]
      exact ih rest

def Event.answer : Event → Option Answer
  | .receive answer => some answer
  | _ => none

namespace System

/-- Where the system stands against a run of the refresher: between two
revalidations of it, or within the one that the last answer began. -/
inductive Tracks (crates : Crates) (refresher : Refresher) (start : AppState)
    (events : List Event) (system : System) : Prop
  | between (ticks : List Refresher.Tick)
      (ran : run (refresher.returning crates) (start, []) ticks =
        some (system.state.uncounted, system.returned))
      (answers : events.filterMap Event.answer = ticks.map Refresher.Tick.answer)
      (stands : system.refreshing = .idle ∨ system.refreshing = .awaiting system.state.etag)
  | within (ticks : List Refresher.Tick) (base : AppState) (answer : Answer)
      (ran : run (refresher.returning crates) (start, []) ticks = some (base, system.returned))
      (answers : events.filterMap Event.answer = ticks.map Refresher.Tick.answer ++ [answer])
      (stands : system.refreshing.answered = true)
      (finishes : ∀ now, system.refreshing.finish crates refresher system.state.uncounted now =
        refresher.revalidate crates base answer now)

theorem filterMap_answer_snoc {event : Event} (unasked : event.answer = none)
    (events : List Event) :
    (events ++ [event]).filterMap Event.answer = events.filterMap Event.answer := by
  simp [unasked]

/-- A step that the refresher does not notice keeps track. -/
theorem Tracks.unnoticed {refresher : Refresher} {start : AppState} {events : List Event}
    {system next : System} {event : Event}
    (tracks : Tracks crates refresher start events system) (unasked : event.answer = none)
    (refreshing : next.refreshing = system.refreshing)
    (returned : next.returned = system.returned)
    (uncounted : next.state.uncounted = system.state.uncounted) :
    Tracks crates refresher start (events ++ [event]) next := by
  have etag : next.state.etag = system.state.etag := by
    rw [← AppState.etag_uncounted, uncounted, AppState.etag_uncounted]
  cases tracks with
  | between ticks ran answers stands =>
      apply Tracks.between ticks
      · rwa [uncounted, returned]
      · rwa [filterMap_answer_snoc unasked]
      · rwa [refreshing, etag]
  | within ticks base answer ran answers stands finishes =>
      apply Tracks.within ticks base answer
      · rwa [returned]
      · rwa [filterMap_answer_snoc unasked]
      · rwa [refreshing]
      · rwa [refreshing, uncounted]

/-- Every step keeps track, by what it leads to and where the system stood: an
answer begins the finishing of its revalidation, the last step of it adds a
tick to the run, and no request is noticed. -/
theorem tracks_snoc {refresher : Refresher} {start : AppState} {events : List Event}
    {system next : System} {event : Event}
    (tracks : Tracks crates refresher start events system)
    (stepped : step crates refresher system event = some next) :
    Tracks crates refresher start (events ++ [event]) next := by
  cases steps_of_step stepped with
  | begin idle =>
      cases tracks with
      | between ticks ran answers stands =>
          exact .between ticks ran ((filterMap_answer_snoc rfl _).trans answers) (Or.inr rfl)
      | within _ _ _ _ _ stands _ =>
          rw [idle] at stands
          cases stands
  | receive answer etag awaiting =>
      cases tracks with
      | between ticks ran answers stands =>
          have same : etag = system.state.uncounted.etag := by
            simpa [awaiting] using stands
          refine .within ticks _ answer ran ?_ ?_ ?_
          · simp [answers, Event.answer]
          · exact answered_received refresher etag answer
          · intro now
            rw [same]
            exact finish_received refresher _ answer now
      | within _ _ _ _ _ stands _ =>
          rw [awaiting] at stands
          cases stands
  | proceed now next proceeds =>
      obtain ⟨answered, rest⟩ := finish_proceed proceeds
      cases tracks with
      | between _ _ _ stands =>
          rcases stands with idle | awaiting
          · simp [idle, Refreshing.answered] at answered
          · simp [awaiting, Refreshing.answered] at answered
      | within ticks base answer ran answers _ finishes =>
          rcases rest with ⟨stands, returned, finish⟩ | ⟨idle, outcome, returned, finish⟩
          · exact .within ticks base answer (returned ▸ ran)
              ((filterMap_answer_snoc rfl _).trans answers) stands
              fun later => (finish later).trans (finishes later)
          · refine .between (ticks ++ [⟨answer, now⟩]) ?_ ?_ (Or.inl idle)
            · apply run_snoc_eq_some.mpr
              refine ⟨_, ran, ?_⟩
              rw [finishes now] at finish
              simp only [Refresher.returning, finish, returned, Option.map_some]
            · rw [filterMap_answer_snoc rfl, answers, List.map_append]
              rfl
  | arrive body => exact tracks.unnoticed rfl rfl rfl rfl
  | advance index handler state after present advances =>
      exact tracks.unnoticed rfl rfl rfl (uncounted_advance advances)

theorem tracks_of_run {settings : Settings} {bridge : Bridge}
    (started : Bridge.start crates settings = .ok bridge) {events : List Event}
    {system : System}
    (ran : run (step crates bridge.refresher) (start bridge) events = some system) :
    Tracks crates bridge.refresher bridge.state events system := by
  have uncounted : bridge.state.uncounted = bridge.state := by
    obtain ⟨_, _, _, _, rfl⟩ := Bridge.start_eq_ok_iff.mp started
    rfl
  apply run_history _ (fun _ _ _ _ _ tracks stepped => tracks_snoc tracks stepped) ran
  exact .between [] (by rw [run_nil]; exact congrArg (fun state => some (state, [])) uncounted.symm)
    rfl (Or.inl rfl)

/-- However requests come in between, the revalidations that have returned are a
run of the refresher on the answers received, with the same outcomes; and while
none is under way the state is the one that run ends in, but for what the
requests count. -/
theorem refresher_run_of_run {settings : Settings} {bridge : Bridge}
    (started : Bridge.start crates settings = .ok bridge) {events : List Event}
    {system : System}
    (ran : run (step crates bridge.refresher) (start bridge) events = some system) :
    ∃ ticks base, run (bridge.refresher.returning crates) (bridge.state, []) ticks =
        some (base, system.returned) ∧
      ticks.map Refresher.Tick.answer <+: events.filterMap Event.answer ∧
      (system.refreshing = .idle → system.state.uncounted = base ∧
        ticks.map Refresher.Tick.answer = events.filterMap Event.answer) := by
  cases tracks_of_run started ran with
  | between ticks ranTicks answers _ =>
      exact ⟨ticks, _, ranTicks, answers ▸ List.prefix_refl _, fun _ => ⟨rfl, answers.symm⟩⟩
  | within ticks base answer ranTicks answers stands _ =>
      refine ⟨ticks, base, ranTicks, answers ▸ List.prefix_append _ _, fun idle => ?_⟩
      rw [idle] at stands
      cases stands

/-- While no revalidation is under way, and where no accepted answer so far
changed only the policy of the one before it, the document of the last accepted
answer is served, however requests come in between. -/
theorem callback_eq_last_offer (laws : HeaderLaws crates) {settings : Settings}
    {bridge : Bridge} (started : Bridge.start crates settings = .ok bridge)
    {events : List Event} {system : System}
    (ran : run (step crates bridge.refresher) (start bridge) events = some system)
    (idle : system.refreshing = .idle)
    (chain : ((events.filterMap Event.answer).filterMap (offered crates)).IsChain
      fun first second => ¬ PolicyOnlyChange crates bridge.refresher.inputs first second) :
    system.state.callback =
      ((events.filterMap Event.answer).filterMap (offered crates)).getLast?.map
        (Offer.published crates bridge.refresher.inputs) := by
  obtain ⟨ticks, base, returned, _, stands⟩ := refresher_run_of_run started ran
  obtain ⟨rfl, answers⟩ := stands idle
  have empty := Bridge.callback_of_start started
  have offersEq : (events.filterMap Event.answer).filterMap (offered crates) =
      offers crates ticks := by
    rw [← answers, List.filterMap_map]
    rfl
  rw [offersEq] at chain ⊢
  rw [← AppState.callback_uncounted]
  exact callback_of_chain laws empty (Refresher.run_step_of_returning returned) chain

end System

end LibidBridge
