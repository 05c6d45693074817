import LibidBridge.Freshness

/-!
# Requests while the document is refreshed

The refresher and the callback handlers run on different threads and meet in
the state they share.  Each read or write of a channel, and each write of a
metric, is a step of its own here, and the steps of the refresher and of any
number of requests come in any order.
-/

namespace LibidBridge

/-- Where a callback request stands, between two accesses to the state it
shares: it has read nothing yet, is about to count what it found, has counted
that it found nothing and is about to read why, or has answered. -/
inductive Handler
  | reading
  | counting (found : Option Published)
  | explaining
  | answered (response : Response)
  deriving DecidableEq

/-- Where the refresher stands.  It reads the validator and awaits its answer; a
document it is given is compared with the one served and replaces it, after
which the failure is cleared and the replacement counted in three writes; a
failure is counted in two writes and then recorded.  Its task is gone once
building a request panics. -/
inductive Refreshing
  | idle
  | awaiting (etag : Option Text)
  | comparing (published : Published)
  | replacing (published : Published)
  | clearing
  | countingPublished
  | settingAvailable
  | settingPublishedAt
  | countingUnchanged
  | countingFailed (error : FetchError)
  | countingKind (error : FetchError)
  | recording (error : FetchError)
  | panicked
  deriving DecidableEq

/-- The shared state, where each task stands, and what every revalidation so
far has returned. -/
structure System where
  state : AppState
  refreshing : Refreshing
  returned : List (Except FetchError Bool)
  handlers : List Handler

/-- What happens next: the refresher starts a revalidation, is given the answer
it awaits, or takes its next step at some time; or a callback request arrives,
or takes its next step. -/
inductive Event
  | begin
  | receive (answer : Answer)
  | proceed (now : Nat)
  | arrive (body : Body)
  | advance (index : Nat)

namespace System

def start (bridge : Bridge) : System :=
  ⟨bridge.state, .idle, [], []⟩

variable (crates : Crates)

/-- What the refresher makes of an answer. -/
def received (refresher : Refresher) (etag : Option Text) (answer : Answer) : Refreshing :=
  match refresher.upstream.retrieve crates refresher.allowedOrigins etag answer with
  | none => .panicked
  | some (.error error) => .countingFailed error
  | some (.ok none) => .countingUnchanged
  | some (.ok (some published)) => .comparing published

/-- The refresher's next step, where it does not wait for anything. -/
def proceed (refresher : Refresher) (system : System) (now : Nat) : Option System :=
  let state := system.state
  let metrics := state.metrics
  match system.refreshing with
  | .comparing published =>
      some { system with
        refreshing := if state.serves published then .countingUnchanged else .replacing published }
  | .replacing published =>
      some { system with
        state := { state with callback := some published }
        refreshing := .clearing }
  | .clearing =>
      some { system with
        state := { state with failure := none }
        refreshing := .countingPublished }
  | .countingPublished =>
      some { system with
        state := { state with metrics := metrics.count "published".toList }
        refreshing := .settingAvailable }
  | .settingAvailable =>
      some { system with
        state := { state with metrics := { metrics with available := 1 } }
        refreshing := .settingPublishedAt }
  | .settingPublishedAt =>
      some { system with
        state := { state with metrics := { metrics with publishedAt := now } }
        refreshing := .idle
        returned := system.returned ++ [.ok true] }
  | .countingUnchanged =>
      some { system with
        state := { state with metrics := metrics.unchanged }
        refreshing := .idle
        returned := system.returned ++ [.ok false] }
  | .countingFailed error =>
      some { system with
        state := { state with metrics := metrics.count "failed".toList }
        refreshing := .countingKind error }
  | .countingKind error =>
      some { system with
        state := { state with
          metrics := { metrics with failures := metrics.failures.inc error.kind } }
        refreshing := .recording error }
  | .recording error =>
      some { system with
        state := { state with failure := some (refresher.reason crates error) }
        refreshing := .idle
        returned := system.returned ++ [.error error] }
  | .idle | .awaiting _ | .panicked => none

def arrived (body : Body) : Handler :=
  if carriesBody body then .answered (standingHeaders ⟨BAD_REQUEST, [], []⟩) else .reading

/-- A request's next step: what it leaves of the state, and where it stands
then. -/
def advance (state : AppState) : Handler → Option (AppState × Handler)
  | .reading => some (state, .counting state.callback)
  | .counting none =>
      some ({ state with metrics := state.metrics.callbackUnavailable }, .explaining)
  | .counting (some published) =>
      some ({ state with metrics := state.metrics.callbackServed },
        .answered (standingHeaders (serving published)))
  | .explaining => some (state, .answered (standingHeaders (unavailable state.failure)))
  | .answered _ => none

/-- One step of the system, where the event is enabled. -/
def step (refresher : Refresher) (system : System) : Event → Option System
  | .begin =>
      match system.refreshing with
      | .idle => some { system with refreshing := .awaiting system.state.etag }
      | _ => none
  | .receive answer =>
      match system.refreshing with
      | .awaiting etag =>
          some { system with refreshing := received crates refresher etag answer }
      | _ => none
  | .proceed now => system.proceed crates refresher now
  | .arrive body => some { system with handlers := system.handlers ++ [arrived body] }
  | .advance index =>
      match system.handlers[index]? with
      | none => none
      | some handler =>
          (advance system.state handler).map fun (state, handler) =>
            { system with state := state, handlers := system.handlers.set index handler }

end System

/-- The document is replaced, and the revalidation that did it has not
returned. -/
def Refreshing.publishing : Refreshing → Bool
  | .clearing | .countingPublished | .settingAvailable | .settingPublishedAt => true
  | _ => false

/-- The document a revalidation holds and has not published. -/
def Refreshing.held : Refreshing → Option Published
  | .comparing published | .replacing published => some published
  | _ => none

namespace System

variable {crates}

/-- What each event leads to, where it is enabled. -/
inductive Steps (crates : Crates) (refresher : Refresher) (system : System) :
    Event → System → Prop
  | begin (idle : system.refreshing = .idle) :
      Steps crates refresher system .begin
        { system with refreshing := .awaiting system.state.etag }
  | receive (answer : Answer) (etag : Option Text)
      (awaiting : system.refreshing = .awaiting etag) :
      Steps crates refresher system (.receive answer)
        { system with refreshing := received crates refresher etag answer }
  | proceed (now : Nat) (next : System)
      (proceeds : system.proceed crates refresher now = some next) :
      Steps crates refresher system (.proceed now) next
  | arrive (body : Body) :
      Steps crates refresher system (.arrive body)
        { system with handlers := system.handlers ++ [arrived body] }
  | advance (index : Nat) (handler : Handler) (state : AppState) (after : Handler)
      (present : system.handlers[index]? = some handler)
      (advances : advance system.state handler = some (state, after)) :
      Steps crates refresher system (.advance index)
        { system with state := state, handlers := system.handlers.set index after }

theorem steps_of_step {refresher : Refresher} {system next : System} {event : Event}
    (stepped : step crates refresher system event = some next) :
    Steps crates refresher system event next := by
  cases event with
  | begin =>
      simp only [step] at stepped
      split at stepped
      · next idle =>
          cases stepped
          exact Steps.begin idle
      · cases stepped
  | receive answer =>
      simp only [step] at stepped
      split at stepped
      · next etag awaiting =>
          cases stepped
          exact Steps.receive answer etag awaiting
      · cases stepped
  | proceed now => exact Steps.proceed now next stepped
  | arrive body =>
      cases stepped
      exact Steps.arrive body
  | advance index =>
      simp only [step] at stepped
      split at stepped
      · cases stepped
      · next handler present =>
          obtain ⟨⟨state, after⟩, advances, same⟩ := Option.map_eq_some_iff.mp stepped
          cases same
          exact Steps.advance index handler state after present advances

/-- A request leaves everything but its own counter as it is. -/
theorem callback_advance {state after : AppState} {handler next : Handler}
    (advances : advance state handler = some (after, next)) :
    after.callback = state.callback := by
  rcases handler with _ | (_ | published) | _ | response <;> cases advances <;> rfl

theorem publishing_received (refresher : Refresher) (etag : Option Text) (answer : Answer) :
    (received crates refresher etag answer).publishing = false := by
  unfold received
  split <;> rfl

theorem handlers_proceed {refresher : Refresher} {system next : System} {now : Nat}
    (proceeds : proceed crates refresher system now = some next) :
    next.handlers = system.handlers := by
  unfold proceed at proceeds
  split at proceeds <;> cases proceeds <;> rfl

/-- What the refresher can do to what is served: leave it, replace it by the
document it holds, or leave it and let its revalidation return. -/
theorem callback_proceed {refresher : Refresher} {system next : System} {now : Nat}
    (proceeds : proceed crates refresher system now = some next) :
    (next.returned = system.returned ∧ next.state.callback = system.state.callback ∧
      next.refreshing.publishing = system.refreshing.publishing) ∨
    (∃ published, system.refreshing = .replacing published ∧
      next.returned = system.returned ∧ next.state.callback = some published ∧
      next.refreshing = .clearing) ∨
    ∃ outcome, next.returned = system.returned ++ [outcome] ∧
      next.state.callback = system.state.callback ∧ next.refreshing = .idle ∧
      (system.refreshing.publishing = true ↔ outcome = .ok true) := by
  obtain ⟨state, refreshing, returned, handlers⟩ := system
  cases refreshing with
  | idle | awaiting | panicked => cases proceeds
  | comparing published =>
      cases proceeds
      refine Or.inl ⟨rfl, rfl, ?_⟩
      dsimp only
      split_ifs <;> rfl
  | replacing published =>
      cases proceeds
      exact Or.inr (Or.inl ⟨published, rfl, rfl, rfl, rfl⟩)
  | clearing | countingPublished | settingAvailable | countingFailed | countingKind =>
      cases proceeds
      exact Or.inl ⟨rfl, rfl, rfl⟩
  | settingPublishedAt | countingUnchanged | recording =>
      cases proceeds
      exact Or.inr (Or.inr ⟨_, rfl, rfl, rfl, by simp [Refreshing.publishing]⟩)

/-- The same of any step: no request does anything to what is served. -/
theorem step_callback {refresher : Refresher} {system next : System} {event : Event}
    (stepped : step crates refresher system event = some next) :
    (next.returned = system.returned ∧ next.state.callback = system.state.callback ∧
      next.refreshing.publishing = system.refreshing.publishing) ∨
    (∃ published, system.refreshing = .replacing published ∧
      next.returned = system.returned ∧ next.state.callback = some published ∧
      next.refreshing = .clearing) ∨
    ∃ outcome, next.returned = system.returned ++ [outcome] ∧
      next.state.callback = system.state.callback ∧ next.refreshing = .idle ∧
      (system.refreshing.publishing = true ↔ outcome = .ok true) := by
  cases steps_of_step stepped with
  | begin idle => exact Or.inl ⟨rfl, rfl, by rw [idle]; rfl⟩
  | receive answer etag awaiting =>
      refine Or.inl ⟨rfl, rfl, ?_⟩
      rw [awaiting]
      exact publishing_received refresher etag answer
  | proceed now next proceeds => exact callback_proceed proceeds
  | arrive body => exact Or.inl ⟨rfl, rfl, rfl⟩
  | advance index handler state after present advances =>
      exact Or.inl ⟨rfl, callback_advance advances, rfl⟩

theorem held_received {refresher : Refresher} {etag : Option Text} {answer : Answer}
    {published : Published}
    (holds : (received crates refresher etag answer).held = some published) :
    refresher.upstream.retrieve crates refresher.allowedOrigins etag answer =
      some (.ok (some published)) := by
  unfold received at holds
  split at holds
  · cases holds
  · cases holds
  · cases holds
  · next found retrieved =>
      cases holds
      exact retrieved

theorem held_proceed {refresher : Refresher} {system next : System} {now : Nat}
    {published : Published} (proceeds : proceed crates refresher system now = some next)
    (holds : next.refreshing.held = some published) :
    system.refreshing.held = some published := by
  obtain ⟨state, refreshing, returned, handlers⟩ := system
  cases refreshing with
  | comparing found =>
      cases proceeds
      dsimp only at holds
      split_ifs at holds
      · cases holds
      · exact holds
  | idle | awaiting | panicked => cases proceeds
  | _ =>
      cases proceeds
      cases holds

/-- A document a revalidation holds is the one it was answered with. -/
theorem step_held {refresher : Refresher} {system next : System} {event : Event}
    {published : Published} (stepped : step crates refresher system event = some next)
    (holds : next.refreshing.held = some published) :
    system.refreshing.held = some published ∨ ∃ answer etag, event = .receive answer ∧
      refresher.upstream.retrieve crates refresher.allowedOrigins etag answer =
        some (.ok (some published)) := by
  cases steps_of_step stepped with
  | begin idle => cases holds
  | receive answer etag awaiting => exact Or.inr ⟨answer, etag, rfl, held_received holds⟩
  | proceed now next proceeds => exact Or.inl (held_proceed proceeds holds)
  | arrive body => exact Or.inl holds
  | advance index handler state after present advances => exact Or.inl holds

/-- What a step can do to the requests: leave them, let one join, or let one
advance. -/
theorem step_handlers {refresher : Refresher} {system next : System} {event : Event}
    (stepped : step crates refresher system event = some next) :
    next.handlers = system.handlers ∨
    (∃ body, next.handlers = system.handlers ++ [arrived body]) ∨
    ∃ index handler after, system.handlers[index]? = some handler ∧
      advance system.state handler = some (next.state, after) ∧
      next.handlers = system.handlers.set index after := by
  cases steps_of_step stepped with
  | begin idle => exact Or.inl rfl
  | receive answer etag awaiting => exact Or.inl rfl
  | proceed now next proceeds => exact Or.inl (handlers_proceed proceeds)
  | arrive body => exact Or.inr (Or.inl ⟨body, rfl⟩)
  | advance index handler state after present advances =>
      exact Or.inr (Or.inr ⟨index, handler, after, present, advances, rfl⟩)

/-- A property of the requests from `first` on: it holds after a step of those
that stay where they are, of one that joins and of one that advances. -/
theorem forall_handlers_step {refresher : Refresher} {first : Nat} {system next : System}
    {event : Event} {holds : Handler → Prop}
    (stepped : step crates refresher system event = some next)
    (stays : ∀ index handler, first ≤ index → system.handlers[index]? = some handler →
      holds handler)
    (joins : ∀ body, holds (arrived body))
    (advances : ∀ index handler after, first ≤ index →
      system.handlers[index]? = some handler →
        advance system.state handler = some (next.state, after) → holds after)
    (index : Nat) (handler : Handler) (later : first ≤ index)
    (found : next.handlers[index]? = some handler) : holds handler := by
  rcases step_handlers stepped with same | ⟨body, joined⟩ |
    ⟨changed, before, after, present, advanced, set⟩
  · rw [same] at found
    exact stays index handler later found
  · rw [joined, List.getElem?_append] at found
    split_ifs at found
    · exact stays index handler later found
    · rw [List.mem_singleton.mp (List.mem_of_getElem? found)]
      exact joins body
  · rw [set, List.getElem?_set] at found
    split_ifs at found with same inside
    · subst same
      cases found
      exact advances changed before handler later present advanced
    · exact stays index handler later found

end System

end LibidBridge
