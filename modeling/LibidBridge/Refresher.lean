import LibidBridge.Deployment
import LibidBridge.Upstream

/-!
# Keeping the callback document current

The state a deployment holds while it runs, how it starts, and one
revalidation: a retrieval whose document replaces the one served, or leaves it
as it is, and what is counted and recorded of it.
-/

namespace LibidBridge

/-- A family of counters: one for each label that has been counted. -/
abbrev Family := List (Text × Nat)

namespace Family

def get (family : Family) (label : Text) : Nat :=
  (family.lookup label).getD 0

/-- One more of a label, whose counter is created where there is none. -/
def inc (label : Text) : Family → Family
  | [] => [(label, 1)]
  | (other, count) :: family =>
      if other = label then (other, count + 1) :: family
      else (other, count) :: inc label family

@[simp]
theorem get_nil (label : Text) : get [] label = 0 :=
  rfl

theorem get_cons (other label : Text) (count : Nat) (family : Family) :
    get ((other, count) :: family) label =
      if label = other then count else get family label := by
  by_cases same : label = other
  · subst same
    simp [get]
  · have differs : (label == other) = false := by simpa using same
    simp [get, List.lookup_cons, differs, same]

theorem get_inc (family : Family) (label other : Text) :
    get (inc label family) other =
      if other = label then get family other + 1 else get family other := by
  induction family with
  | nil =>
      by_cases same : other = label
      · simp [inc, get_cons, same]
      · simp [inc, get_cons, same]
  | cons entry family ih =>
      obtain ⟨first, count⟩ := entry
      by_cases counted : first = label
      · subst counted
        by_cases same : other = first
        · simp [inc, get_cons, same]
        · simp [inc, get_cons, same]
      · by_cases same : other = first
        · subst same
          simp [inc, get_cons, counted]
        · simp [inc, get_cons, counted, same, ih]

end Family

/-- The numbers this deployment publishes: retrievals by how they ended,
failures by why, callback requests by what they were answered with, whether a
document is available, and when one was last published. -/
structure Metrics where
  retrievals : Family
  failures : Family
  callbacks : Family
  available : Nat
  publishedAt : Nat
  deriving DecidableEq

namespace Metrics

def new : Metrics where
  retrievals := []
  failures := []
  callbacks := []
  available := 0
  publishedAt := 0

def count (metrics : Metrics) (outcome : Text) : Metrics :=
  { metrics with retrievals := metrics.retrievals.inc outcome }

def published (metrics : Metrics) (now : Nat) : Metrics :=
  { metrics.count "published".toList with available := 1, publishedAt := now }

def unchanged (metrics : Metrics) : Metrics :=
  metrics.count "unchanged".toList

def failed (metrics : Metrics) (kind : Text) : Metrics :=
  { metrics.count "failed".toList with failures := metrics.failures.inc kind }

def callbackServed (metrics : Metrics) : Metrics :=
  { metrics with callbacks := metrics.callbacks.inc "document".toList }

def callbackUnavailable (metrics : Metrics) : Metrics :=
  { metrics with callbacks := metrics.callbacks.inc "unavailable".toList }

end Metrics

structure AppState where
  callback : Option Published
  allowedOrigins : List Admitted
  ceremonyConfig : Bytes
  failure : Option Text
  metrics : Metrics
  deriving DecidableEq

structure Refresher where
  upstream : Upstream
  allowedOrigins : List Admitted

structure Bridge where
  state : AppState
  refresher : Refresher

variable (crates : Crates)

/-- Check the deployment written in `settings` and build what the routes
read. -/
def Bridge.start (settings : Settings) : Except Error Bridge := do
  let deployment ← Deployment.checked crates settings
  let upstream ← Upstream.new crates deployment.ccdpOrigin
  return ⟨⟨none, deployment.allowedOrigins, deployment.ceremonyConfig crates, none, Metrics.new⟩,
    ⟨upstream, deployment.allowedOrigins⟩⟩

variable {crates}

/-- What a started deployment consists of: nothing served, nothing recorded,
nothing counted. -/
theorem Bridge.start_eq_ok_iff {settings : Settings} {bridge : Bridge} :
    Bridge.start crates settings = .ok bridge ↔
      ∃ deployment upstream, Deployment.checked crates settings = .ok deployment ∧
        Upstream.new crates deployment.ccdpOrigin = .ok upstream ∧
        bridge = ⟨⟨none, deployment.allowedOrigins, deployment.ceremonyConfig crates, none,
          Metrics.new⟩, ⟨upstream, deployment.allowedOrigins⟩⟩ := by
  simp only [Bridge.start, bind_eq_ok_iff]
  constructor
  · rintro ⟨deployment, accepted, upstream, created, same⟩
    exact ⟨deployment, upstream, accepted, created, (Except.ok.inj same).symm⟩
  · rintro ⟨deployment, upstream, accepted, created, rfl⟩
    exact ⟨deployment, accepted, upstream, created, rfl⟩

theorem Bridge.callback_of_start {settings : Settings} {bridge : Bridge}
    (started : Bridge.start crates settings = .ok bridge) : bridge.state.callback = none := by
  obtain ⟨_, _, _, _, rfl⟩ := start_eq_ok_iff.mp started
  rfl

variable (crates)

def AppState.etag (state : AppState) : Option Text :=
  state.callback.bind Published.etag

/-- Whether the same document under the same validator is what is already
served. -/
def AppState.serves (state : AppState) (published : Published) : Bool :=
  state.callback.any fun current =>
    current.etag = published.etag ∧ current.document.body = published.document.body

theorem AppState.isSome_callback_of_isSome_etag {state : AppState}
    (asked : state.etag.isSome) : state.callback.isSome := by
  cases served : state.callback with
  | none => simp [AppState.etag, served] at asked
  | some published => rfl

theorem AppState.isSome_callback_of_serves {state : AppState} {published : Published}
    (serves : state.serves published = true) : state.callback.isSome := by
  cases served : state.callback with
  | none => simp [AppState.serves, served] at serves
  | some current => rfl

namespace Refresher

def reason (refresher : Refresher) (error : FetchError) : Text :=
  refresher.upstream.url ++ ": ".toList ++ error.toText crates

/-- One retrieval, before anything is counted: `true` replaced what is served.
`none` where building the request panics. -/
def published (refresher : Refresher) (state : AppState) (answer : Answer) :
    Option (AppState × Except FetchError Bool) :=
  (refresher.upstream.retrieve crates refresher.allowedOrigins state.etag answer).map fun
    | .error error => (state, .error error)
    | .ok none => (state, .ok false)
    | .ok (some published) =>
        if state.serves published then (state, .ok false)
        -- The document and its policy replace the old pair together.
        else ({ state with callback := some published }, .ok true)

/-- What is counted and recorded of a retrieval. -/
def counted (refresher : Refresher) (state : AppState) (now : Nat) :
    Except FetchError Bool → AppState
  | .ok true => { state with failure := none, metrics := state.metrics.published now }
  | .ok false => { state with metrics := state.metrics.unchanged }
  | .error error =>
      { state with
        metrics := state.metrics.failed error.kind
        failure := some (refresher.reason crates error) }

/-- One retrieval, counted and recorded: `true` replaced the document, `false`
found nothing to replace it with, and an error left everything as it was. -/
def revalidate (refresher : Refresher) (state : AppState) (answer : Answer) (now : Nat) :
    Option (AppState × Except FetchError Bool) :=
  (refresher.published crates state answer).map fun (state, outcome) =>
    (refresher.counted crates state now outcome, outcome)

end Refresher

end LibidBridge
