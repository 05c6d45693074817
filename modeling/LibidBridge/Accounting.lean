import LibidBridge.FailureReason

/-!
# What the metrics account for

However requests come in between the revalidations, the counters, the gauge
and the timestamp agree with what has happened: every retrieval is counted by
how it ended and every failure by its kind, the gauge says whether a document
is served, and every callback request without a body is counted by what it is
answered with, just before it is answered.
-/

namespace LibidBridge

variable {crates : Crates}

/-- The sum of a family over all its labels. -/
def Family.total : Family → Nat
  | [] => 0
  | (_, count) :: family => count + total family

theorem Family.total_inc (family : Family) (label : Text) :
    (family.inc label).total = family.total + 1 := by
  induction family with
  | nil => rfl
  | cons entry family ih =>
      obtain ⟨first, count⟩ := entry
      by_cases counted : first = label
      · simp only [inc, counted, if_true, total]
        omega
      · simp only [inc, counted, if_false, total, ih]
        omega

def isFailure : Except FetchError Bool → Bool
  | .ok _ => false
  | .error _ => true

def isFailureOf (kind : Text) : Except FetchError Bool → Bool
  | .ok _ => false
  | .error error => error.kind = kind

/-- What a revalidation that ended this way is counted as. -/
def endedAs : Except FetchError Bool → Text
  | .ok true => "published".toList
  | .ok false => "unchanged".toList
  | .error _ => "failed".toList

theorem endedAs_eq_published_iff {outcome : Except FetchError Bool} :
    endedAs outcome = "published".toList ↔ outcome = .ok true := by
  rcases outcome with error | _ | _
  · exact iff_of_false (by decide : "failed".toList ≠ "published".toList) (by simp)
  · exact iff_of_false (by decide : "unchanged".toList ≠ "published".toList) (by simp)
  · exact iff_of_true rfl rfl

theorem endedAs_eq_unchanged_iff {outcome : Except FetchError Bool} :
    endedAs outcome = "unchanged".toList ↔ outcome = .ok false := by
  rcases outcome with error | _ | _
  · exact iff_of_false (by decide : "failed".toList ≠ "unchanged".toList) (by simp)
  · exact iff_of_true rfl rfl
  · exact iff_of_false (by decide : "published".toList ≠ "unchanged".toList) (by simp)

theorem endedAs_eq_failed_iff {outcome : Except FetchError Bool} :
    endedAs outcome = "failed".toList ↔ isFailure outcome = true := by
  rcases outcome with error | _ | _
  · exact iff_of_true rfl rfl
  · exact iff_of_false (by decide : "unchanged".toList ≠ "failed".toList) (by simp [isFailure])
  · exact iff_of_false (by decide : "published".toList ≠ "failed".toList) (by simp [isFailure])

/-- Every revalidation replaces the document, finds it current or fails. -/
theorem length_eq_of_outcomes (outcomes : List (Except FetchError Bool)) :
    outcomes.count (.ok true) + outcomes.count (.ok false) + outcomes.countP isFailure =
      outcomes.length := by
  induction outcomes with
  | nil => rfl
  | cons outcome outcomes ih =>
      rw [List.count_cons, List.count_cons, List.countP_cons, List.length_cons, ← ih]
      rcases outcome with error | _ | _
      · simp [isFailure]
        omega
      · simp [isFailure]
        omega
      · simp [isFailure]
        omega

theorem Refresher.metrics_of_revalidate {refresher : Refresher} {state next : AppState}
    {answer : Answer} {now : Nat} {outcome : Except FetchError Bool}
    (revalidated : refresher.revalidate crates state answer now = some (next, outcome)) :
    next.metrics = (refresher.counted crates state now outcome).metrics := by
  cases revalidated_of_revalidate revalidated <;> rfl

/-- Every outcome is counted once, by how it ended. -/
theorem Refresher.retrievals_counted (refresher : Refresher) (state : AppState) (now : Nat)
    (outcome : Except FetchError Bool) :
    (refresher.counted crates state now outcome).metrics.retrievals =
      state.metrics.retrievals.inc (endedAs outcome) := by
  rcases outcome with error | _ | _ <;> rfl

/-- A failure is counted once more, by its kind, and nothing else is. -/
theorem Refresher.failures_counted (refresher : Refresher) (state : AppState) (now : Nat)
    (outcome : Except FetchError Bool) :
    (∀ kind, (refresher.counted crates state now outcome).metrics.failures.get kind =
      state.metrics.failures.get kind + if isFailureOf kind outcome then 1 else 0) ∧
    (refresher.counted crates state now outcome).metrics.failures.total =
      state.metrics.failures.total + if isFailure outcome then 1 else 0 := by
  rcases outcome with error | _ | _
  · constructor
    · intro kind
      change (state.metrics.failures.inc error.kind).get kind = _
      rw [Family.get_inc]
      by_cases same : kind = error.kind
      · simp [isFailureOf, same]
      · simp [isFailureOf, same, Ne.symm same]
    · exact Family.total_inc state.metrics.failures error.kind
  · exact ⟨fun _ => rfl, rfl⟩
  · exact ⟨fun _ => rfl, rfl⟩

/-- The counters and the gauge agree with the revalidations that have
returned. -/
structure CountsOutcomes (state : AppState) (outcomes : List (Except FetchError Bool)) :
    Prop where
  retrievals : ∀ label, state.metrics.retrievals.get label =
    outcomes.countP fun outcome => endedAs outcome = label
  kinds : ∀ kind, state.metrics.failures.get kind = outcomes.countP (isFailureOf kind)
  failures : state.metrics.failures.total = outcomes.countP isFailure
  available : state.metrics.available = if .ok true ∈ outcomes then 1 else 0
  served : state.callback.isSome = true ↔ .ok true ∈ outcomes

theorem CountsOutcomes.get_eq {state : AppState} {outcomes : List (Except FetchError Bool)}
    (counts : CountsOutcomes state outcomes) {label : Text}
    {holds : Except FetchError Bool → Bool}
    (same : ∀ outcome, endedAs outcome = label ↔ holds outcome = true) :
    state.metrics.retrievals.get label = outcomes.countP holds := by
  rw [counts.retrievals]
  apply List.countP_congr
  intro outcome _
  rw [decide_eq_true_eq]
  exact same outcome

theorem countsOutcomes_step {refresher : Refresher}
    {past next : AppState × List (Except FetchError Bool)} {tick : Refresher.Tick}
    (counts : CountsOutcomes past.1 past.2)
    (stepped : refresher.returning crates past tick = some next) :
    CountsOutcomes next.1 next.2 := by
  obtain ⟨⟨state, outcome⟩, revalidated, rfl⟩ := Option.map_eq_some_iff.mp stepped
  have metrics := Refresher.metrics_of_revalidate revalidated
  have failures := @Refresher.failures_counted crates refresher past.1 tick.now outcome
  rw [← metrics] at failures
  constructor
  · intro label
    have retrievals := @Refresher.retrievals_counted crates refresher past.1 tick.now outcome
    rw [← metrics] at retrievals
    rw [retrievals, Family.get_inc, counts.retrievals label, List.countP_append,
      List.countP_singleton]
    by_cases same : label = endedAs outcome
    · simp [same]
    · simp [same, Ne.symm same]
  · intro kind
    rw [failures.1, counts.kinds kind, List.countP_append, List.countP_singleton]
  · rw [failures.2, counts.failures, List.countP_append, List.countP_singleton]
  · rw [metrics]
    rcases outcome with error | _ | _
    · simpa [Refresher.counted, Metrics.failed, Metrics.count] using counts.available
    · simpa [Refresher.counted, Metrics.unchanged, Metrics.count] using counts.available
    · simp [Refresher.counted, Metrics.published]
  · by_cases replaced : outcome = .ok true
    · subst replaced
      cases Refresher.revalidated_of_revalidate revalidated with
      | replaced published fresh => simp [Refresher.counted]
    · rw [Refresher.callback_of_kept revalidated replaced, counts.served, List.mem_append,
        List.mem_singleton]
      simp [Ne.symm replaced]

theorem countsOutcomes_of_run {settings : Settings} {bridge : Bridge}
    (started : Bridge.start crates settings = .ok bridge) {ticks : List Refresher.Tick}
    {past : AppState × List (Except FetchError Bool)}
    (ran : run (bridge.refresher.returning crates) (bridge.state, []) ticks = some past) :
    CountsOutcomes past.1 past.2 := by
  have start : CountsOutcomes bridge.state [] := by
    obtain ⟨_, _, _, _, rfl⟩ := Bridge.start_eq_ok_iff.mp started
    exact
      { retrievals := fun _ => rfl
        kinds := fun _ => rfl
        failures := rfl
        available := rfl
        served := by simp }
  exact @run_invariant _ _ _ (fun past => CountsOutcomes past.1 past.2)
    (fun _ _ _ counts stepped => countsOutcomes_step counts stepped) _ _ _ start ran

/-- Whether a step of the system replaced what is served. -/
def replaces (taken : System × Event × System) : Bool :=
  taken.2.2.state.callback ≠ taken.1.state.callback

/-- The time a step wrote as that of the publication. -/
def publicationTime (taken : System × Event × System) : Option Nat :=
  match taken.2.1 with
  | .proceed now => if taken.1.refreshing = .settingPublishedAt then some now else none
  | _ => none

namespace System

section

variable (crates : Crates) (bridge : Bridge) (events : List Event)

/-- How many times what is served was replaced. -/
def replacements : Nat :=
  (transitions (step crates bridge.refresher) (start bridge) events).countP replaces

/-- The times of the publications, in order. -/
def publicationTimes : List Nat :=
  (transitions (step crates bridge.refresher) (start bridge) events).filterMap publicationTime

end

/-- A document is about to replace what is served only where it is not served
already. -/
theorem replacing_step {refresher : Refresher} {system next : System} {event : Event}
    (fresh : ∀ published, system.refreshing = .replacing published →
      system.state.serves published = false)
    (stepped : step crates refresher system event = some next) (published : Published)
    (replacing : next.refreshing = .replacing published) :
    next.state.serves published = false := by
  cases steps_of_step stepped with
  | begin idle => cases replacing
  | receive answer etag awaiting =>
      unfold received at replacing
      split at replacing <;> cases replacing
  | arrive body => exact fresh published replacing
  | advance index handler state after present advances =>
      rw [AppState.serves, callback_advance advances]
      exact fresh published replacing
  | proceed now next proceeds =>
      obtain ⟨state, refreshing, returned, handlers⟩ := system
      cases refreshing with
      | idle | awaiting | panicked => cases proceeds
      | comparing found =>
          cases proceeds
          dsimp only at replacing ⊢
          split_ifs at replacing with current
          cases replacing
          simpa using current
      | _ =>
          cases proceeds
          cases replacing

theorem callback_ne_of_not_serves {state : AppState} {published : Published}
    (fresh : state.serves published = false) : state.callback ≠ some published := by
  intro served
  simp [AppState.serves, served] at fresh

/-- What a step can do to the time of publication: leave it, or set it as the
last of a revalidation that replaced the document. -/
theorem step_publishedAt {refresher : Refresher} {system next : System} {event : Event}
    (stepped : step crates refresher system event = some next) :
    (publicationTime (system, event, next) = none ∧
      next.state.metrics.publishedAt = system.state.metrics.publishedAt ∧
      next.returned.count (.ok true) = system.returned.count (.ok true)) ∨
    ∃ now, publicationTime (system, event, next) = some now ∧
      next.state.metrics.publishedAt = now ∧ next.returned = system.returned ++ [.ok true] := by
  rcases step_uncounted stepped with ⟨unproceeded, same, returned⟩ | ⟨now, rfl, proceeds⟩
  · left
    refine ⟨?_, congrArg (fun state => state.metrics.publishedAt) same, by rw [returned]⟩
    cases event with
    | proceed now => exact absurd rfl (unproceeded now)
    | _ => rfl
  · obtain ⟨state, refreshing, before, handlers⟩ := system
    cases refreshing with
    | idle | awaiting | panicked => cases proceeds
    | settingPublishedAt =>
        cases proceeds
        exact Or.inr ⟨now, rfl, rfl, rfl⟩
    | countingUnchanged | recording =>
        cases proceeds
        exact Or.inl ⟨rfl, rfl, by simp⟩
    | _ =>
        cases proceeds
        exact Or.inl ⟨rfl, rfl, rfl⟩

theorem replacements_snoc {bridge : Bridge} {events : List Event} {system next : System}
    {event : Event}
    (ran : run (step crates bridge.refresher) (start bridge) events = some system)
    (stepped : step crates bridge.refresher system event = some next) :
    replacements crates bridge (events ++ [event]) = replacements crates bridge events +
      if next.state.callback ≠ system.state.callback then 1 else 0 := by
  rw [replacements, transitions_snoc ran stepped, List.countP_append, List.countP_singleton]
  simp [replacements, replaces]

theorem publicationTimes_snoc {bridge : Bridge} {events : List Event} {system next : System}
    {event : Event}
    (ran : run (step crates bridge.refresher) (start bridge) events = some system)
    (stepped : step crates bridge.refresher system event = some next) :
    publicationTimes crates bridge (events ++ [event]) =
      publicationTimes crates bridge events ++
        (publicationTime (system, event, next)).toList := by
  rw [publicationTimes, transitions_snoc ran stepped, List.filterMap_append]
  cases found : publicationTime (system, event, next) <;> simp [publicationTimes, found]

/-- A replacement is one of the revalidation under way until that returns, and
then one of those that have. -/
theorem replaced_step {refresher : Refresher} {system next : System} {event : Event}
    (fresh : ∀ published, system.refreshing = .replacing published →
      system.state.serves published = false)
    (stepped : step crates refresher system event = some next) :
    (system.returned.count (.ok true) + if system.refreshing.publishing then 1 else 0) +
        (if next.state.callback ≠ system.state.callback then 1 else 0) =
      next.returned.count (.ok true) + if next.refreshing.publishing then 1 else 0 := by
  rcases step_callback stepped with ⟨returned, callback, publishing⟩ |
    ⟨published, replacing, returned, replaced, clearing⟩ |
    ⟨outcome, returned, callback, idle, publishing⟩
  · simp [returned, callback, publishing]
  · have changed : next.state.callback ≠ system.state.callback := by
      rw [replaced]
      exact (callback_ne_of_not_serves (fresh published replacing)).symm
    have before : system.refreshing.publishing = false := by
      rw [replacing]
      rfl
    have after : next.refreshing.publishing = true := by
      rw [clearing]
      rfl
    simp [returned, changed, before, after]
  · have after : next.refreshing.publishing = false := by
      rw [idle]
      rfl
    rw [returned, List.count_append]
    by_cases finished : system.refreshing.publishing = true
    · simp [callback, finished, after, publishing.mp finished]
    · have kept : outcome ≠ .ok true := fun replaced => finished (publishing.mpr replaced)
      simp [callback, finished, after, kept]

/-- The replacements are those of the revalidations that returned so, and of
the one under way once it has written; each has left its time. -/
structure CountsReplacements (crates : Crates) (bridge : Bridge) (events : List Event)
    (system : System) : Prop where
  replacements : replacements crates bridge events =
    system.returned.count (.ok true) + if system.refreshing.publishing then 1 else 0
  times : (publicationTimes crates bridge events).length = system.returned.count (.ok true)
  last : system.state.metrics.publishedAt =
    (publicationTimes crates bridge events).getLast?.getD 0
  fresh : ∀ published, system.refreshing = .replacing published →
    system.state.serves published = false

theorem countsReplacements_snoc {bridge : Bridge} {events : List Event}
    {system next : System} {event : Event}
    (ran : run (step crates bridge.refresher) (start bridge) events = some system)
    (counts : CountsReplacements crates bridge events system)
    (stepped : step crates bridge.refresher system event = some next) :
    CountsReplacements crates bridge (events ++ [event]) next := by
  have times := publicationTimes_snoc ran stepped
  have dated := step_publishedAt stepped
  constructor
  · rw [replacements_snoc ran stepped, counts.replacements]
    exact replaced_step counts.fresh stepped
  · rw [times, List.length_append, counts.times]
    rcases dated with ⟨undated, _, returned⟩ | ⟨now, dated, _, returned⟩
    · rw [undated, returned]
      rfl
    · rw [dated, returned, List.count_append]
      rfl
  · rw [times]
    rcases dated with ⟨undated, same, _⟩ | ⟨now, dated, same, _⟩
    · rw [undated, same, counts.last, Option.toList_none, List.append_nil]
    · rw [dated, same, Option.toList_some, List.getLast?_append]
      rfl
  · exact replacing_step counts.fresh stepped

theorem countsReplacements_of_run {settings : Settings} {bridge : Bridge}
    (started : Bridge.start crates settings = .ok bridge) {events : List Event}
    {system : System}
    (ran : run (step crates bridge.refresher) (start bridge) events = some system) :
    CountsReplacements crates bridge events system := by
  apply run_history _
    (fun _ _ _ _ before counts stepped => countsReplacements_snoc before counts stepped) ran
  obtain ⟨_, _, _, _, rfl⟩ := Bridge.start_eq_ok_iff.mp started
  exact
    { replacements := rfl
      times := rfl
      last := rfl
      fresh := fun published replacing => by cases replacing }

theorem step_available {refresher : Refresher} {system next : System} {event : Event}
    (stepped : step crates refresher system event = some next) :
    next.state.metrics.available = system.state.metrics.available ∨
      system.refreshing = .settingAvailable := by
  rcases step_uncounted stepped with ⟨_, same, _⟩ | ⟨now, rfl, proceeds⟩
  · exact Or.inl (congrArg (fun state => state.metrics.available) same)
  · obtain ⟨state, refreshing, before, handlers⟩ := system
    cases refreshing with
    | idle | awaiting | panicked => cases proceeds
    | settingAvailable => exact Or.inr rfl
    | _ =>
        cases proceeds
        exact Or.inl rfl

/-- The gauge is set only where a document is served already. -/
structure AvailableServed (system : System) : Prop where
  published : system.refreshing.publishing = true → system.state.callback.isSome = true
  available : system.state.metrics.available = 1 → system.state.callback.isSome = true

theorem availableServed_step {refresher : Refresher} {system next : System} {event : Event}
    (served : system.AvailableServed)
    (stepped : step crates refresher system event = some next) : next.AvailableServed where
  published := publishing_step served.published stepped
  available := by
    intro available
    rcases step_available stepped with same | setting
    · exact isSome_callback_step (served.available (same ▸ available)) stepped
    · have publishing : system.refreshing.publishing = true := by
        rw [setting]
        rfl
      exact isSome_callback_step (served.published publishing) stepped

theorem availableServed_of_run {settings : Settings} {bridge : Bridge}
    (started : Bridge.start crates settings = .ok bridge) {events : List Event}
    {system : System}
    (ran : run (step crates bridge.refresher) (start bridge) events = some system) :
    system.AvailableServed := by
  apply run_invariant (fun _ _ _ served stepped => availableServed_step served stepped) _ ran
  obtain ⟨_, _, _, _, rfl⟩ := Bridge.start_eq_ok_iff.mp started
  constructor
  · intro publishing
    cases publishing
  · intro available
    cases available

end System

/-- A callback request arrives, with a body or without one. -/
def Event.arrivesWith (carries : Bool) : Event → Bool
  | .arrive body => carriesBody body == carries
  | _ => false

/-- What has become of a request: it is not counted yet; it was answered with
the document; it is counted as unavailable and about to be answered so, or was;
or it was refused for its body. -/
inductive Standing
  | uncounted
  | served
  | explaining
  | unavailable
  | refused
  deriving DecidableEq

def Handler.standing : Handler → Standing
  | .reading | .counting _ => .uncounted
  | .explaining => .explaining
  | .answered response =>
      if response.status = OK then .served
      else if response.status = SERVICE_UNAVAILABLE then .unavailable
      else .refused

/-- What becomes of a request when it arrives. -/
def Standing.arrived (body : Body) : Standing :=
  if carriesBody body then .refused else .uncounted

theorem count_set_add {α : Type*} [DecidableEq α] {elements : List α} {index : Nat}
    {before : α} (present : elements[index]? = some before) (after counted : α) :
    (elements.set index after).count counted + (if before = counted then 1 else 0) =
      elements.count counted + if after = counted then 1 else 0 := by
  obtain ⟨inside, found⟩ := List.getElem?_eq_some_iff.mp present
  have atMost : (if elements[index] == counted then 1 else 0) ≤ elements.count counted :=
    List.boole_getElem_le_count inside
  rw [List.count_set inside]
  simp only [found, beq_iff_eq] at atMost ⊢
  omega

theorem Metrics.get_callbackServed (metrics : Metrics) :
    metrics.callbackServed.callbacks.get "document".toList =
        metrics.callbacks.get "document".toList + 1 ∧
      metrics.callbackServed.callbacks.get "unavailable".toList =
        metrics.callbacks.get "unavailable".toList :=
  ⟨(Family.get_inc _ _ _).trans (if_pos rfl), (Family.get_inc _ _ _).trans (if_neg (by decide))⟩

theorem Metrics.get_callbackUnavailable (metrics : Metrics) :
    metrics.callbackUnavailable.callbacks.get "document".toList =
        metrics.callbacks.get "document".toList ∧
      metrics.callbackUnavailable.callbacks.get "unavailable".toList =
        metrics.callbacks.get "unavailable".toList + 1 :=
  ⟨(Family.get_inc _ _ _).trans (if_neg (by decide)), (Family.get_inc _ _ _).trans (if_pos rfl)⟩

namespace System

def standings (system : System) : List Standing :=
  system.handlers.map Handler.standing

/-- Every request is counted once, by what it is answered with, and one with a
body is not counted. -/
structure CountsRequests (events : List Event) (callbacks : Family)
    (standings : List Standing) : Prop where
  document : callbacks.get "document".toList = standings.count .served
  unavailable : callbacks.get "unavailable".toList =
    standings.count .unavailable + standings.count .explaining
  bodiless : events.countP (Event.arrivesWith false) =
    callbacks.get "document".toList + callbacks.get "unavailable".toList +
      standings.count .uncounted
  refused : events.countP (Event.arrivesWith true) = standings.count .refused

/-- What a request's next step counts: nothing while it reads, the request
under what it will be answered with, and nothing more when it is. -/
inductive Counted (before next : Family) : Standing → Standing → Prop
  | read (same : next = before) : Counted before next .uncounted .uncounted
  | served (document : next.get "document".toList = before.get "document".toList + 1)
      (unavailable : next.get "unavailable".toList = before.get "unavailable".toList) :
      Counted before next .uncounted .served
  | unserved (document : next.get "document".toList = before.get "document".toList)
      (unavailable : next.get "unavailable".toList = before.get "unavailable".toList + 1) :
      Counted before next .uncounted .explaining
  | explained (same : next = before) : Counted before next .explaining .unavailable

theorem counted_advance {state after : AppState} {handler next : Handler}
    (advances : advance state handler = some (after, next)) :
    Counted state.metrics.callbacks after.metrics.callbacks handler.standing next.standing := by
  rcases handler with _ | (_ | published) | _ | response <;> cases advances
  · exact .read rfl
  · have counted := Metrics.get_callbackUnavailable state.metrics
    exact .unserved counted.1 counted.2
  · have counted := Metrics.get_callbackServed state.metrics
    exact .served counted.1 counted.2
  · exact .explained rfl

theorem CountsRequests.counted {events : List Event} {before next : Family}
    {standings : List Standing} {index : Nat} {standing after : Standing}
    (counts : CountsRequests events before standings)
    (present : standings[index]? = some standing)
    (counted : Counted before next standing after) :
    CountsRequests events next (standings.set index after) := by
  obtain ⟨document, unavailable, bodiless, refused⟩ := counts
  have moved := count_set_add present after
  have served := moved .served
  have refusals := moved .unavailable
  have explaining := moved .explaining
  have uncounted := moved .uncounted
  have malformed := moved .refused
  cases counted with
  | read same | explained same =>
      subst same
      simp only [reduceCtorEq, if_true, if_false] at *
      constructor <;> omega
  | served | unserved =>
      simp only [reduceCtorEq, if_true, if_false] at *
      constructor <;> omega

theorem CountsRequests.arrived {events : List Event} {callbacks : Family}
    {standings : List Standing} (counts : CountsRequests events callbacks standings)
    (body : Body) :
    CountsRequests (events ++ [.arrive body]) callbacks
      (standings ++ [Standing.arrived body]) := by
  obtain ⟨document, unavailable, bodiless, refused⟩ := counts
  have counted : ∀ standing, (standings ++ [Standing.arrived body]).count standing =
      standings.count standing + if Standing.arrived body = standing then 1 else 0 := by
    intro standing
    rw [List.count_append, List.count_singleton]
    simp only [beq_iff_eq]
  have arrived : ∀ carries, (events ++ [Event.arrive body]).countP (Event.arrivesWith carries) =
      events.countP (Event.arrivesWith carries) + if carriesBody body = carries then 1 else 0 := by
    intro carries
    rw [List.countP_append, List.countP_singleton]
    simp only [Event.arrivesWith, beq_iff_eq]
  unfold Standing.arrived at counted ⊢
  constructor
  · rw [document, counted]
    cases carriesBody body <;> rfl
  · rw [unavailable, counted, counted]
    cases carriesBody body <;> rfl
  · rw [arrived, bodiless, counted]
    cases carriesBody body <;> rfl
  · rw [arrived, refused, counted]
    cases carriesBody body <;> rfl

theorem standing_arrived (body : Body) :
    (arrived body).standing = Standing.arrived body := by
  unfold arrived Standing.arrived
  split_ifs <;> rfl

theorem callbacks_proceed {refresher : Refresher} {system next : System} {now : Nat}
    (proceeds : proceed crates refresher system now = some next) :
    next.state.metrics.callbacks = system.state.metrics.callbacks := by
  unfold proceed at proceeds
  split at proceeds <;> cases proceeds <;> rfl

theorem countsRequests_snoc {refresher : Refresher} {events : List Event}
    {system next : System} {event : Event}
    (counts : CountsRequests events system.state.metrics.callbacks system.standings)
    (stepped : step crates refresher system event = some next) :
    CountsRequests (events ++ [event]) next.state.metrics.callbacks next.standings := by
  have unarrived : (∀ carries, event.arrivesWith carries = false) →
      CountsRequests (events ++ [event]) system.state.metrics.callbacks system.standings := by
    intro none
    obtain ⟨document, unavailable, bodiless, refused⟩ := counts
    constructor
    · exact document
    · exact unavailable
    · rw [List.countP_append, bodiless, List.countP_singleton, none]
      rfl
    · rw [List.countP_append, refused, List.countP_singleton, none]
      rfl
  cases steps_of_step stepped with
  | begin idle => exact unarrived fun _ => rfl
  | receive answer etag awaiting => exact unarrived fun _ => rfl
  | proceed now next proceeds =>
      rw [callbacks_proceed proceeds, standings, handlers_proceed proceeds]
      exact unarrived fun _ => rfl
  | arrive body =>
      have joined : standings { system with handlers := system.handlers ++ [arrived body] } =
          system.standings ++ [(arrived body).standing] := List.map_append
      rw [joined, standing_arrived]
      exact counts.arrived body
  | advance index handler state after present advances =>
      have moved : standings { system with
          state := state, handlers := system.handlers.set index after } =
          system.standings.set index after.standing := List.map_set
      have stood : system.standings[index]? = some handler.standing := by
        rw [standings, List.getElem?_map, present, Option.map_some]
      have unarrivedCounts := unarrived fun _ => rfl
      rw [moved]
      exact unarrivedCounts.counted stood (counted_advance advances)

theorem countsRequests_of_run {settings : Settings} {bridge : Bridge}
    (started : Bridge.start crates settings = .ok bridge) {events : List Event}
    {system : System}
    (ran : run (step crates bridge.refresher) (start bridge) events = some system) :
    CountsRequests events system.state.metrics.callbacks system.standings := by
  have begins : CountsRequests [] (start bridge).state.metrics.callbacks
      (start bridge).standings := by
    obtain ⟨_, _, _, _, rfl⟩ := Bridge.start_eq_ok_iff.mp started
    exact ⟨rfl, rfl, rfl, rfl⟩
  exact @run_history _ _ _
    (fun events system =>
      CountsRequests events system.state.metrics.callbacks system.standings) _ begins
    (fun _ _ _ _ _ counts stepped => countsRequests_snoc counts stepped) _ _ ran

/-- What the metrics say of the retrievals while no revalidation is under
way. -/
structure AccountsRetrievals (crates : Crates) (bridge : Bridge) (events : List Event)
    (system : System) : Prop where
  outcomes : system.state.metrics.retrievals.get "published".toList +
    system.state.metrics.retrievals.get "unchanged".toList +
    system.state.metrics.retrievals.get "failed".toList = system.returned.length
  published : system.state.metrics.retrievals.get "published".toList =
    replacements crates bridge events
  failures : system.state.metrics.failures.total =
    system.state.metrics.retrievals.get "failed".toList
  kinds : ∀ kind, system.state.metrics.failures.get kind =
    system.returned.countP (isFailureOf kind)
  available : system.state.metrics.available = 1 ↔ system.state.callback.isSome = true
  times : (publicationTimes crates bridge events).length = replacements crates bridge events
  publishedAt : system.state.metrics.publishedAt =
    (publicationTimes crates bridge events).getLast?.getD 0

theorem accountsRetrievals_of_idle {settings : Settings} {bridge : Bridge}
    (started : Bridge.start crates settings = .ok bridge) {events : List Event}
    {system : System}
    (ran : run (step crates bridge.refresher) (start bridge) events = some system)
    (idle : system.refreshing = .idle) : AccountsRetrievals crates bridge events system := by
  obtain ⟨ticks, base, returned, _, stands⟩ := refresher_run_of_run started ran
  obtain ⟨rfl, _⟩ := stands idle
  have counts := countsOutcomes_of_run started returned
  have replaced := countsReplacements_of_run started ran
  have published : system.state.metrics.retrievals.get "published".toList =
      system.returned.count (.ok true) :=
    counts.get_eq fun outcome => endedAs_eq_published_iff.trans beq_iff_eq.symm
  have unchanged : system.state.metrics.retrievals.get "unchanged".toList =
      system.returned.count (.ok false) :=
    counts.get_eq fun outcome => endedAs_eq_unchanged_iff.trans beq_iff_eq.symm
  have failed : system.state.metrics.retrievals.get "failed".toList =
      system.returned.countP isFailure :=
    counts.get_eq fun outcome => endedAs_eq_failed_iff
  have replacements : replacements crates bridge events = system.returned.count (.ok true) := by
    rw [replaced.replacements, idle]
    rfl
  constructor
  · rw [published, unchanged, failed]
    exact length_eq_of_outcomes system.returned
  · rw [published, replacements]
  · rw [failed]
    exact counts.failures
  · exact counts.kinds
  · have available : system.state.metrics.available =
        if .ok true ∈ system.returned then 1 else 0 := counts.available
    have served : system.state.callback.isSome = true ↔ .ok true ∈ system.returned :=
      counts.served
    rw [available, served]
    split_ifs with replaced <;> simp [replaced]
  · rw [replaced.times, replacements]
  · exact replaced.last

/-- The metrics account for everything, however requests come in between the
steps of a revalidation.  While none is under way every retrieval is counted by
how it ended, every failure by its kind, every replacement of what is served,
and the time is that of the last one; whenever the gauge is set a document is
served; and every request without a body is counted once, as served where it
was answered with the document, as unavailable where it was answered so or is
about to be.  A request is answered once it is past its last access to what is
shared: the document branch has none after its count. -/
theorem metrics_account {settings : Settings} {bridge : Bridge}
    (started : Bridge.start crates settings = .ok bridge) {events : List Event}
    {system : System}
    (ran : run (step crates bridge.refresher) (start bridge) events = some system) :
    (system.refreshing = .idle → AccountsRetrievals crates bridge events system) ∧
      (system.state.metrics.available = 1 → system.state.callback.isSome = true) ∧
      CountsRequests events system.state.metrics.callbacks system.standings := by
  refine ⟨?_, ?_, ?_⟩
  · intro idle
    exact accountsRetrievals_of_idle started ran idle
  · exact (availableServed_of_run started ran).available
  · exact countsRequests_of_run started ran

end System

namespace Reference

/-- A request is counted and not answered yet when the first document is
published, by a clock that reads the epoch. -/
def earlyPublication : List Event :=
  [.arrive ⟨true⟩, .advance 0, .advance 0, .begin,
    .receive (tick "'sha256-A='".toList []).answer, .proceed 0, .proceed 0, .proceed 0,
    .proceed 0, .proceed 0, .proceed 0]

theorem exists_earlyPublication :
    ∃ system, run (System.step Reference.crates bridge.refresher) (System.start bridge)
        earlyPublication = some system ∧
      system.refreshing = .idle ∧ system.returned = [.ok true] ∧
      system.state.metrics.publishedAt = 0 ∧ system.standings = [.explaining] ∧
      system.state.metrics.callbacks.get "unavailable".toList = 1 := by
  have observed : (run (System.step Reference.crates bridge.refresher) (System.start bridge)
      earlyPublication).map (fun system => (system.refreshing, system.returned,
        system.state.metrics.publishedAt, system.standings,
        system.state.metrics.callbacks.get "unavailable".toList)) =
          some (.idle, [.ok true], 0, [.explaining], 1) := by decide +kernel
  obtain ⟨system, ran, same⟩ := Option.map_eq_some_iff.mp observed
  simp only [Prod.mk.injEq] at same
  exact ⟨system, ran, same⟩

end Reference

theorem System.metrics_account_early :
    ∃ system, run (step Reference.crates Reference.bridge.refresher) (start Reference.bridge)
        Reference.earlyPublication = some system ∧
      AccountsRetrievals Reference.crates Reference.bridge Reference.earlyPublication system := by
  obtain ⟨system, ran, idle, _⟩ := Reference.exists_earlyPublication
  exact ⟨system, ran, (metrics_account Reference.start_settings ran).1 idle⟩

/-- The time of a publication can read as that of none, and a request is counted
before it is answered. -/
theorem System.published_at_epoch :
    ∃ system, run (step Reference.crates Reference.bridge.refresher) (start Reference.bridge)
        Reference.earlyPublication = some system ∧
      system.refreshing = .idle ∧
      ¬ (system.state.metrics.publishedAt = 0 ↔
        replacements Reference.crates Reference.bridge Reference.earlyPublication = 0) ∧
      system.state.metrics.callbacks.get "document".toList +
          system.state.metrics.callbacks.get "unavailable".toList ≠
        system.standings.count .served + system.standings.count .unavailable := by
  obtain ⟨system, ran, idle, returned, publishedAt, standings, counted⟩ :=
    Reference.exists_earlyPublication
  have replaced : replacements Reference.crates Reference.bridge
      Reference.earlyPublication = 1 := by
    rw [(countsReplacements_of_run Reference.start_settings ran).replacements, returned, idle]
    rfl
  refine ⟨system, ran, idle, ?_, ?_⟩
  · rw [publishedAt, replaced]
    decide
  · have none : system.standings.count .served + system.standings.count .unavailable = 0 := by
      rw [standings]
      rfl
    omega

end LibidBridge
