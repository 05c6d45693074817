import LibidBridge.Atomicity
import LibidBridge.FailurePage

/-!
# Why there is nothing to serve

The failure a deployment records is that of its last retrieval for as long as
it serves nothing, and a request that is told there is nothing is told why.
The first holds because a revalidation finds nothing new only where something
is served; the second where no publication clears the failure between the two
reads of one request.
-/

namespace LibidBridge

variable {crates : Crates}

namespace Reference

def timeout : FetchError :=
  .unreachable "the retrieval timed out".toList

end Reference

@[simp]
theorem AppState.failure_uncounted (state : AppState) :
    state.uncounted.failure = state.failure :=
  rfl

/-- The request has found that there is no document, and has not read why. -/
def Handler.unexplained : Handler → Bool
  | .counting none | .explaining => true
  | .reading | .counting (some _) | .answered _ => false

/-- The response is the page of a failed retrieval that has completed. -/
def NamesFailure (crates : Crates) (refresher : Refresher)
    (returned : List (Except FetchError Bool)) (response : Response) : Prop :=
  ∃ error, .error error ∈ returned ∧
    response = standingHeaders (unavailable (some (refresher.reason crates error)))

/-- A request that will be told why, or was. -/
structure Handler.Explained (crates : Crates) (refresher : Refresher) (failure : Option Text)
    (returned : List (Except FetchError Bool)) (handler : Handler) : Prop where
  pending : handler.unexplained = true → failure.isSome = true
  page : ∀ response, handler = .answered response → response.status = SERVICE_UNAVAILABLE →
    NamesFailure crates refresher returned response

theorem Handler.Explained.mono {refresher : Refresher} {failure later : Option Text}
    {returned more : List (Except FetchError Bool)} {handler : Handler}
    (explained : handler.Explained crates refresher failure returned)
    (known : handler.unexplained = true → failure.isSome = true → later.isSome = true)
    (failed : ∀ error, .error error ∈ returned → .error error ∈ more) :
    handler.Explained crates refresher later more where
  pending := fun pending => known pending (explained.pending pending)
  page := by
    intro response same status
    obtain ⟨error, member, page⟩ := explained.page response same status
    exact ⟨error, failed error member, page⟩

namespace System

/-- The failure is cleared while a request, of those from `first` on, stands
between its two reads. -/
def ClearsUnread (first : Nat) (system : System) (event : Event) : Prop :=
  (∃ now, event = .proceed now) ∧ system.refreshing = .clearing ∧
    ∃ index handler, first ≤ index ∧ system.handlers[index]? = some handler ∧
      handler.unexplained = true

/-- What a step can do to the failure recorded: leave it, clear it, or record
that of a revalidation that returns. -/
theorem step_failure {refresher : Refresher} {system next : System} {event : Event}
    (stepped : step crates refresher system event = some next) :
    (next.state.failure = system.state.failure ∧
      ∀ error, .error error ∈ next.returned ↔ .error error ∈ system.returned) ∨
    ((∃ now, event = .proceed now) ∧ system.refreshing = .clearing ∧
      next.returned = system.returned ∧ next.state.failure = none) ∨
    ∃ error, next.returned = system.returned ++ [.error error] ∧
      next.state.failure = some (refresher.reason crates error) := by
  rcases step_uncounted stepped with ⟨_, same, returned⟩ | ⟨now, rfl, proceeds⟩
  · have failure := congrArg AppState.failure same
    exact Or.inl ⟨failure, fun error => by rw [returned]⟩
  · obtain ⟨state, refreshing, before, handlers⟩ := system
    cases refreshing with
    | idle | awaiting | panicked => cases proceeds
    | clearing =>
        cases proceeds
        exact Or.inr (Or.inl ⟨⟨now, rfl⟩, rfl, rfl, rfl⟩)
    | recording error =>
        cases proceeds
        exact Or.inr (Or.inr ⟨error, rfl, rfl⟩)
    | settingPublishedAt | countingUnchanged =>
        cases proceeds
        exact Or.inl ⟨rfl, by simp⟩
    | comparing | replacing | countingPublished | settingAvailable | countingFailed |
        countingKind =>
        cases proceeds
        exact Or.inl ⟨rfl, fun _ => Iff.rfl⟩

/-- A failed retrieval that has completed stays so. -/
theorem error_mem_step {refresher : Refresher} {system next : System} {event : Event}
    (stepped : step crates refresher system event = some next) {error : FetchError}
    (failed : .error error ∈ system.returned) : .error error ∈ next.returned := by
  rcases step_failure stepped with ⟨_, same⟩ | ⟨_, _, same, _⟩ | ⟨_, same, _⟩
  · exact (same error).mpr failed
  · rwa [same]
  · rw [same]
    exact List.mem_append_left _ failed

/-- What is recorded is the failure of a retrieval that has completed, and once
one has failed there is a failure recorded or a document served. -/
structure RecordsFailures (crates : Crates) (refresher : Refresher) (system : System) :
    Prop where
  published : system.refreshing.publishing = true → system.state.callback.isSome = true
  recorded : ∀ why, system.state.failure = some why →
    ∃ error, .error error ∈ system.returned ∧ why = refresher.reason crates error
  failed : ∀ error, .error error ∈ system.returned →
    system.state.failure.isSome = true ∨ system.state.callback.isSome = true

theorem publishing_step {refresher : Refresher} {system next : System} {event : Event}
    (served : system.refreshing.publishing = true → system.state.callback.isSome = true)
    (stepped : step crates refresher system event = some next) :
    next.refreshing.publishing = true → next.state.callback.isSome = true := by
  rcases step_callback stepped with ⟨_, callback, publishing⟩ | ⟨_, _, _, replaced, _⟩ |
    ⟨_, _, _, idle, _⟩
  · rwa [callback, publishing]
  · rw [replaced]
    exact fun _ => rfl
  · rw [idle]
    intro publishing
    cases publishing

theorem recordsFailures_step {refresher : Refresher} {system next : System} {event : Event}
    (records : RecordsFailures crates refresher system)
    (stepped : step crates refresher system event = some next) :
    RecordsFailures crates refresher next where
  published := publishing_step records.published stepped
  recorded := by
    intro why found
    rcases step_failure stepped with ⟨same, returned⟩ | ⟨_, _, _, cleared⟩ |
      ⟨error, returned, recorded⟩
    · obtain ⟨error, failed, named⟩ := records.recorded why (same ▸ found)
      exact ⟨error, (returned error).mpr failed, named⟩
    · rw [cleared] at found
      cases found
    · rw [recorded] at found
      cases found
      exact ⟨error, by simp [returned], rfl⟩
  failed := by
    intro error failed
    have kept : system.state.callback.isSome = true → next.state.callback.isSome = true :=
      fun served => isSome_callback_step served stepped
    rcases step_failure stepped with ⟨same, returned⟩ | ⟨_, clearing, _, _⟩ | ⟨_, _, recorded⟩
    · rw [same]
      exact (records.failed error ((returned error).mp failed)).imp_right kept
    · right
      apply kept
      apply records.published
      rw [clearing]
      rfl
    · rw [recorded]
      exact Or.inl rfl

theorem recordsFailures_of_run {settings : Settings} {bridge : Bridge}
    (started : Bridge.start crates settings = .ok bridge) {events : List Event}
    {system : System}
    (ran : run (step crates bridge.refresher) (start bridge) events = some system) :
    RecordsFailures crates bridge.refresher system := by
  apply run_invariant (fun _ _ _ records stepped => recordsFailures_step records stepped) _ ran
  obtain ⟨_, _, _, _, rfl⟩ := Bridge.start_eq_ok_iff.mp started
  constructor
  · intro publishing
    cases publishing
  · intro why found
    cases found
  · intro error failed
    cases failed

theorem explained_arrived (refresher : Refresher) (failure : Option Text)
    (returned : List (Except FetchError Bool)) (body : Body) :
    (arrived body).Explained crates refresher failure returned := by
  unfold arrived
  split_ifs
  · refine ⟨fun pending => (by cases pending), fun response same status => ?_⟩
    cases same
    exact absurd status (by decide)
  · exact ⟨fun pending => (by cases pending), fun response same => by cases same⟩

/-- A request reads the failure where there is no document, and there is one to
read. -/
theorem explained_advance {refresher : Refresher} {system : System} {handler next : Handler}
    {after : AppState} (records : RecordsFailures crates refresher system)
    (known : system.state.failure.isSome = true ∨ system.state.callback.isSome = true)
    (explained : handler.Explained crates refresher system.state.failure system.returned)
    (advances : advance system.state handler = some (after, next)) :
    next.Explained crates refresher system.state.failure system.returned := by
  rcases handler with _ | (_ | published) | _ | response <;> cases advances
  · refine ⟨fun pending => ?_, fun response same => by cases same⟩
    cases served : system.state.callback with
    | none => simpa [served] using known
    | some published => simp [served, Handler.unexplained] at pending
  · exact ⟨fun _ => explained.pending rfl, fun response same => by cases same⟩
  · refine ⟨fun pending => (by cases pending), fun response same status => ?_⟩
    cases same
    exact absurd status (by decide : OK ≠ SERVICE_UNAVAILABLE)
  · refine ⟨fun pending => (by cases pending), fun response same _ => ?_⟩
    cases same
    obtain ⟨why, found⟩ := Option.isSome_iff_exists.mp (explained.pending rfl)
    obtain ⟨error, failed, rfl⟩ := records.recorded why found
    exact ⟨error, failed, by rw [found]⟩

/-- A retrieval has failed, and every request from `first` on is or will be told
why. -/
structure AllExplained (crates : Crates) (refresher : Refresher) (first : Nat)
    (system : System) : Prop where
  records : RecordsFailures crates refresher system
  failed : ∃ error, .error error ∈ system.returned
  explained : ∀ index handler, first ≤ index → system.handlers[index]? = some handler →
    handler.Explained crates refresher system.state.failure system.returned

/-- A step that clears the failure under none of these requests keeps them all
explained. -/
theorem allExplained_step {refresher : Refresher} {first : Nat} {system next : System}
    {event : Event} (read : ¬ ClearsUnread first system event)
    (holds : AllExplained crates refresher first system)
    (stepped : step crates refresher system event = some next) :
    AllExplained crates refresher first next := by
  obtain ⟨records, ⟨error, failed⟩, explained⟩ := holds
  -- A request that does not move is explained as before.
  have stays : ∀ index handler, first ≤ index → system.handlers[index]? = some handler →
      handler.Explained crates refresher next.state.failure next.returned := by
    intro index handler later found
    apply Handler.Explained.mono (explained index handler later found)
    · intro pending known
      rcases step_failure stepped with ⟨same, _⟩ | ⟨proceeds, clearing, _, _⟩ |
        ⟨_, _, recorded⟩
      · rwa [same]
      · exact absurd ⟨proceeds, clearing, index, handler, later, found, pending⟩ read
      · rw [recorded]
        rfl
    · intro error member
      exact error_mem_step stepped member
  refine ⟨recordsFailures_step records stepped, ⟨error, error_mem_step stepped failed⟩, ?_⟩
  apply forall_handlers_step stepped stays
  · intro body
    exact explained_arrived refresher _ _ body
  · intro index handler after later present advanced
    apply Handler.Explained.mono (explained_advance records (records.failed error failed)
      (explained index handler later present) advanced)
    · intro _ known
      have failure := congrArg AppState.failure (uncounted_advance advanced)
      rw [AppState.failure_uncounted, AppState.failure_uncounted] at failure
      rwa [failure]
    · intro error member
      exact error_mem_step stepped member

theorem step_advance (refresher : Refresher) {system : System} {index : Nat}
    {handler after : Handler} {state : AppState}
    (found : system.handlers[index]? = some handler)
    (advances : advance system.state handler = some (state, after)) :
    step crates refresher system (.advance index) =
      some { system with state := state, handlers := system.handlers.set index after } := by
  simp only [step, found, advances, Option.map_some]

/-- A request that reads the failure next answers with it. -/
theorem answered_of_explaining (refresher : Refresher) {system : System} {index : Nat}
    (found : system.handlers[index]? = some .explaining) :
    ∃ final, step crates refresher system (.advance index) = some final ∧
      final.returned = system.returned ∧ final.handlers[index]? =
        some (.answered (standingHeaders (unavailable system.state.failure))) := by
  have inside : index < system.handlers.length := (List.getElem?_eq_some_iff.mp found).1
  refine ⟨_, step_advance refresher found rfl, rfl, ?_⟩
  exact List.getElem?_set_self inside

/-- A request that has found no document answers, when nothing comes in between,
with the failure as it is now. -/
theorem answered_of_unexplained (refresher : Refresher) {system : System} {index : Nat}
    {handler : Handler} (found : system.handlers[index]? = some handler)
    (pending : handler.unexplained = true) :
    ∃ more final, run (step crates refresher) system more = some final ∧
      final.handlers[index]? =
        some (.answered (standingHeaders (unavailable system.state.failure))) := by
  have inside : index < system.handlers.length := (List.getElem?_eq_some_iff.mp found).1
  rcases handler with _ | (_ | published) | _ | response
  · cases pending
  · have counted := @step_advance crates refresher system index _ _ _ found rfl
    obtain ⟨final, explained, _, answered⟩ := @answered_of_explaining crates refresher
      { system with
        state := { system.state with metrics := system.state.metrics.callbackUnavailable }
        handlers := system.handlers.set index .explaining } index
      (List.getElem?_set_self inside)
    refine ⟨[.advance index, .advance index], final, ?_, answered⟩
    rw [run_cons, counted, Option.bind_some, run_cons, explained]
    rfl
  · cases pending
  · obtain ⟨final, explained, _, answered⟩ := @answered_of_explaining crates refresher _ _ found
    refine ⟨[.advance index], final, ?_, answered⟩
    rw [run_cons, explained]
    rfl
  · cases pending

/-- A request between its two reads when the failure is cleared is told, if
nothing else comes in between, that nothing has been retrieved yet. -/
theorem unnamed_of_clearsUnread {refresher : Refresher} {first : Nat} {system next : System}
    {event : Event} (clears : ClearsUnread first system event)
    (stepped : step crates refresher system event = some next) :
    ∃ index more final, first ≤ index ∧ run (step crates refresher) next more = some final ∧
      final.handlers[index]? = some (.answered (standingHeaders (unavailable none))) := by
  obtain ⟨⟨now, rfl⟩, clearing, index, handler, later, found, pending⟩ := clears
  have proceeds : proceed crates refresher system now = some next := stepped
  have cleared : next.state.failure = none := by
    rw [proceed, clearing] at proceeds
    cases proceeds
    rfl
  rw [← handlers_proceed proceeds] at found
  obtain ⟨more, final, ran, answered⟩ := @answered_of_unexplained crates refresher next index
    handler found pending
  rw [cleared] at answered
  exact ⟨index, more, final, later, ran, answered⟩

/-- Once a retrieval has failed, in every run from there in which no failure is
cleared between the two reads of a request that arrived since, each of those
requests that is told there is no document is told the failure of a retrieval
that has completed.  Where a step does clear it between them, the run has a
continuation in which a request is told that nothing has been retrieved. -/
theorem unavailable_names_failure {settings : Settings} {bridge : Bridge}
    (started : Bridge.start crates settings = .ok bridge) {before : List Event}
    {system : System}
    (ran : run (step crates bridge.refresher) (start bridge) before = some system)
    (failed : ∃ error, .error error ∈ system.returned) (after : List Event) (final : System)
    (then_ran : run (step crates bridge.refresher) system after = some final) :
    ((∀ taken ∈ transitions (step crates bridge.refresher) system after,
        ¬ ClearsUnread system.handlers.length taken.1 taken.2.1) →
      ∀ (index : Nat) (response : Response), system.handlers.length ≤ index →
        final.handlers[index]? = some (.answered response) →
          response.status = SERVICE_UNAVAILABLE →
            NamesFailure crates bridge.refresher final.returned response) ∧
    ∀ event next, step crates bridge.refresher final event = some next →
      ClearsUnread system.handlers.length final event →
        ∃ (index : Nat) (more : List Event) (last : System), system.handlers.length ≤ index ∧
          run (step crates bridge.refresher) next more = some last ∧
          last.handlers[index]? = some (.answered (standingHeaders (unavailable none))) := by
  constructor
  · intro every index response later found status
    have start : AllExplained crates bridge.refresher system.handlers.length system := by
      refine ⟨recordsFailures_of_run started ran, failed, ?_⟩
      intro index handler outside inside
      rw [List.getElem?_eq_none outside] at inside
      cases inside
    have all : AllExplained crates bridge.refresher system.handlers.length final :=
      run_invariant_of_forall
        (fun _ _ _ read holds stepped => allExplained_step read holds stepped) every start
        then_ran
    exact (all.explained index _ later found).page response rfl status
  · intro event next stepped clears
    exact unnamed_of_clearsUnread clears stepped

end System

namespace Reference

/-- A revalidation that is given no answer in time. -/
def timedOut : List Event :=
  [.begin, .receive none, .proceed 0, .proceed 0, .proceed 0]

/-- A request up to its last read. -/
def request : List Event :=
  [.arrive ⟨true⟩, .advance 0, .advance 0]

/-- The same with the first publication between its two reads. -/
def race : List Event :=
  [.arrive ⟨true⟩, .begin, .receive (tick "'sha256-A='".toList []).answer, .advance 0,
    .proceed 0, .proceed 0, .advance 0, .proceed 0]

/-- What a run leads to, as far as its outcomes, its requests and the failure
recorded. -/
theorem exists_of_observed {events : List Event} {returned : List (Except FetchError Bool)}
    {handlers : List Handler} {failure : Option Text}
    (observed : (run (System.step Reference.crates bridge.refresher) (System.start bridge)
      events).map (fun system => (system.returned, system.handlers, system.state.failure)) =
        some (returned, handlers, failure)) :
    ∃ system, run (System.step Reference.crates bridge.refresher) (System.start bridge)
        events = some system ∧
      system.returned = returned ∧ system.handlers = handlers ∧
      system.state.failure = failure := by
  obtain ⟨system, ran, same⟩ := Option.map_eq_some_iff.mp observed
  simp only [Prod.mk.injEq] at same
  exact ⟨system, ran, same⟩

theorem exists_timedOut :
    ∃ system, run (System.step Reference.crates bridge.refresher) (System.start bridge)
        timedOut = some system ∧
      system.returned = [.error timeout] ∧ system.handlers = [] ∧
      system.state.failure = some (bridge.refresher.reason Reference.crates timeout) :=
  exists_of_observed (by decide +kernel)

/-- A request that is about to read the failure answers with it. -/
theorem exists_answered {events : List Event} {failure : Option Text}
    (observed : (run (System.step Reference.crates bridge.refresher) (System.start bridge)
      (timedOut ++ events)).map
        (fun system => (system.returned, system.handlers, system.state.failure)) =
          some ([.error timeout], [.explaining], failure)) :
    ∃ system final,
      run (System.step Reference.crates bridge.refresher) (System.start bridge)
        timedOut = some system ∧
      system.returned = [.error timeout] ∧ system.handlers = [] ∧
      run (System.step Reference.crates bridge.refresher) system
        (events ++ [.advance 0]) = some final ∧
      final.returned = [.error timeout] ∧
      final.handlers[0]? = some (.answered (standingHeaders (unavailable failure))) := by
  obtain ⟨middle, ranAll, returned, handlers, same⟩ := exists_of_observed observed
  obtain ⟨system, ran, ranEvents⟩ := run_append_eq_some.mp ranAll
  obtain ⟨other, ranOther, otherReturned, otherHandlers, _⟩ := exists_timedOut
  cases ran.symm.trans ranOther
  obtain ⟨final, read, finalReturned, answered⟩ :=
    @System.answered_of_explaining Reference.crates bridge.refresher middle 0 (by simp [handlers])
  exact ⟨system, final, ran, otherReturned, otherHandlers,
    run_snoc_eq_some.mpr ⟨middle, ranEvents, read⟩, finalReturned.trans returned,
    same ▸ answered⟩

end Reference

theorem System.unavailable_names_failure_timedOut :
    ∃ system final response,
      run (step Reference.crates Reference.bridge.refresher) (start Reference.bridge)
        Reference.timedOut = some system ∧
      run (step Reference.crates Reference.bridge.refresher) system
        (Reference.request ++ [.advance 0]) = some final ∧
      final.handlers[0]? = some (.answered response) ∧
      NamesFailure Reference.crates Reference.bridge.refresher final.returned response := by
  obtain ⟨system, final, ran, returned, handlers, ranRequest, _, answered⟩ :=
    Reference.exists_answered (by decide +kernel :
      (run (step Reference.crates Reference.bridge.refresher) (start Reference.bridge)
        (Reference.timedOut ++ Reference.request)).map
          (fun system => (system.returned, system.handlers, system.state.failure)) =
        some ([.error Reference.timeout], [.explaining], some
          (Reference.bridge.refresher.reason Reference.crates Reference.timeout)))
  refine ⟨system, final, _, ran, ranRequest, answered, ?_⟩
  apply (unavailable_names_failure Reference.start_settings ran
    ⟨Reference.timeout, by simp [returned]⟩ _ final ranRequest).1 _ 0 _ (by simp [handlers])
      answered rfl
  rintro taken member ⟨⟨now, proceeds⟩, _⟩
  have listed := label_mem_of_mem_transitions member
  rw [proceeds] at listed
  simp [Reference.request] at listed

/-- The first publication comes between the two reads of a request that arrived
after a retrieval failed: the request is told that nothing has been
retrieved. -/
theorem System.unavailable_without_reason :
    ∃ system final,
      run (step Reference.crates Reference.bridge.refresher) (start Reference.bridge)
        Reference.timedOut = some system ∧
      system.returned = [.error Reference.timeout] ∧ system.handlers = [] ∧
      run (step Reference.crates Reference.bridge.refresher) system
        (Reference.race ++ [.advance 0]) = some final ∧
      final.handlers[0]? = some (.answered (standingHeaders (unavailable none))) ∧
      (standingHeaders (unavailable none)).status = SERVICE_UNAVAILABLE ∧
      ¬ NamesFailure Reference.crates Reference.bridge.refresher final.returned
        (standingHeaders (unavailable none)) := by
  obtain ⟨system, final, ran, returned, handlers, ranRace, finalReturned, answered⟩ :=
    Reference.exists_answered (by decide +kernel :
      (run (step Reference.crates Reference.bridge.refresher) (start Reference.bridge)
        (Reference.timedOut ++ Reference.race)).map
          (fun system => (system.returned, system.handlers, system.state.failure)) =
        some ([.error Reference.timeout], [.explaining], none))
  refine ⟨system, final, ran, returned, handlers, ranRace, answered, rfl, ?_⟩
  rintro ⟨error, failed, page⟩
  simp only [finalReturned, List.mem_singleton, Except.error.injEq] at failed
  subst failed
  have bodies := Text.bytes_injective (congrArg Response.body page)
  have details := noDocument_inj.mp bodies
  revert details
  decide +kernel

end LibidBridge
