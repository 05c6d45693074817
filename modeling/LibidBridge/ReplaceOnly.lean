import LibidBridge.Interleaving

/-!
# Replace-only, untorn publication

In every interleaving of the refresher with callback requests, what is served
was composed as one unit from one response, is never taken away again, and is
left alone by every revalidation that does not say it replaced it.
-/

namespace LibidBridge

variable {crates : Crates}

/-- A published document was composed as one unit from one response: its body
is the artifact of that response with the deployment's data in place of the
marker, its policy carries the script hashes of that response, and its
validator is the one that response carried. -/
structure Published.ComposedFrom (crates : Crates) (inputs : DeploymentInputs)
    (arrival : Arrival) (published : Published) : Prop where
  status : arrival.status = OK
  body : ∃ body before after,
    crates.collect MAX_ARTIFACT_BYTES arrival.body = .ok body ∧
    Text.fromUtf8 body = some (before ++ MARKER ++ after) ∧
    published.document.body = Text.bytes (before ++ json crates inputs.record ++ after)
  csp : ∃ hashes,
    scriptHashes ((Fetched.header crates arrival.headers CONTENT_SECURITY_POLICY).getD []) =
      .ok hashes ∧ published.document.csp = Text.bytes (policy hashes)
  etag : published.etag = Fetched.header crates arrival.headers ETAG

theorem composedFrom_of_offers {arrival : Arrival} {offer : Offer} {inputs : DeploymentInputs}
    (offers : arrival.Offers crates offer) :
    (offer.published crates inputs).ComposedFrom crates inputs arrival where
  status := offers.status
  body := by
    obtain ⟨body, collected, decoded⟩ := offers.body
    obtain ⟨before, after, split, -, -, replaced⟩ :=
      Matches.exists_free_split_of_count_one (by decide) offers.marker
    exact ⟨body, before, after, collected, by rw [decoded, split], by
      rw [Offer.published, replaced]⟩
  csp := ⟨offer.hashes, offers.hashes, rfl⟩
  etag := offers.etag

namespace System

/-- A document was composed from a response the refresher received. -/
def Received (crates : Crates) (inputs : DeploymentInputs) (events : List Event)
    (published : Published) : Prop :=
  ∃ arrival, Event.receive (some (.response arrival)) ∈ events ∧
    published.ComposedFrom crates inputs arrival

theorem Received.mono {inputs : DeploymentInputs} {events : List Event} {published : Published}
    (received : Received crates inputs events published) (event : Event) :
    Received crates inputs (events ++ [event]) published := by
  obtain ⟨arrival, member, composed⟩ := received
  exact ⟨arrival, List.mem_append_left _ member, composed⟩

/-- What is served, and what a revalidation holds, was received. -/
def AllReceived (crates : Crates) (inputs : DeploymentInputs) (events : List Event)
    (system : System) : Prop :=
  (∀ published, system.state.callback = some published →
    Received crates inputs events published) ∧
  ∀ published, system.refreshing.held = some published →
    Received crates inputs events published

theorem allReceived_snoc (laws : HeaderLaws crates) {refresher : Refresher}
    {events : List Event} {system next : System} {event : Event}
    (holds : AllReceived crates refresher.inputs events system)
    (stepped : step crates refresher system event = some next) :
    AllReceived crates refresher.inputs (events ++ [event]) next := by
  obtain ⟨served, held⟩ := holds
  have kept : next.state.callback = system.state.callback → ∀ published,
      next.state.callback = some published →
        Received crates refresher.inputs (events ++ [event]) published :=
    fun same published found => (served published (same ▸ found)).mono event
  constructor
  · rcases step_callback stepped with ⟨_, same, _⟩ | ⟨published, replacing, _, replaced, _⟩ |
      ⟨_, _, same, _⟩
    · exact kept same
    · intro other found
      cases replaced.symm.trans found
      exact (held published (by rw [replacing]; rfl)).mono event
    · exact kept same
  · intro published found
    rcases step_held stepped found with before | ⟨answer, etag, rfl, retrieved⟩
    · exact (held published before).mono event
    · obtain ⟨offer, offered, rfl⟩ := Upstream.exists_offer_of_retrieve laws retrieved
      obtain ⟨arrival, rfl, offers⟩ := offered_eq_some_iff.mp offered
      exact ⟨arrival, by simp, composedFrom_of_offers offers⟩

theorem allReceived_of_run (laws : HeaderLaws crates) {bridge : Bridge}
    (empty : bridge.state.callback = none) {events : List Event} {system : System}
    (ran : run (step crates bridge.refresher) (start bridge) events = some system) :
    AllReceived crates bridge.refresher.inputs events system :=
  run_history
    ⟨fun published found => by simp [start, empty] at found, fun _ found => by cases found⟩
    (fun _ _ _ _ _ holds stepped => allReceived_snoc laws holds stepped) ran

theorem isSome_callback_step {refresher : Refresher} {system next : System} {event : Event}
    (served : system.state.callback.isSome)
    (stepped : step crates refresher system event = some next) :
    next.state.callback.isSome := by
  rcases step_callback stepped with ⟨_, same, _⟩ | ⟨_, _, _, replaced, _⟩ | ⟨_, _, same, _⟩
  · rwa [same]
  · rw [replaced]
    rfl
  · rwa [same]

theorem isSome_callback_of_run {refresher : Refresher} {system final : System}
    {events : List Event} (served : system.state.callback.isSome)
    (ran : run (step crates refresher) system events = some final) :
    final.state.callback.isSome :=
  run_invariant (fun _ _ _ served stepped => isSome_callback_step served stepped) served ran

end System

/-- A request that has found no document, and has not answered with one. -/
def Handler.Unserved : Handler → Prop
  | .reading | .explaining => True
  | .counting found => found = none
  | .answered response => response.status ≠ OK

/-- A request that will not answer that there is no document. -/
def Handler.Assured : Handler → Prop
  | .reading => True
  | .counting found => found.isSome
  | .explaining => False
  | .answered response => response.status ≠ SERVICE_UNAVAILABLE

namespace System

theorem unserved_arrived (body : Body) : (arrived body).Unserved := by
  unfold arrived
  split_ifs
  · exact (by decide : BAD_REQUEST ≠ OK)
  · trivial

theorem assured_arrived (body : Body) : (arrived body).Assured := by
  unfold arrived
  split_ifs
  · exact (by decide : BAD_REQUEST ≠ SERVICE_UNAVAILABLE)
  · trivial

theorem unserved_advance {state after : AppState} {handler next : Handler}
    (none : state.callback = none) (unserved : handler.Unserved)
    (advanced : advance state handler = some (after, next)) : next.Unserved := by
  rcases handler with _ | (_ | published) | _ | response <;> cases advanced
  · exact none
  · trivial
  · cases unserved
  · exact (by decide : SERVICE_UNAVAILABLE ≠ OK)

theorem assured_advance {state after : AppState} {handler next : Handler}
    (served : state.callback.isSome) (assured : handler.Assured)
    (advanced : advance state handler = some (after, next)) : next.Assured := by
  rcases handler with _ | (_ | published) | _ | response <;> cases advanced
  · exact served
  · cases assured
  · exact (by decide : OK ≠ SERVICE_UNAVAILABLE)
  · cases assured

/-- While there is no document, no request has been answered with one. -/
def NoneServed (system : System) : Prop :=
  system.state.callback = none → ∀ handler ∈ system.handlers, handler.Unserved

theorem noneServed_step {refresher : Refresher} {system next : System} {event : Event}
    (holds : system.NoneServed) (stepped : step crates refresher system event = some next) :
    next.NoneServed := by
  intro none
  have before : system.state.callback = Option.none := by
    by_contra served
    have := isSome_callback_step (Option.isSome_iff_ne_none.mpr served) stepped
    simp [none] at this
  have unserved : ∀ index handler, 0 ≤ index → system.handlers[index]? = some handler →
      handler.Unserved :=
    fun index handler _ present => holds before handler (List.mem_of_getElem? present)
  intro handler member
  obtain ⟨index, found⟩ := List.mem_iff_getElem?.mp member
  apply forall_handlers_step stepped unserved unserved_arrived _ index handler (Nat.zero_le _)
    found
  intro index handler after later present advanced
  exact unserved_advance before (unserved index handler later present) advanced

/-- There is a document, and every request from `first` on will answer with one
or not at all. -/
def AllAssured (first : Nat) (system : System) : Prop :=
  system.state.callback.isSome ∧ ∀ index handler, first ≤ index →
    system.handlers[index]? = some handler → handler.Assured

theorem allAssured_step {refresher : Refresher} {first : Nat} {system next : System}
    {event : Event} (holds : system.AllAssured first)
    (stepped : step crates refresher system event = some next) : next.AllAssured first := by
  obtain ⟨served, assured⟩ := holds
  refine ⟨isSome_callback_step served stepped, ?_⟩
  apply forall_handlers_step stepped assured assured_arrived
  intro index handler after later present advanced
  exact assured_advance served (assured index handler later present) advanced

/-- A request that arrives after another was answered with the document is
never answered that there is none. -/
theorem status_ne_unavailable_of_later {bridge : Bridge} {refresher : Refresher}
    {events later : List Event} {system final : System}
    (ran : run (step crates refresher) (start bridge) events = some system)
    (then_ran : run (step crates refresher) system later = some final)
    {served : Nat} {response : Response}
    (answered : system.handlers[served]? = some (.answered response)) (ok : response.status = OK)
    {index : Nat} (after : system.handlers.length ≤ index) {other : Response}
    (found : final.handlers[index]? = some (.answered other)) :
    other.status ≠ SERVICE_UNAVAILABLE := by
  have noneServed : system.NoneServed :=
    run_invariant (fun _ _ _ holds stepped => noneServed_step holds stepped)
      (fun _ handler member => by cases member) ran
  have present : system.state.callback.isSome := by
    by_contra none
    exact noneServed (by simpa using none) _ (List.mem_of_getElem? answered) ok
  have start : system.AllAssured system.handlers.length := by
    refine ⟨present, fun index handler outside inside => ?_⟩
    rw [List.getElem?_eq_none outside] at inside
    cases inside
  have assured : final.AllAssured system.handlers.length :=
    run_invariant (fun _ _ _ holds stepped => allAssured_step holds stepped) start then_ran
  exact assured.2 index _ after found

/-- What is served is what was served at the start, while the first
revalidation since then has not replaced it. -/
def KeptSince (first : System) (system : System) : Prop :=
  (system.returned = first.returned ∧
    (system.refreshing.publishing = true ∨
      system.state.callback = first.state.callback)) ∨
  ∃ outcome others, system.returned = first.returned ++ outcome :: others ∧
    (outcome = .ok true ∨ others ≠ [] ∨ system.refreshing.publishing = true ∨
      system.state.callback = first.state.callback)

theorem keptSince_step {refresher : Refresher} {first system next : System} {event : Event}
    (kept : KeptSince first system)
    (stepped : step crates refresher system event = some next) : KeptSince first next := by
  rcases step_callback stepped with ⟨returned, callback, publishing⟩ |
    ⟨published, replacing, returned, replaced, clearing⟩ |
    ⟨outcome, returned, callback, idle, publishing⟩
  · unfold KeptSince
    rwa [returned, callback, publishing]
  · have now : next.refreshing.publishing = true := by
      rw [clearing]
      rfl
    unfold KeptSince
    rw [returned, now]
    rcases kept with ⟨same, _⟩ | ⟨outcome, others, same, _⟩
    · exact Or.inl ⟨same, Or.inl rfl⟩
    · exact Or.inr ⟨outcome, others, same, Or.inr (Or.inr (Or.inl rfl))⟩
  · rcases kept with ⟨same, replaced | unchanged⟩ | ⟨earlier, others, same, _⟩
    · exact Or.inr ⟨outcome, [], by rw [returned, same], Or.inl (publishing.mp replaced)⟩
    · exact Or.inr ⟨outcome, [], by rw [returned, same],
        Or.inr (Or.inr (Or.inr (callback.trans unchanged)))⟩
    · exact Or.inr ⟨earlier, others ++ [outcome], by rw [returned, same]; simp,
        Or.inr (Or.inl (by simp))⟩

/-- A revalidation that returns an error or `false` leaves what is served as it
was, whatever requests come in between. -/
theorem callback_eq_of_returned {refresher : Refresher} {system final : System}
    {events : List Event} (ran : run (step crates refresher) system events = some final)
    (between : final.refreshing = .idle) {outcome : Except FetchError Bool}
    (returned : final.returned = system.returned ++ [outcome]) (kept : outcome ≠ .ok true) :
    final.state.callback = system.state.callback := by
  have since : KeptSince system final :=
    run_invariant (fun _ _ _ kept stepped => keptSince_step kept stepped)
      (Or.inl ⟨rfl, Or.inr rfl⟩) ran
  have notPublishing : final.refreshing.publishing = false := by
    rw [between]
    rfl
  rcases since with ⟨same, _⟩ | ⟨first, others, same, cases⟩
  · simp [returned] at same
  · rw [returned, List.append_cancel_left_eq, List.cons.injEq] at same
    obtain ⟨rfl, noOthers⟩ := same
    rcases cases with replaced | others | publishing | unchanged
    · exact absurd replaced kept
    · exact absurd noOthers.symm others
    · simp [notPublishing] at publishing
    · exact unchanged

/-- Replace-only, untorn publication, in every interleaving of revalidations
with callback requests: what is served is one unit composed from one response;
it is never taken away again, so no request that arrives after one was answered
with it is told there is none; and a revalidation that returns an error or
`false` leaves it as it was. -/
theorem replace_only (laws : HeaderLaws crates) {settings : Settings} {deployment : Deployment}
    {bridge : Bridge} (accepted : Deployment.checked crates settings = .ok deployment)
    (started : Bridge.start crates settings = .ok bridge) {events : List Event}
    {system : System}
    (ran : run (step crates bridge.refresher) (start bridge) events = some system) :
    (∀ published, system.state.callback = some published →
      Received crates ⟨deployment.ccdpOrigin, deployment.allowedOrigins⟩ events published) ∧
    ∀ later final, run (step crates bridge.refresher) system later = some final →
      (system.state.callback.isSome → final.state.callback.isSome) ∧
      (∀ (served : Nat) (response : Response),
        system.handlers[served]? = some (.answered response) → response.status = OK →
          ∀ (index : Nat) (other : Response), system.handlers.length ≤ index →
            final.handlers[index]? = some (.answered other) →
              other.status ≠ SERVICE_UNAVAILABLE) ∧
      ∀ outcome, final.refreshing = .idle → final.returned = system.returned ++ [outcome] →
        outcome ≠ .ok true → final.state.callback = system.state.callback := by
  obtain ⟨_, upstream, sameAccepted, created, rfl⟩ := Bridge.start_eq_ok_iff.mp started
  cases accepted.symm.trans sameAccepted
  have origin := Upstream.origin_of_new created
  constructor
  · have received := (allReceived_of_run laws rfl ran).1
    simpa only [Refresher.inputs, origin] using received
  · intro later final ranLater
    refine ⟨fun served => isSome_callback_of_run served ranLater, ?_, ?_⟩
    · intro served response answered ok index other after found
      exact status_ne_unavailable_of_later ran ranLater answered ok after found
    · intro outcome between returned kept
      exact callback_eq_of_returned ranLater between returned kept

theorem run_replaces {refresher : Refresher} {system : System} {answer : Answer}
    {published : Published} (idle : system.refreshing = .idle)
    (retrieved : refresher.upstream.retrieve crates refresher.allowedOrigins system.state.etag
      answer = some (.ok (some published)))
    (notServed : system.state.serves published = false) (now : Nat) :
    run (step crates refresher) system [.begin, .receive answer, .proceed now, .proceed now] =
      some { system with
        state := { system.state with callback := some published }
        refreshing := .clearing } := by
  simp only [run_cons, run_nil, step, idle, Option.bind_some, received, retrieved, proceed,
    notServed, Bool.false_eq_true, if_false]

theorem replace_only_first :
    ∃ system, run (step Reference.crates Reference.bridge.refresher) (start Reference.bridge)
        [.begin, .receive (Reference.tick "'sha256-A='".toList []).answer, .proceed 0,
          .proceed 0] = some system ∧
      ∃ published, system.state.callback = some published ∧
        Received Reference.crates
          ⟨Reference.deployment.ccdpOrigin, Reference.deployment.allowedOrigins⟩
          [.begin, .receive (Reference.tick "'sha256-A='".toList []).answer, .proceed 0,
            .proceed 0] published := by
  have found := Reference.offers_tick "'sha256-A='".toList ["'sha256-A='".toList]
    (by decide +kernel)
  have built : (Reference.bridge.refresher.upstream.request Reference.crates none).isSome := by
    decide +kernel
  have retrieved : Reference.bridge.refresher.upstream.retrieve Reference.crates
      Reference.bridge.refresher.allowedOrigins none
      (Reference.tick "'sha256-A='".toList []).answer = some (.ok (some _)) :=
    (Upstream.retrieve_eq_ok_iff Reference.headerLaws built).mpr (Or.inl ⟨_, found, rfl⟩)
  have ran := @run_replaces Reference.crates Reference.bridge.refresher (start Reference.bridge)
    _ _ rfl retrieved rfl 0
  exact ⟨_, ran, _, rfl, (replace_only Reference.headerLaws Reference.checked_settings
    Reference.start_settings ran).1 _ rfl⟩

end System

end LibidBridge
