import LibidBridge.ConfigAdmission
import LibidBridge.LabelledRuns
import LibidBridge.Retrieval

/-!
# Runs of the refresher

What one revalidation can do, and what holds after any number of them: the
served document was composed from an answer of the run that offered one, and
the next request carries exactly the validator that answer carried.
-/

namespace LibidBridge

variable {crates : Crates}

namespace Refresher

def inputs (refresher : Refresher) : DeploymentInputs :=
  ⟨refresher.upstream.origin, refresher.allowedOrigins⟩

/-- What one revalidation can do, its request built: publish what the answer
offers, find what is served to be current, or fail and say why. -/
theorem revalidate_cases (laws : HeaderLaws crates) (refresher : Refresher) (state : AppState)
    (built : (refresher.upstream.request crates state.etag).isSome) (answer : Answer)
    (now : Nat) :
    (∃ offer, offered crates answer = some offer ∧
      state.serves (offer.published crates refresher.inputs) = false ∧
      refresher.revalidate crates state answer now =
        some ({ state with
          callback := some (offer.published crates refresher.inputs)
          failure := none
          metrics := state.metrics.published now }, .ok true)) ∨
    (((∃ offer, offered crates answer = some offer ∧
        state.serves (offer.published crates refresher.inputs) = true) ∨
      (offered crates answer = none ∧ state.etag.isSome)) ∧
      refresher.revalidate crates state answer now =
        some ({ state with metrics := state.metrics.unchanged }, .ok false)) ∨
    ∃ error, offered crates answer = none ∧
      refresher.upstream.retrieve crates refresher.allowedOrigins state.etag answer =
        some (.error error) ∧
      refresher.revalidate crates state answer now =
        some ({ state with
          metrics := state.metrics.failed error.kind
          failure := some (refresher.reason crates error) }, .error error) := by
  have retrieve_iff := @Upstream.retrieve_eq_ok_iff crates laws refresher.upstream
    refresher.allowedOrigins state.etag answer
  obtain ⟨outcome, retrieved⟩ :=
    Upstream.exists_retrieve built refresher.allowedOrigins answer
  cases outcome with
  | error error =>
      refine Or.inr (Or.inr ⟨error, ?_, retrieved, ?_⟩)
      · cases found : offered crates answer with
        | none => rfl
        | some offer =>
            have := (retrieve_iff built).mpr (Or.inl ⟨offer, found, rfl⟩)
            rw [retrieved] at this
            cases this
      · simp only [revalidate, published, retrieved, Option.map_some, counted]
  | ok found =>
      rcases (retrieve_iff built).mp retrieved with ⟨offer, offers, rfl⟩ | ⟨rfl, asked, unchanged⟩
      · cases current : state.serves (offer.published crates refresher.inputs) with
        | false =>
            refine Or.inl ⟨offer, offers, current, ?_⟩
            simp only [inputs] at current
            simp only [revalidate, published, retrieved, Option.map_some, current, counted,
              Bool.false_eq_true, if_false, inputs]
        | true =>
            refine Or.inr (Or.inl ⟨Or.inl ⟨offer, offers, current⟩, ?_⟩)
            simp only [inputs] at current
            simp only [revalidate, published, retrieved, Option.map_some, current, counted,
              if_true]
      · obtain ⟨arrival, rfl, status⟩ := unchanged
        refine Or.inr (Or.inl ⟨Or.inr ⟨offered_of_notModified status, asked⟩, ?_⟩)
        simp only [revalidate, published, retrieved, Option.map_some, counted]

theorem built_of_revalidate {refresher : Refresher} {state next : AppState} {answer : Answer}
    {now : Nat} {outcome : Except FetchError Bool}
    (revalidated : refresher.revalidate crates state answer now = some (next, outcome)) :
    (refresher.upstream.request crates state.etag).isSome := by
  obtain ⟨_, published, _⟩ := Option.map_eq_some_iff.mp revalidated
  obtain ⟨_, retrieved, _⟩ := Option.map_eq_some_iff.mp published
  obtain ⟨_, fetched, _⟩ := Option.map_eq_some_iff.mp retrieved
  exact Upstream.built_of_fetch fetched

/-- A document is replaced only by the one composed from an offer. -/
theorem exists_offer_of_replaced (laws : HeaderLaws crates) {refresher : Refresher}
    {state next : AppState} {answer : Answer} {now : Nat}
    (replaced : refresher.revalidate crates state answer now = some (next, .ok true)) :
    ∃ offer, offered crates answer = some offer ∧
      next.callback = some (offer.published crates refresher.inputs) := by
  rcases revalidate_cases laws refresher state (built_of_revalidate replaced) answer now with
    ⟨offer, found, _, same⟩ | ⟨_, same⟩ | ⟨_, _, _, same⟩
  · cases replaced.symm.trans same
    exact ⟨offer, found, rfl⟩
  · cases replaced.symm.trans same
  · cases replaced.symm.trans same

/-- What one revalidation meets: an answer, and the time it is counted at. -/
structure Tick where
  answer : Answer
  now : Nat

/-- One revalidation as a step of a run. -/
def step (crates : Crates) (refresher : Refresher) (state : AppState) (tick : Tick) :
    Option AppState :=
  (refresher.revalidate crates state tick.answer tick.now).map Prod.fst

/-- What a step can do to what is served: publish an offer that is not served
yet, or leave it where the offer is served or there is none. -/
theorem callback_step (laws : HeaderLaws crates) {refresher : Refresher}
    {state next : AppState} {tick : Tick}
    (built : (refresher.upstream.request crates state.etag).isSome)
    (stepped : refresher.step crates state tick = some next) :
    (∃ offer, offered crates tick.answer = some offer ∧
      state.serves (offer.published crates refresher.inputs) = false ∧
      next.callback = some (offer.published crates refresher.inputs)) ∨
    (∃ offer, offered crates tick.answer = some offer ∧
      state.serves (offer.published crates refresher.inputs) = true ∧
      next.callback = state.callback) ∨
    (offered crates tick.answer = none ∧ next.callback = state.callback) := by
  obtain ⟨⟨_, outcome⟩, revalidated, rfl⟩ := Option.map_eq_some_iff.mp stepped
  rcases revalidate_cases laws refresher state built tick.answer tick.now with
    ⟨offer, found, notCurrent, same⟩ | ⟨⟨offer, found, current⟩ | ⟨none, _⟩, same⟩ |
      ⟨_, none, _, same⟩ <;>
  cases revalidated.symm.trans same
  · exact Or.inl ⟨offer, found, notCurrent, rfl⟩
  · exact Or.inr (Or.inl ⟨offer, found, current, rfl⟩)
  · exact Or.inr (Or.inr ⟨none, rfl⟩)
  · exact Or.inr (Or.inr ⟨none, rfl⟩)

/-- A document was composed from this response of the run, at the revalidation
that published it. -/
def ServedFrom (crates : Crates) (refresher : Refresher) (start : AppState)
    (ticks : List Tick) (published : Published) (arrival : Arrival) : Prop :=
  ∃ earlier now later before after offer,
    ticks = earlier ++ ⟨some (.response arrival), now⟩ :: later ∧
    run (refresher.step crates) start earlier = some before ∧
    refresher.revalidate crates before (some (.response arrival)) now =
      some (after, .ok true) ∧
    arrival.Offers crates offer ∧ published = offer.published crates refresher.inputs

/-- Whatever is served was composed from one response of the run. -/
def ServesOffer (crates : Crates) (refresher : Refresher) (start : AppState)
    (ticks : List Tick) (state : AppState) : Prop :=
  ∀ published, state.callback = some published →
    ∃ arrival, ServedFrom crates refresher start ticks published arrival

section Runs

variable (laws : HeaderLaws crates) {refresher : Refresher} {start : AppState}
variable {ticks : List Tick}

theorem ServedFrom.snoc {published : Published} {arrival : Arrival}
    (served : ServedFrom crates refresher start ticks published arrival) (tick : Tick) :
    ServedFrom crates refresher start (ticks ++ [tick]) published arrival := by
  obtain ⟨earlier, now, later, before, after, offer, rfl, rest⟩ := served
  exact ⟨earlier, now, later ++ [tick], before, after, offer, by simp, rest⟩

include laws

theorem readable_of_servesOffer {state : AppState}
    (serves : ServesOffer crates refresher start ticks state) :
    ∀ text, state.etag = some text → ∀ letter ∈ text, IsReadable letter := by
  intro text carried
  obtain ⟨published, callback, etag⟩ := Option.bind_eq_some_iff.mp carried
  obtain ⟨arrival, _, _, _, _, _, offer, _, _, _, offers, rfl⟩ := serves published callback
  exact Offer.readable_etag laws (offered_eq_some_iff.mpr ⟨arrival, rfl, offers⟩) etag

theorem built_of_servesOffer {state : AppState}
    (serves : ServesOffer crates refresher start ticks state) :
    (refresher.upstream.request crates state.etag).isSome := by
  rw [Upstream.request_eq laws _ (readable_of_servesOffer laws serves)]
  rfl

theorem servesOffer_snoc {state next : AppState} {tick : Tick}
    (ran : run (refresher.step crates) start ticks = some state)
    (serves : ServesOffer crates refresher start ticks state)
    (stepped : refresher.step crates state tick = some next) :
    ServesOffer crates refresher start (ticks ++ [tick]) next := by
  have kept : next.callback = state.callback →
      ServesOffer crates refresher start (ticks ++ [tick]) next := by
    intro same published callback
    obtain ⟨arrival, served⟩ := serves published (same ▸ callback)
    exact ⟨arrival, served.snoc tick⟩
  rcases revalidate_cases laws refresher state (built_of_servesOffer laws serves) tick.answer
    tick.now with ⟨offer, found, _, revalidated⟩ | ⟨_, revalidated⟩ | ⟨_, _, _, revalidated⟩ <;>
  simp only [step, revalidated, Option.map_some, Option.some.injEq] at stepped <;>
  subst stepped
  · rintro published ⟨⟩
    obtain ⟨arrival, answer, offers⟩ := offered_eq_some_iff.mp found
    obtain ⟨_, now⟩ := tick
    cases answer
    exact ⟨arrival, ticks, now, [], state, _, offer, rfl, ran, revalidated, offers, rfl⟩
  · exact kept rfl
  · exact kept rfl

/-- What is served after any run was composed from a response of the run. -/
theorem servesOffer_of_run {state : AppState} (empty : start.callback = none)
    (ran : run (refresher.step crates) start ticks = some state) :
    ServesOffer crates refresher start ticks state :=
  run_history (fun published callback => by simp [empty] at callback)
    (fun _ _ _ _ before serves stepped => servesOffer_snoc laws before serves stepped) ran

/-- Every run goes through: no revalidation of it panics. -/
theorem exists_run_step (empty : start.callback = none) (ticks : List Tick) :
    ∃ state, run (refresher.step crates) start ticks = some state := by
  refine exists_run (fun published callback => by simp [empty] at callback)
    (fun _ _ _ _ before serves stepped => servesOffer_snoc laws before serves stepped)
    (fun labels middle tick serves => ?_) ticks
  rcases revalidate_cases laws refresher middle (built_of_servesOffer laws serves) tick.answer
    tick.now with ⟨_, _, _, revalidated⟩ | ⟨_, revalidated⟩ | ⟨_, _, _, revalidated⟩ <;>
  simp [step, revalidated]

end Runs

theorem map_bytes_header (laws : HeaderLaws crates) (headers : HeaderMap) (name : HeaderName) :
    (Fetched.header crates headers name).toList.map Text.bytes =
      ((headers.get name).filter fun value => (crates.headerToStr value).isSome).toList := by
  cases carried : headers.get name with
  | none => simp [Fetched.header, carried]
  | some value =>
      cases read : crates.headerToStr value with
      | none => simp [Fetched.header, carried, read, Option.filter_some]
      | some text =>
          simp [Fetched.header, carried, read, (laws.bytes_of_toStr read).1, Option.filter_some]

/-- What a revalidation that returned has done: replaced what was served by a
document that was not, found what is served to be current, or failed. -/
inductive Revalidated (crates : Crates) (refresher : Refresher) (state : AppState) (now : Nat) :
    AppState → Except FetchError Bool → Prop
  | replaced (published : Published) (fresh : state.serves published = false) :
      Revalidated crates refresher state now
        (refresher.counted crates { state with callback := some published } now (.ok true))
        (.ok true)
  | current (served : state.callback.isSome) :
      Revalidated crates refresher state now (refresher.counted crates state now (.ok false))
        (.ok false)
  | failed (error : FetchError) :
      Revalidated crates refresher state now (refresher.counted crates state now (.error error))
        (.error error)

/-- The validator comes from what is served, and so does the equality with it:
nothing is found current while nothing is served. -/
theorem revalidated_of_revalidate {refresher : Refresher} {state next : AppState}
    {answer : Answer} {now : Nat} {outcome : Except FetchError Bool}
    (returned : refresher.revalidate crates state answer now = some (next, outcome)) :
    Revalidated crates refresher state now next outcome := by
  obtain ⟨⟨middle, found⟩, published, counted⟩ := Option.map_eq_some_iff.mp returned
  cases counted
  obtain ⟨retrieved, retrieval, same⟩ := Option.map_eq_some_iff.mp published
  rcases retrieved with error | _ | document
  · cases same
    exact .failed error
  · cases same
    exact .current (AppState.isSome_callback_of_isSome_etag
      (Upstream.isSome_etag_of_unchanged retrieval))
  · dsimp only at same
    split_ifs at same with serves
    · cases same
      exact .current (AppState.isSome_callback_of_serves serves)
    · cases same
      exact .replaced document (by simpa using serves)

theorem revalidate_of_empty (refresher : Refresher) {state : AppState}
    (empty : state.callback = none) (answer : Answer) (now : Nat) :
    ∀ next, refresher.revalidate crates state answer now ≠ some (next, .ok false) := by
  intro next returned
  cases revalidated_of_revalidate returned with
  | current served => simp [empty] at served

theorem revalidate_of_unasked (laws : HeaderLaws crates) (refresher : Refresher)
    {state : AppState} (empty : state.callback = none) {arrival : Arrival}
    (status : arrival.status = NOT_MODIFIED) (now : Nat) :
    ∃ next, refresher.revalidate crates state (some (.response arrival)) now =
      some (next, .error .unaskedNotModified) := by
  have noEtag : state.etag = none := by simp [AppState.etag, empty]
  have requested := @Upstream.request_eq crates laws refresher.upstream state.etag
    (by simp [noEtag])
  simp only [noEtag] at requested
  simp [revalidate, published, Upstream.retrieve, Upstream.fetch, Upstream.exchange, noEtag,
    requested, status]

/-- Only a revalidation that says so replaces what is served. -/
theorem callback_of_kept {refresher : Refresher} {state next : AppState} {answer : Answer}
    {now : Nat} {outcome : Except FetchError Bool}
    (revalidated : refresher.revalidate crates state answer now = some (next, outcome))
    (kept : outcome ≠ .ok true) : next.callback = state.callback := by
  cases revalidated_of_revalidate revalidated with
  | replaced published fresh => exact absurd rfl kept
  | current served => rfl
  | failed error => rfl

/-- The validator discipline: after any run the next request is built, and
carries the readable `ETag` of the very response the served document was
composed from, and none where nothing is served or that response carried none;
a failure leaves it as it is; and while nothing is served, nothing is found
unchanged. -/
theorem validator_discipline (laws : HeaderLaws crates) {settings : Settings} {bridge : Bridge}
    (started : Bridge.start crates settings = .ok bridge) (ticks : List Tick) :
    ∃ state, run (bridge.refresher.step crates) bridge.state ticks = some state ∧
      (∃ request, bridge.refresher.upstream.request crates state.etag = some request ∧
        (state.callback = none → request.headers.getAll IF_NONE_MATCH = []) ∧
        ∀ published, state.callback = some published →
          ∃ arrival, ServedFrom crates bridge.refresher bridge.state ticks published arrival ∧
            request.headers.getAll IF_NONE_MATCH =
              ((arrival.headers.get ETAG).filter fun value =>
                (crates.headerToStr value).isSome).toList) ∧
      (∀ answer now next error,
        bridge.refresher.revalidate crates state answer now = some (next, .error error) →
          bridge.refresher.upstream.request crates next.etag =
            bridge.refresher.upstream.request crates state.etag) ∧
      (state.callback = none → ∀ answer now next,
        bridge.refresher.revalidate crates state answer now ≠ some (next, .ok false)) ∧
      (state.callback = none → ∀ arrival now, arrival.status = NOT_MODIFIED →
        ∃ next, bridge.refresher.revalidate crates state (some (.response arrival)) now =
          some (next, .error .unaskedNotModified)) ∧
      ∀ (upstream : Upstream) arrival html hashes etag,
        Fetched.of crates arrival = .ok (.fresh html hashes etag) →
          (upstream.request crates etag).isSome := by
  have empty := Bridge.callback_of_start started
  obtain ⟨state, ran⟩ := exists_run_step laws empty ticks
  have serves := servesOffer_of_run laws empty ran
  have requested := Upstream.request_eq laws bridge.refresher.upstream
    (readable_of_servesOffer laws serves)
  refine ⟨state, ran, ⟨_, requested, ?_, ?_⟩, ?_, ?_, ?_, ?_⟩
  · intro nothing
    simp [Upstream.getAll_requestOf, AppState.etag, nothing]
  · intro published callback
    obtain ⟨arrival, served⟩ := serves published callback
    refine ⟨arrival, served, ?_⟩
    obtain ⟨_, _, _, _, _, offer, _, _, _, offers, rfl⟩ := served
    have etag : state.etag = Fetched.header crates arrival.headers ETAG := by
      rw [AppState.etag, callback, Option.bind_some, Offer.published, offers.etag]
    rw [Upstream.getAll_requestOf, etag, map_bytes_header laws]
  · intro answer now next error revalidated
    rw [AppState.etag, callback_of_kept revalidated (by simp), AppState.etag]
  · intro nothing answer now next
    exact revalidate_of_empty bridge.refresher nothing answer now next
  · intro nothing arrival now status
    exact revalidate_of_unasked laws bridge.refresher nothing status now
  · intro upstream arrival html hashes etag read
    obtain ⟨_, _, same, _⟩ := Fetched.of_eq_ok_iff.mp read
    cases same
    rw [Upstream.request_eq laws upstream fun text carried => ?_]
    · rfl
    · obtain ⟨value, _, readable⟩ := Option.bind_eq_some_iff.mp carried
      exact (laws.bytes_of_toStr readable).2

end Refresher

namespace Reference

def bridge : Bridge where
  state := state
  refresher :=
    { upstream :=
        { origin := ⟨"https://lib.id".toList⟩
          uri := "https://lib.id/ccdp/callback.html".toList }
      allowedOrigins := deployment.allowedOrigins }

theorem start_settings : Bridge.start Reference.crates settings = .ok bridge :=
  Bridge.start_eq_ok_iff.mpr ⟨deployment, _, checked_settings, rfl, rfl⟩

def page : Text :=
  "<script>".toList ++ MARKER ++ "</script>".toList

/-- That artifact answered under these fields, after its media type. -/
def arrival (headers : HeaderMap) : Arrival where
  status := OK
  headers := (CONTENT_TYPE, Text.bytes "text/html; charset=utf-8".toList) :: headers
  body := ⟨[Text.bytes page], none⟩

/-- What it offers, under whatever policy and validator it carries. -/
theorem offered_arrival {headers : HeaderMap} {hashes : List Text}
    (unencoded : headers.get CONTENT_ENCODING = none)
    (named : scriptHashes ((Fetched.header Reference.crates headers
      CONTENT_SECURITY_POLICY).getD []) = .ok hashes) :
    offered Reference.crates (some (.response (arrival headers))) =
      some ⟨page, hashes, Fetched.header Reference.crates headers ETAG⟩ := by
  have media : Fetched.header Reference.crates (arrival headers).headers CONTENT_TYPE =
      some "text/html; charset=utf-8".toList := by
    have read : Reference.crates.headerToStr (Text.bytes "text/html; charset=utf-8".toList) =
        some "text/html; charset=utf-8".toList := by decide +kernel
    rw [← read]
    rfl
  have beside : ∀ name, CONTENT_TYPE ≠ name →
      Fetched.header Reference.crates (arrival headers).headers name =
        Fetched.header Reference.crates headers name := by
    intro name other
    simp [Fetched.header, HeaderMap.get, HeaderMap.getAll, arrival, other]
  refine offered_eq_some_iff.mpr ⟨_, rfl, ?_⟩
  exact
    { status := rfl
      media := by
        rw [media]
        decide +kernel
      encoding := by
        intro encoding carried
        rw [beside _ (by decide), Fetched.header, unencoded] at carried
        cases carried
      etag := (beside _ (by decide)).symm
      hashes := by rwa [beside _ (by decide)]
      body := ⟨Text.bytes page, rfl, Text.fromUtf8_bytes page⟩
      marker := (by decide +kernel : Matches.count MARKER page = 1) }

theorem retrieve_arrival {headers : HeaderMap} {hashes : List Text}
    (unencoded : headers.get CONTENT_ENCODING = none)
    (named : scriptHashes ((Fetched.header Reference.crates headers
      CONTENT_SECURITY_POLICY).getD []) = .ok hashes) :
    ∃ published, bridge.refresher.upstream.retrieve Reference.crates
        deployment.allowedOrigins none (some (.response (arrival headers))) =
          some (.ok (some published)) ∧
      published.document.csp = Text.bytes (policy hashes) := by
  have found := offered_arrival unencoded named
  have built : (bridge.refresher.upstream.request Reference.crates none).isSome := by
    rw [Upstream.request_eq headerLaws _ (by simp)]
    rfl
  exact ⟨_, (Upstream.retrieve_eq_ok_iff headerLaws built).mpr
    (Or.inl ⟨_, found, rfl⟩), rfl⟩

/-- The tick of that artifact under one script hash and this validator. -/
def tick (hash : Text) (etag : List HeaderValue) : Refresher.Tick where
  answer := some (.response (arrival
    ((CONTENT_SECURITY_POLICY, Text.bytes ("script-src ".toList ++ hash)) ::
      etag.map fun value => (ETAG, value))))
  now := 1767225600

end Reference

/-- That artifact is served once it is retrieved, and its validator is asked
under from then on. -/
theorem Refresher.validator_discipline_tick :
    ∃ state request,
      run (Reference.bridge.refresher.step Reference.crates) Reference.bridge.state
        [Reference.tick "'sha256-A='".toList [Text.bytes "\"v1\"".toList]] = some state ∧
      state.callback.isSome ∧
      Reference.bridge.refresher.upstream.request Reference.crates state.etag = some request ∧
      request.headers.getAll IF_NONE_MATCH = [Text.bytes "\"v1\"".toList] := by
  obtain ⟨state, ran, ⟨request, requested, _, carries⟩, _⟩ :=
    Refresher.validator_discipline Reference.headerLaws Reference.start_settings
      [Reference.tick "'sha256-A='".toList [Text.bytes "\"v1\"".toList]]
  have serves : (run (Reference.bridge.refresher.step Reference.crates) Reference.bridge.state
      [Reference.tick "'sha256-A='".toList [Text.bytes "\"v1\"".toList]]).any
        (fun state => state.callback.isSome) := by
    decide +kernel
  rw [ran, Option.any_some] at serves
  obtain ⟨published, callback⟩ := Option.isSome_iff_exists.mp serves
  refine ⟨state, request, ran, serves, requested, ?_⟩
  obtain ⟨arrival, ⟨earlier, now, later, _, _, _, same, _⟩, named⟩ := carries published callback
  -- The run has one response, so it is the one that is served.
  have member : (⟨some (.response arrival), now⟩ : Refresher.Tick) ∈
      [Reference.tick "'sha256-A='".toList [Text.bytes "\"v1\"".toList]] := by
    rw [same]
    simp
  cases List.mem_singleton.mp member
  rw [named]
  decide +kernel

end LibidBridge
