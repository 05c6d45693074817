import LibidBridge.Progress

/-!
# A Distribution that answers conditional requests

The bridge against the Distribution at the other end: an artifact that may be
replaced at any time, requests answered by what is held when they are handled,
answers that take their time or are lost.  Where a validator names one artifact
and no artifact changes only its policy, the document served is always that of
the last answer delivered, whether it came whole or as a `304`; and once that is
still the artifact held, nothing is published any more.
-/

namespace LibidBridge

/-- What a Distribution that holds this response answers a request with: a `304`
where the request names the validator of what is held. -/
def Arrival.reply (held : Arrival) (request : Request) : Arrival :=
  match request.headers.get IF_NONE_MATCH with
  | none => held
  | some asked =>
      if held.status = OK ∧ held.headers.get ETAG = some asked then
        ⟨NOT_MODIFIED, [(ETAG, asked)], ⟨[], none⟩⟩
      else held

/-- The bridge and its Distribution: what that holds and has held before, what
it held when it wrote the answer on its way, and when it wrote the last one
delivered. -/
structure Exchange where
  system : System
  past : List Arrival
  held : Arrival
  inFlight : Option Arrival
  told : Option Arrival

/-- What happens next: the Distribution holds something else, answers the
request, or its answer is delivered; the request or its answer is lost; or the
bridge takes a step of its own. -/
inductive Turn
  | deploy (arrival : Arrival)
  | reply
  | deliver
  | lose (failure : Option (Text × List Text))
  | own (event : Event)

namespace Exchange

def start (bridge : Bridge) (held : Arrival) : Exchange where
  system := System.start bridge
  past := []
  held := held
  inFlight := none
  told := none

/-- Everything the Distribution has held. -/
def history (exchange : Exchange) : List Arrival :=
  exchange.past ++ [exchange.held]

variable (crates : Crates)

/-- One turn, where it can be taken. -/
def step (refresher : Refresher) (exchange : Exchange) : Turn → Option Exchange
  | .deploy arrival => some { exchange with past := exchange.history, held := arrival }
  | .reply =>
      match exchange.system.refreshing, exchange.inFlight with
      | .awaiting _, none => some { exchange with inFlight := some exchange.held }
      | _, _ => none
  | .deliver =>
      match exchange.system.refreshing, exchange.inFlight with
      | .awaiting etag, some held =>
          (refresher.upstream.request crates etag).bind fun request =>
            (exchange.system.step crates refresher
              (.receive (some (.response (held.reply request))))).map fun system =>
                { exchange with system := system, inFlight := none, told := some held }
      | _, _ => none
  | .lose failure =>
      (exchange.system.step crates refresher
        (.receive (failure.map fun why => .error why.1 why.2))).map fun system =>
          { exchange with system := system, inFlight := none }
  | .own event =>
      match event with
      | .receive _ => none
      | event =>
          (exchange.system.step crates refresher event).map fun system =>
            { exchange with system := system }

variable {crates}

/-- What each turn leads to, where it can be taken. -/
inductive Steps (crates : Crates) (refresher : Refresher) (exchange : Exchange) :
    Turn → Exchange → Prop
  | deploy (arrival : Arrival) :
      Steps crates refresher exchange (.deploy arrival)
        { exchange with past := exchange.history, held := arrival }
  | reply (etag : Option Text) (awaiting : exchange.system.refreshing = .awaiting etag) :
      Steps crates refresher exchange .reply { exchange with inFlight := some exchange.held }
  | deliver (etag : Option Text) (held : Arrival) (request : Request)
      (awaiting : exchange.system.refreshing = .awaiting etag)
      (flight : exchange.inFlight = some held)
      (requested : refresher.upstream.request crates etag = some request) :
      Steps crates refresher exchange .deliver
        { exchange with
          system := { exchange.system with
            refreshing := System.received crates refresher etag
              (some (.response (held.reply request))) }
          inFlight := none
          told := some held }
  | lose (failure : Option (Text × List Text)) (etag : Option Text)
      (awaiting : exchange.system.refreshing = .awaiting etag) :
      Steps crates refresher exchange (.lose failure)
        { exchange with
          system := { exchange.system with
            refreshing := System.received crates refresher etag
              (failure.map fun why => .error why.1 why.2) }
          inFlight := none }
  | own (event : Event) (system : System) (unasked : event.answer = none)
      (steps : System.step crates refresher exchange.system event = some system) :
      Steps crates refresher exchange (.own event) { exchange with system := system }

variable {refresher : Refresher} {exchange next : Exchange} {turn : Turn}

theorem steps_of_step (stepped : step crates refresher exchange turn = some next) :
    Steps crates refresher exchange turn next := by
  cases turn with
  | deploy arrival =>
      cases stepped
      exact .deploy arrival
  | reply =>
      simp only [step] at stepped
      split at stepped
      · next etag awaiting _ =>
          cases stepped
          exact .reply etag awaiting
      · cases stepped
  | deliver =>
      simp only [step] at stepped
      split at stepped
      · next etag held awaiting flight =>
          obtain ⟨request, requested, rest⟩ := Option.bind_eq_some_iff.mp stepped
          obtain ⟨system, receives, rfl⟩ := Option.map_eq_some_iff.mp rest
          cases System.steps_of_step receives with
          | receive answer other again =>
              cases awaiting.symm.trans again
              exact .deliver etag held request awaiting flight requested
      · cases stepped
  | lose failure =>
      obtain ⟨system, receives, rfl⟩ := Option.map_eq_some_iff.mp stepped
      cases System.steps_of_step receives with
      | receive answer etag awaiting => exact .lose failure etag awaiting
  | own event =>
      cases answer : event.answer with
      | some given =>
          cases event with
          | receive answer => cases stepped
          | _ => cases answer
      | none =>
          have same : step crates refresher exchange (.own event) =
              (exchange.system.step crates refresher event).map fun system =>
                { exchange with system := system } := by
            cases event with
            | receive answer => cases answer
            | _ => rfl
          rw [same] at stepped
          obtain ⟨system, steps, rfl⟩ := Option.map_eq_some_iff.mp stepped
          exact .own event system answer steps

/-- A validator names one artifact, and no artifact changes only the policy of
another. -/
structure Faithful (crates : Crates) (inputs : DeploymentInputs) (history : List Arrival) :
    Prop where
  validator : ∀ first ∈ history, ∀ second ∈ history, ∀ value,
    first.headers.get ETAG = some value → second.headers.get ETAG = some value →
      offered crates (some (.response first)) = offered crates (some (.response second))
  policy : ∀ first ∈ history, ∀ second ∈ history, ∀ offer other,
    first.Offers crates offer → second.Offers crates other →
      ¬ PolicyOnlyChange crates inputs offer other

theorem Faithful.mono {inputs : DeploymentInputs} {history later : List Arrival}
    (faithful : Faithful crates inputs later) (within : history ⊆ later) :
    Faithful crates inputs history where
  validator first firstMem second secondMem :=
    faithful.validator first (within firstMem) second (within secondMem)
  policy first firstMem second secondMem :=
    faithful.policy first (within firstMem) second (within secondMem)

theorem history_step (stepped : step crates refresher exchange turn = some next) :
    exchange.history ⊆ next.history := by
  cases steps_of_step stepped with
  | deploy arrival => exact List.subset_append_left _ _
  | _ => exact List.Subset.refl _

theorem get_ifNoneMatch (laws : HeaderLaws crates) {etag : Option Text}
    (readable : ∀ text, etag = some text → ∀ letter ∈ text, IsReadable letter)
    {request : Request} (requested : refresher.upstream.request crates etag = some request) :
    request.headers.get IF_NONE_MATCH = etag.map Text.bytes := by
  rw [Upstream.request_eq laws _ readable] at requested
  cases requested
  rw [HeaderMap.get, Upstream.getAll_requestOf]
  cases etag <;> rfl

/-- A reply is what is held, or says that it is what the request named. -/
theorem reply_cases (laws : HeaderLaws crates) {etag : Option Text}
    (readable : ∀ text, etag = some text → ∀ letter ∈ text, IsReadable letter)
    {request : Request} (requested : refresher.upstream.request crates etag = some request)
    (held : Arrival) :
    held.reply request = held ∨
    ((held.reply request).status = NOT_MODIFIED ∧
      ∃ text, etag = some text ∧ held.headers.get ETAG = some (Text.bytes text)) := by
  have named := get_ifNoneMatch laws readable requested
  unfold Arrival.reply
  rw [named]
  cases etag with
  | none => exact Or.inl rfl
  | some text =>
      dsimp only [Option.map_some]
      split_ifs with same
      · exact Or.inr ⟨rfl, text, rfl, same.2⟩
      · exact Or.inl rfl

/-- A document a delivered answer gives was held by the Distribution. -/
theorem offers_of_held_received (laws : HeaderLaws crates) {etag : Option Text}
    (readable : ∀ text, etag = some text → ∀ letter ∈ text, IsReadable letter)
    {request : Request} (requested : refresher.upstream.request crates etag = some request)
    {held : Arrival} {published : Published}
    (gives : (System.received crates refresher etag
      (some (.response (held.reply request)))).held = some published) :
    ∃ offer, held.Offers crates offer ∧
      published = offer.published crates refresher.inputs := by
  obtain ⟨offer, found, same⟩ :=
    Upstream.exists_offer_of_retrieve laws (System.held_received gives)
  obtain ⟨arrival, answer, offers⟩ := offered_eq_some_iff.mp found
  cases answer
  rcases reply_cases laws readable requested held with whole | ⟨unchanged, _⟩
  · rw [whole] at offers
    exact ⟨offer, offers, same⟩
  · have distinct : NOT_MODIFIED ≠ OK := by decide
    exact absurd (unchanged.symm.trans offers.status) distinct

/-- An answer delivered whole is compared with what is served. -/
theorem received_of_offers (laws : HeaderLaws crates) {etag : Option Text}
    (built : (refresher.upstream.request crates etag).isSome) {held : Arrival} {offer : Offer}
    (offers : held.Offers crates offer) :
    System.received crates refresher etag (some (.response held)) =
      .comparing (offer.published crates refresher.inputs) := by
  have retrieved := (@Upstream.retrieve_eq_ok_iff crates laws refresher.upstream
    refresher.allowedOrigins etag (some (.response held)) _ built).mpr
      (Or.inl ⟨offer, offered_eq_some_iff.mpr ⟨held, rfl, offers⟩, rfl⟩)
  rw [System.received, retrieved]
  rfl

/-- A `304` to a request that named a validator leaves what is served to be
counted. -/
theorem received_of_notModified (laws : HeaderLaws crates) {text : Text}
    (built : (refresher.upstream.request crates (some text)).isSome) {arrival : Arrival}
    (status : arrival.status = NOT_MODIFIED) :
    System.received crates refresher (some text) (some (.response arrival)) =
      .countingUnchanged := by
  have retrieved := (@Upstream.retrieve_eq_ok_iff crates laws refresher.upstream
    refresher.allowedOrigins (some text) (some (.response arrival)) none built).mpr
      (Or.inr ⟨rfl, rfl, arrival, rfl, status⟩)
  rw [System.received, retrieved]

/-- What a document's validator is in the answer it was composed from. -/
theorem get_etag_of_published (laws : HeaderLaws crates) {inputs : DeploymentInputs}
    {arrival : Arrival} {offer : Offer} (offers : arrival.Offers crates offer) {text : Text}
    (carried : (offer.published crates inputs).etag = some text) :
    arrival.headers.get ETAG = some (Text.bytes text) := by
  have named : Fetched.header crates arrival.headers ETAG = some text :=
    offers.etag.symm.trans carried
  obtain ⟨value, present, read⟩ := Option.bind_eq_some_iff.mp named
  rw [present, (laws.bytes_of_toStr read).1]

/-- The document that will be served when the revalidation under way ends. -/
def settling (exchange : Exchange) : Option Published :=
  exchange.system.refreshing.held.or exchange.system.state.callback

/-- What is served or held was composed from something the Distribution held,
and is what the last answer delivered stands for. -/
structure Agrees (crates : Crates) (inputs : DeploymentInputs) (exchange : Exchange) :
    Prop where
  source : ∀ published, exchange.system.state.callback = some published ∨
    exchange.system.refreshing.held = some published →
      ∃ arrival ∈ exchange.history, ∃ offer, arrival.Offers crates offer ∧
        published = offer.published crates inputs
  asked : ∀ etag, exchange.system.refreshing = .awaiting etag →
    etag = exchange.system.state.etag
  flight : ∀ held, exchange.inFlight = some held →
    held ∈ exchange.history ∧ ∃ etag, exchange.system.refreshing = .awaiting etag
  current : ∀ held, exchange.told = some held → held ∈ exchange.history ∧
    ∀ offer, held.Offers crates offer →
      exchange.settling = some (offer.published crates inputs)

/-- The same document under the same validator is the same under the same
policy, of a faithful Distribution. -/
theorem Faithful.published_eq {inputs : DeploymentInputs} {history : List Arrival}
    (faithful : Faithful crates inputs history) {first second : Arrival}
    (firstMem : first ∈ history) (secondMem : second ∈ history) {offer other : Offer}
    (offers : first.Offers crates offer) (offersOther : second.Offers crates other)
    {state : AppState} (served : state.callback = some (offer.published crates inputs))
    (current : state.serves (other.published crates inputs) = true) :
    offer.published crates inputs = other.published crates inputs := by
  obtain ⟨published, callback, sameEtag, sameBody⟩ := serves_eq_true_iff.mp current
  cases served.symm.trans callback
  exact published_eq_of_not_policyOnlyChange
    (faithful.policy first firstMem second secondMem offer other offers offersOther)
    sameEtag sameBody

/-- Going on does not change what will be served, where the same document under
the same validator is the same under the same policy. -/
theorem settling_proceed {system next : System} {now : Nat}
    (same : ∀ published current, system.refreshing = .comparing published →
      system.state.callback = some current → system.state.serves published = true →
        current = published)
    (proceeds : System.proceed crates refresher system now = some next) :
    next.refreshing.held.or next.state.callback =
      system.refreshing.held.or system.state.callback := by
  obtain ⟨state, refreshing, returned, handlers⟩ := system
  cases refreshing with
  | idle | awaiting | panicked => cases proceeds
  | comparing published =>
      cases proceeds
      cases serves : state.serves published with
      | false => simp [Refreshing.held]
      | true =>
          obtain ⟨current, served, _⟩ := serves_eq_true_iff.mp serves
          have unchanged := same published current rfl served serves
          simp [Refreshing.held, served, unchanged]
  | _ =>
      cases proceeds
      rfl

/-- Going on serves nothing that was neither served nor held. -/
theorem source_proceed {system next : System} {now : Nat} {published : Published}
    (proceeds : System.proceed crates refresher system now = some next)
    (found : next.state.callback = some published ∨ next.refreshing.held = some published) :
    system.state.callback = some published ∨ system.refreshing.held = some published := by
  rcases found with served | held
  · rcases System.callback_proceed proceeds with ⟨_, same, _⟩ | ⟨other, replacing, _, replaced, _⟩ |
      ⟨_, _, same, _⟩
    · exact Or.inl (same ▸ served)
    · right
      cases replaced.symm.trans served
      rw [replacing]
      rfl
    · exact Or.inl (same ▸ served)
  · exact Or.inr (System.held_proceed proceeds held)

theorem proceed_ne_awaiting {system next : System} {now : Nat}
    (proceeds : System.proceed crates refresher system now = some next) (etag : Option Text) :
    next.refreshing ≠ .awaiting etag := by
  obtain ⟨state, refreshing, returned, handlers⟩ := system
  cases refreshing with
  | idle | awaiting | panicked => cases proceeds
  | comparing published =>
      cases proceeds
      dsimp only
      split_ifs <;> exact nofun
  | _ =>
      cases proceeds
      exact nofun

theorem Agrees.own {event : Event} {system : System}
    (agrees : Agrees crates refresher.inputs exchange)
    (faithful : Faithful crates refresher.inputs exchange.history)
    (unasked : event.answer = none)
    (steps : System.step crates refresher exchange.system event = some system) :
    Agrees crates refresher.inputs { exchange with system := system } := by
  obtain ⟨source, asked, flight, current⟩ := agrees
  cases System.steps_of_step steps with
  | begin idle =>
      rw [settling, idle] at current
      refine ⟨fun published found => source published (found.imp_right nofun),
        fun etag again => (Refreshing.awaiting.inj again).symm, fun held sent => ?_, current⟩
      exact ⟨(flight held sent).1, _, rfl⟩
  | receive answer etag awaiting => cases unasked
  | proceed now next proceeds =>
      have same : ∀ published other, exchange.system.refreshing = .comparing published →
          exchange.system.state.callback = some other →
            exchange.system.state.serves published = true → other = published := by
        intro published other comparing served serves
        have held : exchange.system.refreshing.held = some published := by
          rw [comparing]
          rfl
        obtain ⟨first, firstMem, offer, offers, rfl⟩ := source other (Or.inl served)
        obtain ⟨second, secondMem, newer, offersNewer, rfl⟩ := source published (Or.inr held)
        exact faithful.published_eq firstMem secondMem offers offersNewer served serves
      have settles := settling_proceed same proceeds
      refine ⟨fun published found => source published (source_proceed proceeds found),
        fun etag again => absurd again (proceed_ne_awaiting proceeds etag),
        fun held sent => ?_, ?_⟩
      · obtain ⟨_, etag, awaiting⟩ := flight held sent
        rw [System.proceed, awaiting] at proceeds
        cases proceeds
      · unfold settling at current ⊢
        rwa [settles]
  | arrive body => exact ⟨source, asked, flight, current⟩
  | advance index handler state after present advances =>
      have same := System.callback_advance advances
      constructor
      · intro published found
        exact source published (found.imp_left fun served => same ▸ served)
      · intro etag again
        rw [AppState.etag, same]
        exact asked etag again
      · exact flight
      · unfold settling at current ⊢
        rwa [same]

section Steps

variable (laws : HeaderLaws crates)

include laws

theorem Agrees.delivered {etag : Option Text} {held : Arrival} {request : Request}
    (agrees : Agrees crates refresher.inputs exchange)
    (faithful : Faithful crates refresher.inputs exchange.history)
    (lives : exchange.system.Lives) (awaiting : exchange.system.refreshing = .awaiting etag)
    (flight : exchange.inFlight = some held)
    (requested : refresher.upstream.request crates etag = some request) :
    Agrees crates refresher.inputs
      { exchange with
        system := { exchange.system with
          refreshing := System.received crates refresher etag
            (some (.response (held.reply request))) }
        inFlight := none
        told := some held } := by
  have readable := lives.2 etag awaiting
  have built : (refresher.upstream.request crates etag).isSome := by
    rw [requested]
    rfl
  obtain ⟨heldMem, _⟩ := agrees.flight held flight
  constructor
  · rintro published (served | gives)
    · exact agrees.source published (Or.inl served)
    · obtain ⟨offer, offers, same⟩ := offers_of_held_received laws readable requested gives
      exact ⟨held, heldMem, offer, offers, same⟩
  · intro other again
    exact absurd again ((System.lives_received laws readable _).2 other)
  · exact nofun
  · rintro _ ⟨⟩
    refine ⟨heldMem, fun offer offers => ?_⟩
    rcases reply_cases laws readable requested held with whole | ⟨unchanged, text, rfl, named⟩
    · rw [settling, whole, received_of_offers laws built offers]
      rfl
    · -- The request named the validator of what is served, which names what is held.
      rw [settling, received_of_notModified laws built unchanged]
      have asked := agrees.asked _ awaiting
      obtain ⟨published, served, carried⟩ := Option.bind_eq_some_iff.mp asked.symm
      obtain ⟨arrival, member, other, offersOther, rfl⟩ :=
        agrees.source published (Or.inl served)
      have sameOffer := faithful.validator arrival member held heldMem _
        (get_etag_of_published laws offersOther carried) named
      rw [offered_eq_some_iff.mpr ⟨arrival, rfl, offersOther⟩,
        offered_eq_some_iff.mpr ⟨held, rfl, offers⟩] at sameOffer
      cases sameOffer
      exact served

/-- What is lost gives no document. -/
theorem held_received_of_lost (failure : Option (Text × List Text)) (etag : Option Text) :
    (System.received crates refresher etag
      (failure.map fun why => .error why.1 why.2)).held = none := by
  cases gives : (System.received crates refresher etag
      (failure.map fun why => Reply.error why.1 why.2)).held with
  | none => rfl
  | some published =>
      obtain ⟨offer, found, _⟩ :=
        Upstream.exists_offer_of_retrieve laws (System.held_received gives)
      cases failure <;> cases found

theorem agrees_step (agrees : Agrees crates refresher.inputs exchange)
    (faithful : Faithful crates refresher.inputs exchange.history)
    (lives : exchange.system.Lives)
    (stepped : step crates refresher exchange turn = some next) :
    Agrees crates refresher.inputs next := by
  have within := history_step stepped
  cases steps_of_step stepped with
  | deploy arrival =>
      obtain ⟨source, asked, flight, current⟩ := agrees
      constructor
      · intro published found
        obtain ⟨arrival, member, rest⟩ := source published found
        exact ⟨arrival, within member, rest⟩
      · exact asked
      · intro held sent
        exact ⟨within (flight held sent).1, (flight held sent).2⟩
      · intro held told
        exact ⟨within (current held told).1, (current held told).2⟩
  | reply etag awaiting =>
      obtain ⟨source, asked, flight, current⟩ := agrees
      refine ⟨source, asked, ?_, current⟩
      rintro held ⟨⟩
      exact ⟨List.mem_append_right _ (List.mem_singleton_self _), etag, awaiting⟩
  | deliver etag held request awaiting flight requested =>
      exact agrees.delivered laws faithful lives awaiting flight requested
  | lose failure etag awaiting =>
      obtain ⟨source, asked, flight, current⟩ := agrees
      have lost := @held_received_of_lost crates refresher laws failure etag
      constructor
      · rintro published (served | gives)
        · exact source published (Or.inl served)
        · cases lost.symm.trans gives
      · intro other again
        exact absurd again ((System.lives_received laws (lives.2 etag awaiting) _).2 other)
      · exact nofun
      · unfold settling at current ⊢
        rw [awaiting] at current
        rwa [lost]
  | own event system unasked steps => exact agrees.own faithful unasked steps

end Steps

variable {bridge : Bridge} {first : Arrival} {turns : List Turn}

/-- A run against the Distribution is one of the bridge. -/
theorem exists_run_system
    (ran : run (step crates refresher) (start bridge first) turns = some exchange) :
    ∃ events, run (System.step crates refresher) (System.start bridge) events =
      some exchange.system := by
  apply run_history _ _ ran
  · exact ⟨[], rfl⟩
  · intro turns middle turn next _ ⟨events, before⟩ stepped
    cases steps_of_step stepped with
    | deploy arrival => exact ⟨events, before⟩
    | reply etag awaiting => exact ⟨events, before⟩
    | deliver etag held request awaiting flight requested =>
        refine ⟨events ++ [.receive (some (.response (held.reply request)))],
          run_snoc_eq_some.mpr ⟨_, before, ?_⟩⟩
        rw [System.step, awaiting]
    | lose failure etag awaiting =>
        refine ⟨events ++ [.receive (failure.map fun why => .error why.1 why.2)],
          run_snoc_eq_some.mpr ⟨_, before, ?_⟩⟩
        rw [System.step, awaiting]
    | own event system unasked steps =>
        exact ⟨events ++ [event], run_snoc_eq_some.mpr ⟨_, before, steps⟩⟩

theorem agrees_of_run (laws : HeaderLaws crates) {settings : Settings}
    (started : Bridge.start crates settings = .ok bridge)
    (ran : run (step crates bridge.refresher) (start bridge first) turns = some exchange)
    (faithful : Faithful crates bridge.refresher.inputs exchange.history) :
    Agrees crates bridge.refresher.inputs exchange := by
  have empty := Bridge.callback_of_start started
  revert faithful
  apply run_history _ _ ran
  · intro _
    refine ⟨?_, nofun, nofun, nofun⟩
    rintro published (served | held)
    · cases empty.symm.trans served
    · cases held
  · intro turns middle turn next before agrees stepped faithful
    have earlier := faithful.mono (history_step stepped)
    obtain ⟨events, ranEvents⟩ := exists_run_system before
    exact agrees_step laws (agrees earlier) earlier
      (System.lives_of_run laws started ranEvents) stepped

/-- Of a Distribution whose validators name one artifact each, and no artifact
of which changes only the policy of another: whatever it replaced, answered and
lost, once no document is on its way to be served, the one served is that of the
last answer delivered. -/
theorem coherent (laws : HeaderLaws crates) {settings : Settings}
    (started : Bridge.start crates settings = .ok bridge)
    (ran : run (step crates bridge.refresher) (start bridge first) turns = some exchange)
    (faithful : Faithful crates bridge.refresher.inputs exchange.history)
    {held : Arrival} (told : exchange.told = some held) {offer : Offer}
    (offers : held.Offers crates offer) (settled : exchange.system.refreshing.held = none) :
    exchange.system.state.callback = some (offer.published crates bridge.refresher.inputs) := by
  have agrees := agrees_of_run laws started ran faithful
  have settles := (agrees.current held told).2 offer offers
  rwa [settling, settled] at settles

end Exchange

/-- The refresher publishes nothing, or compares a document with what is
served. -/
def Refreshing.Rests (published : Published) : Refreshing → Prop
  | .comparing other => other = published
  | .replacing _ | .clearing | .countingPublished | .settingAvailable
  | .settingPublishedAt => False
  | .idle | .awaiting _ | .countingUnchanged | .countingFailed _ | .countingKind _
  | .recording _ | .panicked => True

namespace Exchange

/-- What is held is what was answered last and what is served, and no
revalidation since has published. -/
structure Rests (published : Published) (held : Arrival)
    (returned : List (Except FetchError Bool)) (exchange : Exchange) : Prop where
  holds : exchange.held = held
  told : exchange.told = some held
  flight : ∀ other, exchange.inFlight = some other → other = held
  served : exchange.system.state.callback = some published
  refreshing : exchange.system.refreshing.Rests published
  returned : ∃ later, exchange.system.returned = returned ++ later ∧ .ok true ∉ later

theorem rests_received_of_held {etag : Option Text} {answer : Answer} (published : Published)
    (none : (System.received crates refresher etag answer).held = none) :
    (System.received crates refresher etag answer).Rests published := by
  unfold System.received at none ⊢
  split at none <;> trivial

theorem serves_of_callback {state : AppState} {published : Published}
    (served : state.callback = some published) : state.serves published = true :=
  serves_eq_true_iff.mpr ⟨published, served, rfl, rfl⟩

/-- A step of the bridge's own publishes nothing where it rests. -/
theorem Rests.own {published : Published} {held : Arrival}
    {returned : List (Except FetchError Bool)} {event : Event} {system : System}
    (rests : Rests published held returned exchange) (unasked : event.answer = none)
    (steps : System.step crates refresher exchange.system event = some system) :
    Rests published held returned { exchange with system := system } := by
  obtain ⟨holds, told, flight, served, refreshing, later, same, absent⟩ := rests
  cases System.steps_of_step steps with
  | begin idle => exact ⟨holds, told, flight, served, trivial, later, same, absent⟩
  | receive answer etag awaiting => cases unasked
  | arrive body => exact ⟨holds, told, flight, served, refreshing, later, same, absent⟩
  | advance index handler state after present advances =>
      refine ⟨holds, told, flight, ?_, refreshing, later, same, absent⟩
      rwa [System.callback_advance advances]
  | proceed now next proceeds =>
      obtain ⟨system, past, held, inFlight, told⟩ := exchange
      obtain ⟨state, standing, outcomes, handlers⟩ := system
      have ended : ∀ outcome, outcome ≠ Except.ok true →
          ∃ later, outcomes ++ [outcome] = returned ++ later ∧ .ok true ∉ later := by
        intro outcome other
        refine ⟨later ++ [outcome], by rw [← List.append_assoc, ← same], ?_⟩
        simpa [absent] using other.symm
      cases standing with
      | idle | awaiting | panicked => cases proceeds
      | replacing | clearing | countingPublished | settingAvailable | settingPublishedAt =>
          cases refreshing
      | comparing other =>
          -- What is compared is what is served.
          cases refreshing
          cases proceeds
          rw [serves_of_callback served, if_pos rfl]
          exact ⟨holds, told, flight, served, trivial, later, same, absent⟩
      | countingUnchanged =>
          cases proceeds
          exact ⟨holds, told, flight, served, trivial, ended _ (by simp)⟩
      | recording error =>
          cases proceeds
          exact ⟨holds, told, flight, served, trivial, ended _ nofun⟩
      | countingFailed error | countingKind error =>
          cases proceeds
          exact ⟨holds, told, flight, served, trivial, later, same, absent⟩

/-- Nothing that happens while the Distribution holds the same publishes
anything. -/
theorem rests_step (laws : HeaderLaws crates) {held : Arrival} {offer : Offer}
    (offers : held.Offers crates offer) {returned : List (Except FetchError Bool)}
    (rests : Rests (offer.published crates refresher.inputs) held returned exchange)
    (lives : exchange.system.Lives) (kept : ∀ arrival, turn ≠ .deploy arrival)
    (stepped : step crates refresher exchange turn = some next) :
    Rests (offer.published crates refresher.inputs) held returned next := by
  cases steps_of_step stepped with
  | deploy arrival => exact absurd rfl (kept arrival)
  | reply etag awaiting =>
      obtain ⟨holds, told, flight, served, refreshing, returned⟩ := rests
      exact ⟨holds, told, fun other sent => (Option.some.inj sent).symm.trans holds, served,
        refreshing, returned⟩
  | deliver etag other request awaiting flight requested =>
      obtain ⟨holds, told, sent, served, refreshing, returned⟩ := rests
      cases sent other flight
      have readable := lives.2 etag awaiting
      have built : (refresher.upstream.request crates etag).isSome := by
        rw [requested]
        rfl
      refine ⟨holds, rfl, nofun, served, ?_, returned⟩
      rcases reply_cases laws readable requested held with whole | ⟨unchanged, text, rfl, _⟩
      · rw [whole, received_of_offers laws built offers]
        rfl
      · rw [received_of_notModified laws built unchanged]
        trivial
  | lose failure etag awaiting =>
      obtain ⟨holds, told, sent, served, refreshing, returned⟩ := rests
      exact ⟨holds, told, nofun, served,
        rests_received_of_held _ (held_received_of_lost laws failure etag), returned⟩
  | own event system unasked steps => exact rests.own unasked steps

/-- Once the last answer delivered is what a faithful Distribution holds, and
until it holds something else, the document served is the one that offers and
nothing is published, however many revalidations are answered, whole or as
unchanged, or fail. -/
theorem quiescent (laws : HeaderLaws crates) {settings : Settings}
    (started : Bridge.start crates settings = .ok bridge)
    (ran : run (step crates bridge.refresher) (start bridge first) turns = some exchange)
    (faithful : Faithful crates bridge.refresher.inputs exchange.history)
    (idle : exchange.system.refreshing = .idle) (told : exchange.told = some exchange.held)
    {offer : Offer} (offers : exchange.held.Offers crates offer) {later : List Turn}
    (kept : ∀ turn ∈ later, ∀ arrival, turn ≠ .deploy arrival) {final : Exchange}
    (ranLater : run (step crates bridge.refresher) exchange later = some final) :
    final.system.state.callback = some (offer.published crates bridge.refresher.inputs) ∧
    ∃ outcomes, final.system.returned = exchange.system.returned ++ outcomes ∧
      .ok true ∉ outcomes := by
  have agrees := agrees_of_run laws started ran faithful
  have settles := (agrees.current _ told).2 offer offers
  rw [settling, idle] at settles
  have begins : Rests (offer.published crates bridge.refresher.inputs) exchange.held
      exchange.system.returned exchange := by
    refine ⟨rfl, told, fun other sent => ?_, settles, ?_, [], (List.append_nil _).symm, nofun⟩
    · obtain ⟨_, etag, awaiting⟩ := agrees.flight other sent
      cases idle.symm.trans awaiting
    · rw [idle]
      trivial
  have rests : Rests (offer.published crates bridge.refresher.inputs) exchange.held
      exchange.system.returned final := by
    apply @run_history_of_forall _ _ _ _ _ _ (fun _ exchange' => Rests _ exchange.held
      exchange.system.returned exchange')
      (fun taken => ∀ arrival, taken.2.1 ≠ .deploy arrival) begins _ _ ranLater
    · intro labels middle turn next before rests met stepped
      obtain ⟨events, ranEvents⟩ := exists_run_system
        (run_append_eq_some.mpr ⟨exchange, ran, before⟩)
      exact rests_step laws offers rests (System.lives_of_run laws started ranEvents) met stepped
    · intro taken member
      exact kept _ (label_mem_of_mem_transitions member)
  exact ⟨rests.served, rests.returned⟩

end Exchange

deriving instance DecidableEq for Incoming, Arrival

namespace Reference

/-- The artifact under one script hash and this validator. -/
def release (etag : HeaderValue) : Arrival :=
  arrival [(CONTENT_SECURITY_POLICY, Text.bytes "script-src 'sha256-A='".toList), (ETAG, etag)]

def former : Arrival :=
  release (Text.bytes "\"a\"".toList)

def latter : Arrival :=
  release (Text.bytes "\"b\"".toList)

theorem offered_release (etag : HeaderValue) : ∃ offer,
    offered Reference.crates (some (.response (release etag))) = some offer ∧
      offer.hashes = ["'sha256-A='".toList] := by
  have named : scriptHashes ((Fetched.header Reference.crates
      [(CONTENT_SECURITY_POLICY, Text.bytes "script-src 'sha256-A='".toList)]
      CONTENT_SECURITY_POLICY).getD []) = .ok ["'sha256-A='".toList] := by decide +kernel
  exact ⟨_, offered_arrival rfl named, rfl⟩

theorem faithful_release (inputs : DeploymentInputs) {history : List Arrival}
    (released : ∀ arrival ∈ history, ∃ etag, arrival = release etag) :
    Exchange.Faithful Reference.crates inputs history where
  validator := by
    intro first firstMem second secondMem value named namedOther
    obtain ⟨etag, rfl⟩ := released first firstMem
    obtain ⟨other, rfl⟩ := released second secondMem
    cases named
    cases namedOther
    rfl
  policy := by
    rintro first firstMem second secondMem offer other offers offersOther ⟨_, _, differ⟩
    have hashes : ∀ arrival ∈ history, ∀ offer, arrival.Offers Reference.crates offer →
        offer.hashes = ["'sha256-A='".toList] := by
      intro arrival member offer offers
      obtain ⟨etag, rfl⟩ := released arrival member
      obtain ⟨given, found, carried⟩ := offered_release etag
      cases found.symm.trans (offered_eq_some_iff.mpr ⟨_, rfl, offers⟩)
      exact carried
    apply differ
    rw [hashes first firstMem offer offers, hashes second secondMem other offersOther]

/-- An artifact is replaced while the answer that gives it is on its way, and
the next revalidation brings the one that replaced it. -/
def replacement : List Turn :=
  [.own .begin, .reply, .deploy latter, .deliver] ++ List.replicate 6 (.own (.proceed 1)) ++
    [.own .begin, .reply, .deliver] ++ List.replicate 6 (.own (.proceed 2))

theorem exists_replacement :
    ∃ exchange, run (Exchange.step Reference.crates Reference.bridge.refresher)
        (Exchange.start Reference.bridge former) replacement = some exchange ∧
      exchange.history = [former, latter] ∧ exchange.held = latter ∧
      exchange.told = some latter ∧ exchange.system.refreshing = .idle := by
  have ran : (run (Exchange.step Reference.crates Reference.bridge.refresher)
      (Exchange.start Reference.bridge former) replacement).any
        (fun exchange => exchange.history = [former, latter] ∧ exchange.held = latter ∧
          exchange.told = some latter ∧ exchange.system.refreshing = .idle) := by
    decide +kernel
  obtain ⟨exchange, ran, stands⟩ := (Option.any_eq_true _ _).mp ran
  exact ⟨exchange, ran, of_decide_eq_true stands⟩

theorem faithful_replacement :
    Exchange.Faithful Reference.crates Reference.bridge.refresher.inputs [former, latter] := by
  apply faithful_release
  simp only [List.mem_cons, List.not_mem_nil, or_false]
  rintro arrival (rfl | rfl)
  · exact ⟨_, rfl⟩
  · exact ⟨_, rfl⟩

end Reference

namespace Exchange

theorem coherent_replacement :
    ∃ exchange offer, run (step Reference.crates Reference.bridge.refresher)
        (start Reference.bridge Reference.former) Reference.replacement = some exchange ∧
      Reference.latter.Offers Reference.crates offer ∧
      exchange.system.state.callback =
        some (offer.published Reference.crates Reference.bridge.refresher.inputs) := by
  obtain ⟨exchange, ran, held, _, told, idle⟩ := Reference.exists_replacement
  obtain ⟨offer, found, _⟩ := Reference.offered_release (Text.bytes "\"b\"".toList)
  obtain ⟨_, ⟨⟩, offers⟩ := offered_eq_some_iff.mp found
  refine ⟨exchange, offer, ran, offers, coherent Reference.headerLaws Reference.start_settings
    ran ?_ told offers ?_⟩
  · rw [held]
    exact Reference.faithful_replacement
  · rw [idle]
    rfl

theorem quiescent_replacement :
    ∃ exchange final, run (step Reference.crates Reference.bridge.refresher)
        (start Reference.bridge Reference.former) Reference.replacement = some exchange ∧
      run (step Reference.crates Reference.bridge.refresher) exchange
        [.own .begin, .reply, .deliver, .own (.proceed 3)] = some final ∧
      ∃ outcomes, final.system.returned = exchange.system.returned ++ outcomes ∧
        .ok true ∉ outcomes := by
  obtain ⟨exchange, ran, past, held, told, idle⟩ := Reference.exists_replacement
  obtain ⟨offer, found, _⟩ := Reference.offered_release (Text.bytes "\"b\"".toList)
  obtain ⟨_, ⟨⟩, offers⟩ := offered_eq_some_iff.mp found
  have whole : (run (step Reference.crates Reference.bridge.refresher)
      (start Reference.bridge Reference.former)
      (Reference.replacement ++ [.own .begin, .reply, .deliver, .own (.proceed 3)])).isSome := by
    decide +kernel
  obtain ⟨final, ranWhole⟩ := Option.isSome_iff_exists.mp whole
  obtain ⟨middle, before, ranLater⟩ := run_append_eq_some.mp ranWhole
  cases ran.symm.trans before
  have offersHeld : exchange.held.Offers Reference.crates offer := by
    rw [held]
    exact offers
  refine ⟨exchange, final, ran, ranLater, (quiescent Reference.headerLaws
    Reference.start_settings ran ?_ idle (told.trans (congrArg some held.symm)) offersHeld ?_
      ranLater).2⟩
  · rw [past]
    exact Reference.faithful_replacement
  · simp

end Exchange

end LibidBridge
