import LibidBridge.Coherence
import LibidBridge.Recovery

/-!
# How soon a release is served

A Distribution that holds a release answers with it, or says that it is
unchanged to a request that named its validator.  Where every request begun from
some time on is answered so, the release is served within the interval, two
budgets and three times the slack, whatever was held, answered or lost before.
-/

namespace LibidBridge

variable {crates : Crates}

/-- What the Distribution held before is told apart from the release: by the
validator, where the two carry one, and never by the policy alone. -/
structure Offer.ToldApart (crates : Crates) (inputs : DeploymentInputs)
    (release other : Offer) : Prop where
  validator : ∀ text, other.etag = some text → release.etag = some text →
    other.published crates inputs = release.published crates inputs
  policy : ¬ PolicyOnlyChange crates inputs other release

/-- The same validator and the same body are the release. -/
theorem Offer.ToldApart.published_eq {inputs : DeploymentInputs} {release other : Offer}
    (apart : release.ToldApart crates inputs other) {state : AppState}
    (served : state.callback = some (other.published crates inputs))
    (serves : state.serves (release.published crates inputs) = true) :
    other.published crates inputs = release.published crates inputs := by
  obtain ⟨current, found, sameEtag, sameBody⟩ := serves_eq_true_iff.mp serves
  cases served.symm.trans found
  exact published_eq_of_not_policyOnlyChange apart.policy sameEtag sameBody

/-- What a Distribution that holds the release answers a request that named this
validator. -/
def Offer.isAnsweredBy (crates : Crates) (release : Offer) (asked : Option Text)
    (answer : Answer) : Bool :=
  match answer with
  | some (.response arrival) =>
      offered crates answer = some release ||
        (arrival.status = NOT_MODIFIED && asked.isSome && asked = release.etag)
  | _ => false

theorem Offer.isAnsweredBy_cases {release : Offer} {asked : Option Text} {answer : Answer}
    (answered : release.isAnsweredBy crates asked answer = true) :
    ∃ arrival, answer = some (.response arrival) ∧
      (offered crates answer = some release ∨
        arrival.status = NOT_MODIFIED ∧ ∃ text, asked = some text ∧
          release.etag = some text) := by
  unfold Offer.isAnsweredBy at answered
  split at answered
  · next arrival =>
      refine ⟨arrival, rfl, ?_⟩
      rw [Bool.or_eq_true, Bool.and_eq_true, Bool.and_eq_true] at answered
      rcases answered with whole | ⟨⟨status, named⟩, same⟩
      · exact Or.inl (of_decide_eq_true whole)
      · obtain ⟨text, asked⟩ := Option.isSome_iff_exists.mp named
        exact Or.inr ⟨of_decide_eq_true status, text, asked,
          (of_decide_eq_true same).symm.trans asked⟩
  · cases answered

namespace Service

variable {refresher : Refresher} {schedule : Schedule} {service next : Service}
variable {happening : Happening} {release : Offer} {since : Nat}

/-- A step in which the Distribution, where it answers a request begun from some
time on, answers as one that holds the release; or, once that is served, gives
nothing else. -/
def releasedFrom (crates : Crates) (inputs : DeploymentInputs) (release : Offer) (since : Nat)
    (taken : Service × Happening × Service) : Bool :=
  match taken.2.1, taken.1.loop, taken.1.system.refreshing with
  | .receive answer, .revalidating began, .awaiting asked =>
      began < since || release.isAnsweredBy crates asked answer ||
        (taken.1.system.state.callback = some (release.published crates inputs) &&
          (offered crates answer).isNone)
  | _, _, _ => true

/-- The document that will be served when the revalidation under way ends. -/
def settling (service : Service) : Option Published :=
  service.system.refreshing.held.or service.system.state.callback

/-- A retrieval begun from some time on has returned. -/
def Renewed (since : Nat) (records : List Retrieved) : Prop :=
  ∃ record ∈ records, since ≤ record.began

/-- What is served or held was told apart from the release; and once a retrieval
begun since then has its answer, the release is what will be served, and once
one has returned, it is. -/
structure Renewing (crates : Crates) (inputs : DeploymentInputs) (release : Offer)
    (since : Nat) (service : Service) (records : List Retrieved) : Prop where
  source : ∀ published, service.system.state.callback = some published ∨
    service.system.refreshing.held = some published →
      ∃ other, release.ToldApart crates inputs other ∧
        published = other.published crates inputs
  asked : ∀ etag, service.system.refreshing = .awaiting etag →
    etag = service.system.state.etag
  past : Renewed since records → since ≤ service.clock
  within : ∀ began, service.loop = .revalidating began → Renewed since records →
    since ≤ began
  answered : ∀ began, service.loop = .revalidating began → since ≤ began →
    service.system.refreshing.answered = true →
      service.settling = some (release.published crates inputs)
  served : Renewed since records →
    service.system.state.callback = some (release.published crates inputs)

namespace Renewing

variable {inputs : DeploymentInputs} {records : List Retrieved}

/-- A step that touches neither what is served nor the retrieval under way, and
completes none. -/
theorem kept (renewing : Renewing crates inputs release since service records)
    (callback : next.system.state.callback = service.system.state.callback)
    (refreshing : next.system.refreshing = service.system.refreshing)
    (loop : next.loop = service.loop ∨ next.loop = .ended)
    (clock : service.clock ≤ next.clock) :
    Renewing crates inputs release since next
      (records ++ (completed (service, happening, next)).toList) := by
  rw [completed_eq_none loop, Option.toList_none, List.append_nil]
  obtain ⟨source, asked, past, within, answered, served⟩ := renewing
  have stands : ∀ began, next.loop = .revalidating began →
      service.loop = .revalidating began := by
    intro began busy
    rcases loop with same | ended
    · exact same ▸ busy
    · cases ended.symm.trans busy
  constructor
  · rwa [callback, refreshing]
  · rwa [refreshing, AppState.etag, callback]
  · exact fun renewed => (past renewed).trans clock
  · exact fun began busy => within began (stands began busy)
  · intro began busy late
    rw [settling, refreshing, callback]
    exact answered began (stands began busy) late
  · rwa [callback]

/-- An answer that offers nothing gives no document. -/
theorem held_received_of_none (laws : HeaderLaws crates) {etag : Option Text} {answer : Answer}
    (nothing : offered crates answer = none) :
    (System.received crates refresher etag answer).held = none := by
  cases gives : (System.received crates refresher etag answer).held with
  | none => rfl
  | some published =>
      obtain ⟨offer, found, _⟩ :=
        Upstream.exists_offer_of_retrieve laws (System.held_received gives)
      cases nothing.symm.trans found

/-- The answer to a request begun since then settles on the release. -/
theorem settling_received (laws : HeaderLaws crates)
    (renewing : Renewing crates refresher.inputs release since service records)
    {etag : Option Text} (readable : ∀ text, etag = some text → ∀ letter ∈ text, IsReadable letter)
    (awaiting : service.system.refreshing = .awaiting etag) {answer : Answer}
    (answers : release.isAnsweredBy crates etag answer = true ∨
      service.system.state.callback = some (release.published crates refresher.inputs) ∧
        offered crates answer = none) :
    (System.received crates refresher etag answer).held.or service.system.state.callback =
      some (release.published crates refresher.inputs) := by
  have built : (refresher.upstream.request crates etag).isSome := by
    rw [Upstream.request_eq laws _ readable]
    rfl
  rcases answers with answered | ⟨served, nothing⟩
  · obtain ⟨arrival, rfl, whole | ⟨status, text, rfl, named⟩⟩ :=
      Offer.isAnsweredBy_cases answered
    · obtain ⟨_, ⟨⟩, offers⟩ := offered_eq_some_iff.mp whole
      rw [Exchange.received_of_offers laws built offers]
      rfl
    · rw [Exchange.received_of_notModified laws built status]
      -- The validator named is that of what is served, and of the release.
      obtain ⟨published, served, carried⟩ :=
        Option.bind_eq_some_iff.mp (renewing.asked _ awaiting).symm
      obtain ⟨other, apart, rfl⟩ := renewing.source published (Or.inl served)
      rw [← apart.validator text carried named]
      exact served
  · rw [held_received_of_none laws nothing]
    exact served

/-- Going on from where the release is what will be served, it still is. -/
theorem settling_proceed (renewing : Renewing crates inputs release since service records)
    (settles : service.settling = some (release.published crates inputs)) {now : Nat}
    {system : System}
    (proceeds : System.proceed crates refresher service.system now = some system) :
    system.refreshing.held.or system.state.callback =
      some (release.published crates inputs) := by
  rw [Exchange.settling_proceed _ proceeds]
  · exact settles
  · intro published current comparing served serves
    have held : published = release.published crates inputs := by
      rw [settling, comparing] at settles
      exact Option.some.inj settles
    subst held
    obtain ⟨other, apart, rfl⟩ := renewing.source current (Or.inl served)
    exact apart.published_eq served serves

/-- Where the release is served and will be, it still is. -/
theorem callback_proceed
    (settles : service.settling = some (release.published crates inputs))
    (served : service.system.state.callback = some (release.published crates inputs))
    {now : Nat} {system : System}
    (proceeds : System.proceed crates refresher service.system now = some system) :
    system.state.callback = some (release.published crates inputs) := by
  rcases System.callback_proceed proceeds with ⟨_, same, _⟩ |
    ⟨published, replacing, _, replaced, _⟩ | ⟨_, _, same, _⟩
  · rwa [same]
  · rw [settling, replacing] at settles
    exact replaced.trans settles
  · rwa [same]

end Renewing

section Steps

variable {records : List Retrieved} (laws : HeaderLaws crates)

include laws

theorem renewing_received
    (renewing : Renewing crates refresher.inputs release since service records)
    (lives : service.system.Lives) {answer : Answer} {began : Nat} {etag : Option Text}
    (within : service.loop = .revalidating began)
    (awaiting : service.system.refreshing = .awaiting etag)
    (apart : ∀ other, offered crates answer = some other →
      release.ToldApart crates refresher.inputs other)
    (released : releasedFrom crates refresher.inputs release since
      (service, .receive answer, next) = true) :
    Renewing crates refresher.inputs release since
      { service with
        system := { service.system with
          refreshing := System.received crates refresher etag answer } } records := by
  have readable := lives.2 etag awaiting
  constructor
  · rintro published (served | gives)
    · exact renewing.source published (Or.inl served)
    · obtain ⟨offer, found, same⟩ :=
        Upstream.exists_offer_of_retrieve laws (System.held_received gives)
      exact ⟨offer, apart offer found, same⟩
  · intro other again
    exact absurd again ((System.lives_received laws readable _).2 other)
  · exact renewing.past
  · exact renewing.within
  · intro other busy late _
    cases within.symm.trans busy
    have notEarly : ¬ began < since := by omega
    apply renewing.settling_received laws readable awaiting
    simpa [releasedFrom, within, awaiting, notEarly] using released
  · exact renewing.served

end Steps

theorem renewing_proceed {records : List Retrieved} {inputs : DeploymentInputs}
    (renewing : Renewing crates inputs release since service records) {now began : Nat}
    {system : System} (past : began ≤ service.clock)
    (within : service.loop = .revalidating began)
    (proceeds : System.proceed crates refresher service.system now = some system) :
    Renewing crates inputs release since (service.settled schedule system)
      (records ++
        (completed (service, happening, service.settled schedule system)).toList) := by
  have answered : service.system.refreshing.answered = true := by
    cases stands : service.system.refreshing with
    | idle | awaiting =>
        rw [System.proceed, stands] at proceeds
        cases proceeds
    | _ => rfl
  have settles : since ≤ began → system.refreshing.held.or system.state.callback =
      some (release.published crates inputs) := fun late =>
    renewing.settling_proceed (renewing.answered began within late answered) proceeds
  have renewed : Renewed since (records ++
      (completed (service, happening, service.settled schedule system)).toList) →
        since ≤ began := by
    rintro ⟨record, member, late⟩
    rcases List.mem_append.mp member with before | now
    · exact renewing.within began within ⟨record, before, late⟩
    · cases within.symm.trans (loop_of_completed (Option.mem_toList.mp now))
      exact late
  have source : ∀ published, system.state.callback = some published ∨
      system.refreshing.held = some published →
        ∃ other, release.ToldApart crates inputs other ∧
          published = other.published crates inputs := fun published found =>
    renewing.source published (Exchange.source_proceed proceeds found)
  have unasked : ∀ etag, system.refreshing = .awaiting etag → etag = system.state.etag :=
    fun etag again => absurd again (Exchange.proceed_ne_awaiting proceeds etag)
  rcases @settled_cases crates refresher schedule _ _ _ proceeds with
    ⟨_, _, same⟩ | ⟨outcome, idle, _, same⟩
  · rw [same] at renewed ⊢
    refine ⟨source, unasked, fun again => (renewed again).trans past, ?_, ?_, ?_⟩
    · intro other busy again
      cases within.symm.trans busy
      exact renewed again
    · intro other busy late _
      cases within.symm.trans busy
      exact settles late
    · intro again
      have late := renewed again
      have none : completed (service, happening, { service with system := system }) = none :=
        completed_eq_none (Or.inl rfl)
      rw [none, Option.toList_none, List.append_nil] at again
      exact Renewing.callback_proceed (renewing.answered began within late answered)
        (renewing.served again) proceeds
  · have served : since ≤ began →
        system.state.callback = some (release.published crates inputs) := by
      intro late
      have settled := settles late
      rwa [idle] at settled
    rw [same] at renewed ⊢
    split at renewed
    · refine ⟨source, unasked, fun again => (renewed again).trans past, ?_, ?_,
        fun again => served (renewed again)⟩
      · intro other busy
        cases busy
      · intro other busy
        cases busy
    · refine ⟨source, unasked, fun again => (renewed again).trans past, ?_, ?_,
        fun again => served (renewed again)⟩
      · intro other busy
        cases busy
      · intro other busy
        cases busy

theorem renewing_step {records : List Retrieved} (laws : HeaderLaws crates)
    (renewing : Renewing crates refresher.inputs release since service records)
    (coherent : service.Coherent schedule) (lives : service.system.Lives)
    (stepped : step crates refresher schedule service happening = some next)
    (apart : ∀ answer, happening = .receive answer → ∀ other,
      offered crates answer = some other → release.ToldApart crates refresher.inputs other)
    (released : releasedFrom crates refresher.inputs release since
      (service, happening, next) = true) :
    Renewing crates refresher.inputs release since next
      (records ++ (completed (service, happening, next)).toList) := by
  cases steps_of_step stepped with
  | elapse nanos => exact renewing.kept rfl rfl (Or.inl rfl) (Nat.le_add_right _ _)
  | wake wakes slept due idle =>
      rw [completed_of_asleep slept, Option.toList_none, List.append_nil]
      refine ⟨fun published found => renewing.source published (found.imp_right nofun),
        fun etag again => (Refreshing.awaiting.inj again).symm, renewing.past, ?_, ?_,
        renewing.served⟩
      · intro began busy renewed
        cases busy
        exact renewing.past renewed
      · intro began busy late answered
        cases answered
  | receive answer began etag within spent awaiting =>
      rw [completed_eq_none, Option.toList_none, List.append_nil]
      · exact renewing_received laws renewing lives within awaiting (apart answer rfl) released
      · exact Or.inl rfl
  | proceed now began system within proceeds =>
      exact renewing_proceed renewing (coherent.revalidating began within).2 within proceeds
  | arrive body => exact renewing.kept rfl rfl (Or.inl rfl) (le_refl _)
  | advance index system advances =>
      cases System.steps_of_step advances with
      | advance index handler state after present advanced =>
          exact renewing.kept (System.callback_advance advanced) rfl (Or.inl rfl) (le_refl _)
  | abort => exact renewing.kept rfl rfl (Or.inr rfl) (le_refl _)

section Runs

variable (ordered : schedule.floor ≤ schedule.interval)
variable (doubles : 2 * schedule.interval.nanos < 2 ^ 64 * 1000000000)
variable {bridge : Bridge} {happenings : List Happening}
variable (ran : run (step crates bridge.refresher schedule) (start schedule bridge) happenings =
  some service)
variable (laws : HeaderLaws crates) {settings : Settings}
variable (started : Bridge.start crates settings = .ok bridge)
variable (apart : ∀ answer, Happening.receive answer ∈ happenings → ∀ other,
  offered crates answer = some other → release.ToldApart crates bridge.refresher.inputs other)
variable (released : ∀ taken ∈ transitions (step crates bridge.refresher schedule)
  (start schedule bridge) happenings,
    releasedFrom crates bridge.refresher.inputs release since taken = true)

include ordered doubles ran laws started apart released

theorem renewing_of_run :
    Renewing crates bridge.refresher.inputs release since service
      (retrievals crates schedule bridge happenings) := by
  have empty := Bridge.callback_of_start started
  have every : ∀ taken ∈ transitions (step crates bridge.refresher schedule)
      (start schedule bridge) happenings,
        releasedFrom crates bridge.refresher.inputs release since taken = true ∧
        ∀ answer, taken.2.1 = .receive answer → ∀ other, offered crates answer = some other →
          release.ToldApart crates bridge.refresher.inputs other := by
    intro taken member
    refine ⟨released taken member, fun answer given => apart answer ?_⟩
    rw [← given]
    exact label_mem_of_mem_transitions member
  apply run_history_of_forall _ _ every ran
  · have unrenewed : ¬ Renewed since [] := by simp [Renewed]
    refine ⟨?_, nofun, fun again => absurd again unrenewed, nofun, nofun,
      fun again => absurd again unrenewed⟩
    rintro published (served | held)
    · cases empty.symm.trans served
    · cases held
  · intro happenings middle happening next before renewing met stepped
    rw [retrievals_snoc before stepped]
    have lives := System.lives_of_run laws started (system_run before)
    exact renewing_step laws renewing (coherent_of_run ordered doubles before) lives stepped
      met.2 met.1

/-- Where the loop's timers are late by no more than the slack, and the
Distribution answers every request begun from some time on as one that holds
the release, the release is served after the interval, two budgets and three
times the slack, whatever it held, answered and lost before, so long as that is
told apart from the release. -/
theorem release_served {slack : Nat}
    (onTime : ∀ taken ∈ transitions (step crates bridge.refresher schedule)
      (start schedule bridge) happenings, prompt slack taken = true)
    (running : service.loop ≠ .ended)
    (late : since + schedule.interval.nanos + 2 * REQUEST_TIMEOUT.nanos + 3 * slack ≤
      service.clock) :
    service.system.state.callback = some (release.published crates bridge.refresher.inputs) := by
  have renewing := renewing_of_run ordered doubles ran laws started apart released
  exact renewing.served (exists_returned_since ordered doubles ran onTime running late)

end Runs

end Service

namespace Reference

/-- One artifact is served when another is released, which the next retrieval
brings and the one after is told is unchanged. -/
def renewal : List Happening :=
  [.wake, .receive (some (.response former))] ++ List.replicate 6 (.proceed 1) ++
    [.elapse 300000000000, .wake, .receive (some (.response latter))] ++
    List.replicate 6 (.proceed 2) ++
    [.elapse 300000000000, .wake, .receive (some (.response
      ⟨NOT_MODIFIED, [(ETAG, Text.bytes "\"b\"".toList)], ⟨[], none⟩⟩)), .proceed 3]

/-- An artifact as it is offered. -/
def releaseOffer (etag : Text) : Offer :=
  ⟨page, ["'sha256-A='".toList], some etag⟩

theorem offered_former : offered Reference.crates (some (.response former)) =
    some (releaseOffer "\"a\"".toList) := by
  decide +kernel

theorem offered_latter : offered Reference.crates (some (.response latter)) =
    some (releaseOffer "\"b\"".toList) := by
  decide +kernel

theorem toldApart_renewal (inputs : DeploymentInputs) {answer : Answer}
    (given : Happening.receive answer ∈ renewal) {other : Offer}
    (offers : offered Reference.crates answer = some other) :
    (releaseOffer "\"b\"".toList).ToldApart Reference.crates inputs other := by
  have answers : (answer = some (.response former) ∨ answer = some (.response latter)) ∨
      answer = some (.response
        ⟨NOT_MODIFIED, [(ETAG, Text.bytes "\"b\"".toList)], ⟨[], none⟩⟩) := by
    simpa only [renewal, List.mem_append, List.mem_cons, List.mem_replicate, List.not_mem_nil,
      reduceCtorEq, and_false, or_false, false_or, Happening.receive.injEq] using given
  rcases answers with (rfl | rfl) | rfl
  · cases offers.symm.trans offered_former
    refine ⟨fun text named other => ?_, fun change => change.2.2 rfl⟩
    cases named
    simp [releaseOffer] at other
  · cases offers.symm.trans offered_latter
    exact ⟨fun _ _ _ => rfl, fun change => change.2.2 rfl⟩
  · rw [offered_of_notModified rfl] at offers
    cases offers

end Reference

namespace Service

theorem release_served_renewal :
    ∃ service, run (step Reference.crates Reference.bridge.refresher Schedule.DEPLOYED)
        (start Schedule.DEPLOYED Reference.bridge) Reference.renewal = some service ∧
      service.system.state.callback = some ((Reference.releaseOffer "\"b\"".toList).published
        Reference.crates Reference.bridge.refresher.inputs) := by
  have ran : (run (step Reference.crates Reference.bridge.refresher Schedule.DEPLOYED)
      (start Schedule.DEPLOYED Reference.bridge) Reference.renewal).any
        (fun service => service.loop ≠ .ended ∧ 600000000000 ≤ service.clock) := by
    decide +kernel
  obtain ⟨service, ran, stands⟩ := (Option.any_eq_true _ _).mp ran
  obtain ⟨running, late⟩ := of_decide_eq_true stands
  have onTime : (transitions (step Reference.crates Reference.bridge.refresher Schedule.DEPLOYED)
      (start Schedule.DEPLOYED Reference.bridge) Reference.renewal).all (prompt 0) := by
    decide +kernel
  have released : (transitions (step Reference.crates Reference.bridge.refresher
      Schedule.DEPLOYED) (start Schedule.DEPLOYED Reference.bridge) Reference.renewal).all
        (releasedFrom Reference.crates Reference.bridge.refresher.inputs
          (Reference.releaseOffer "\"b\"".toList) 1) := by
    decide +kernel
  have waited : 1 + Schedule.DEPLOYED.interval.nanos + 2 * REQUEST_TIMEOUT.nanos + 3 * 0 ≤
      600000000000 := by decide
  exact ⟨service, ran, release_served (by decide) (by decide) ran Reference.headerLaws
    Reference.start_settings (fun _ given _ => Reference.toldApart_renewal _ given)
    (List.all_eq_true.mp released) (List.all_eq_true.mp onTime) running (waited.trans late)⟩

end Service

end LibidBridge
