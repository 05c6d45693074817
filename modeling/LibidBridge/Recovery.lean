import LibidBridge.Pacing

/-!
# How soon a document is served again

Where the timers of the refresh loop are late by no more than some slack, no two
retrievals are further apart than the interval and the budget of one.  So once
the Distribution answers with its artifact, a document is served within the
interval, two budgets and the slack, whatever happened before.
-/

namespace LibidBridge

variable {crates : Crates}

/-- A revalidation that can still end in a replacement, where nothing is served
yet. -/
def Refreshing.hopeful : Refreshing → Bool
  | .awaiting _ | .comparing _ | .replacing _ => true
  | _ => false

namespace System

variable {refresher : Refresher} {system next : System}

/-- The artifact makes a revalidation hopeful. -/
theorem hopeful_received (laws : HeaderLaws crates) {etag : Option Text}
    (readable : ∀ text, etag = some text → ∀ letter ∈ text, IsReadable letter)
    {answer : Answer} (artifact : (offered crates answer).isSome) :
    (received crates refresher etag answer).hopeful = true := by
  have built : (refresher.upstream.request crates etag).isSome := by
    rw [Upstream.request_eq laws _ readable]
    rfl
  obtain ⟨offer, found⟩ := Option.isSome_iff_exists.mp artifact
  have retrieved := (@Upstream.retrieve_eq_ok_iff crates laws refresher.upstream
    refresher.allowedOrigins etag answer _ built).mpr (Or.inl ⟨offer, found, rfl⟩)
  rw [received, retrieved]
  rfl

/-- A hopeful revalidation stays one, or has replaced the document. -/
theorem hopeful_proceed {now : Nat}
    (proceeds : proceed crates refresher system now = some next)
    (empty : next.state.callback = none) (hopeful : system.refreshing.hopeful = true) :
    next.refreshing.hopeful = true := by
  obtain ⟨state, refreshing, returned, handlers⟩ := system
  cases refreshing with
  | comparing published =>
      cases proceeds
      have fresh : state.serves published = false := by
        dsimp only at empty
        simp [AppState.serves, empty]
      simp [fresh, Refreshing.hopeful]
  | replacing published =>
      cases proceeds
      cases empty
  | awaiting etag => cases proceeds
  | _ => cases hopeful

end System

namespace Service

/-- When the loop's timer runs out: its sleep's, or its retrieval's. -/
def due (service : Service) : Option Nat :=
  match service.loop with
  | .asleep wakes => some wakes
  | .revalidating began => some (began + REQUEST_TIMEOUT.nanos)
  | .ended => none

/-- A step that lets no more time pass than the slack after the loop's timer. -/
def prompt (slack : Nat) (taken : Service × Happening × Service) : Bool :=
  match taken.2.1, taken.1.due with
  | .elapse nanos, some due => taken.1.clock + nanos ≤ due + slack
  | _, _ => true

/-- A step in which the Distribution, where it answers from some time on a
request made with nothing served, answers with its artifact. -/
def answersFrom (crates : Crates) (since : Nat) (taken : Service × Happening × Service) : Bool :=
  match taken.2.1 with
  | .receive answer =>
      taken.1.system.state.callback.isSome || taken.1.clock < since ||
        (offered crates answer).isSome
  | _ => true

variable {refresher : Refresher} {schedule : Schedule} {service next : Service}
variable {happening : Happening}

/-- When the last retrieval returned, or the service started. -/
def lastReturn (records : List Retrieved) : Nat :=
  (records.getLast?.map Retrieved.ended).getD 0

/-- How far the clock can be past what the loop waits for, and that past the
last return; and how long each retrieval took. -/
structure Prompted (schedule : Schedule) (slack : Nat) (service : Service)
    (records : List Retrieved) : Prop where
  asleep : ∀ wakes, service.loop = .asleep wakes →
    service.clock ≤ wakes + slack ∧ wakes ≤ lastReturn records + schedule.interval.nanos
  revalidating : ∀ began, service.loop = .revalidating began →
    service.clock ≤ began + REQUEST_TIMEOUT.nanos + slack ∧
      began ≤ lastReturn records + schedule.interval.nanos + slack
  took : ∀ record ∈ records, record.ended ≤ record.began + REQUEST_TIMEOUT.nanos + slack

/-- The clock stands still in every step but one that lets time pass. -/
theorem clock_step (stepped : step crates refresher schedule service happening = some next) :
    next.clock = service.clock ∨
      ∃ nanos, happening = .elapse nanos ∧
        next = { service with clock := service.clock + nanos } := by
  cases steps_of_step stepped with
  | elapse nanos => exact Or.inr ⟨nanos, rfl, rfl⟩
  | proceed now began system within proceeds => exact Or.inl (settled_clock system)
  | _ => exact Or.inl rfl

/-- While nothing is served: no retrieval begun since then has returned, and one
that is under way is hopeful. -/
def Recovering (since : Nat) (service : Service) (records : List Retrieved) : Prop :=
  service.system.state.callback = none →
    (∀ record ∈ records, record.began < since) ∧
    ∀ began, service.loop = .revalidating began → since ≤ began →
      service.system.refreshing.hopeful = true

theorem loop_of_completed {record : Retrieved}
    (completes : completed (service, happening, next) = some record) :
    service.loop = .revalidating record.began := by
  unfold completed at completes
  split at completes
  · next began _ busy _ =>
      cases completes
      exact busy
  · cases completes

/-- A step that neither takes a document away, completes a retrieval nor touches
the one under way. -/
theorem Recovering.kept {since : Nat} {records : List Retrieved}
    (recovering : Recovering since service records)
    (callback : next.system.state.callback = service.system.state.callback)
    (refreshing : next.system.refreshing = service.system.refreshing)
    (loop : next.loop = service.loop ∨ next.loop = .ended) :
    Recovering since next (records ++ (completed (service, happening, next)).toList) := by
  rw [completed_eq_none loop, Option.toList_none, List.append_nil]
  intro empty
  obtain ⟨before, hopeful⟩ := recovering (callback ▸ empty)
  refine ⟨before, fun began busy late => ?_⟩
  rcases loop with same | ended
  · rw [refreshing]
    exact hopeful began (same ▸ busy) late
  · cases ended.symm.trans busy

theorem recovering_proceed {since now began : Nat} {records : List Retrieved}
    {system : System} (recovering : Recovering since service records)
    (within : service.loop = .revalidating began)
    (proceeds : System.proceed crates refresher service.system now = some system) :
    Recovering since (service.settled schedule system)
      (records ++
        (completed (service, happening, service.settled schedule system)).toList) := by
  have stepped : System.step crates refresher service.system (.proceed now) = some system :=
    proceeds
  have before : system.state.callback = none →
      (∀ record ∈ records, record.began < since) ∧
        (since ≤ began → system.refreshing.hopeful = true) := by
    intro empty
    have emptyBefore : service.system.state.callback = none := by
      by_contra served
      have := System.isSome_callback_step (Option.isSome_iff_ne_none.mpr served) stepped
      simp [empty] at this
    obtain ⟨early, hopeful⟩ := recovering emptyBefore
    exact ⟨early, fun late =>
      System.hopeful_proceed proceeds empty (hopeful began within late)⟩
  rcases @settled_cases crates refresher schedule _ _ _ proceeds with
    ⟨answered, returned, same⟩ | ⟨outcome, idle, returned, same⟩
  · rw [same, completed_eq_none, Option.toList_none, List.append_nil]
    · intro empty
      refine ⟨(before empty).1, fun other again late => ?_⟩
      cases within.symm.trans again
      exact (before empty).2 late
    · exact Or.inl rfl
  · intro empty
    rw [settled_system] at empty
    obtain ⟨early, hopeful⟩ := before empty
    -- A hopeful revalidation would not have returned without a document.
    have tooEarly : began < since := by
      by_contra late
      have := hopeful (Nat.le_of_not_lt late)
      rw [idle] at this
      cases this
    constructor
    · intro record member
      rcases List.mem_append.mp member with earlier | now
      · exact early record earlier
      · have busy := loop_of_completed (Option.mem_toList.mp now)
        cases within.symm.trans busy
        exact tooEarly
    · intro since again
      rw [same] at again
      split at again <;> cases again

theorem recovering_step (laws : HeaderLaws crates) {since : Nat} {records : List Retrieved}
    (recovering : Recovering since service records) (coherent : service.Coherent schedule)
    (lives : service.system.Lives)
    (stepped : step crates refresher schedule service happening = some next)
    (answers : answersFrom crates since (service, happening, next) = true) :
    Recovering since next (records ++ (completed (service, happening, next)).toList) := by
  cases steps_of_step stepped with
  | elapse nanos => exact recovering.kept rfl rfl (Or.inl rfl)
  | wake wakes slept due idle =>
      intro empty
      rw [completed_of_asleep slept, Option.toList_none, List.append_nil]
      exact ⟨(recovering empty).1, fun _ _ _ => rfl⟩
  | receive answer began etag within spent awaiting =>
      rw [completed_eq_none, Option.toList_none, List.append_nil]
      · intro empty
        refine ⟨(recovering empty).1, fun other again late => ?_⟩
        cases within.symm.trans again
        have past := (coherent.revalidating began within).2
        have artifact : (offered crates answer).isSome := by
          have unserved : service.system.state.callback = none := empty
          have notEarly : ¬ service.clock < since := by omega
          simpa [answersFrom, unserved, notEarly] using answers
        exact System.hopeful_received laws (lives.2 etag awaiting) artifact
      · exact Or.inl rfl
  | proceed now began system within proceeds => exact recovering_proceed recovering within proceeds
  | arrive body => exact recovering.kept rfl rfl (Or.inl rfl)
  | advance index system advances =>
      cases System.steps_of_step advances with
      | advance index handler state after present advanced =>
          exact recovering.kept (System.callback_advance advanced) rfl (Or.inl rfl)
  | abort => exact recovering.kept rfl rfl (Or.inr rfl)

section Runs

variable (ordered : schedule.floor ≤ schedule.interval)
variable (doubles : 2 * schedule.interval.nanos < 2 ^ 64 * 1000000000)

theorem retrievals_snoc {bridge : Bridge} {happenings : List Happening}
    (ran : run (step crates bridge.refresher schedule) (start schedule bridge) happenings =
      some service)
    (stepped : step crates bridge.refresher schedule service happening = some next) :
    retrievals crates schedule bridge (happenings ++ [happening]) =
      retrievals crates schedule bridge happenings ++
        (completed (service, happening, next)).toList := by
  rw [retrievals, transitions_snoc ran stepped, List.filterMap_append]
  cases found : completed (service, happening, next) <;> simp [retrievals, found]

theorem pause_le_interval (before : List (Except FetchError Bool))
    (outcome : Except FetchError Bool) :
    schedule.pause before outcome ≤ schedule.interval.nanos := by
  cases outcome with
  | ok replaced => exact le_refl _
  | error error => exact cappedDoubling_le _ _ _

include ordered doubles

theorem prompted_step {slack : Nat} {records : List Retrieved}
    (prompted : Prompted schedule slack service records)
    (coherent : service.Coherent schedule)
    (stepped : step crates refresher schedule service happening = some next)
    (onTime : prompt slack (service, happening, next) = true) :
    Prompted schedule slack next
      (records ++ (completed (service, happening, next)).toList) := by
  obtain ⟨asleep, revalidating, took⟩ := prompted
  rcases clock_step stepped with clock | ⟨nanos, rfl, rfl⟩
  · rcases loop_step ordered doubles coherent stepped with
      ⟨none, _, ⟨_, same | ended⟩ | ⟨wakes, slept, due, _, woken⟩⟩ |
        ⟨began, outcome, timing, busy, past, _, pause, sleeps, _, completes⟩
    · rw [none, Option.toList_none, List.append_nil]
      exact ⟨by rwa [clock, same], by rwa [clock, same], took⟩
    · rw [none, Option.toList_none, List.append_nil]
      exact ⟨by simp [ended], by simp [ended], took⟩
    · rw [none, Option.toList_none, List.append_nil]
      refine ⟨by simp [woken], ?_, took⟩
      intro began busy
      cases woken.symm.trans busy
      obtain ⟨late, waited⟩ := asleep wakes slept
      exact ⟨by omega, by omega⟩
    · rw [completes, Option.toList_some]
      refine ⟨?_, by simp [sleeps], ?_⟩
      · intro wakes slept
        cases sleeps.symm.trans slept
        have bounded := @pause_le_interval schedule service.system.returned outcome
        rw [lastReturn, List.getLast?_concat, Option.map_some, Option.getD_some]
        dsimp only
        exact ⟨by omega, by omega⟩
      · intro record member
        rcases List.mem_append.mp member with before | now
        · exact took record before
        · rw [List.mem_singleton.mp now]
          exact (revalidating began busy).1
  · have none : completed (service, .elapse nanos,
        { service with clock := service.clock + nanos }) = none :=
      completed_eq_none (Or.inl rfl)
    rw [none, Option.toList_none, List.append_nil]
    refine ⟨?_, ?_, took⟩
    · intro wakes slept
      have bounded : service.clock + nanos ≤ wakes + slack := by
        simpa [prompt, due, show service.loop = _ from slept] using onTime
      exact ⟨bounded, (asleep wakes slept).2⟩
    · intro began busy
      have bounded : service.clock + nanos ≤ began + REQUEST_TIMEOUT.nanos + slack := by
        simpa [prompt, due, show service.loop = _ from busy] using onTime
      exact ⟨bounded, (revalidating began busy).2⟩

variable {bridge : Bridge} {happenings : List Happening}
variable (ran : run (step crates bridge.refresher schedule) (start schedule bridge) happenings =
  some service)

include ran

theorem prompted_of_run {slack : Nat}
    (onTime : ∀ taken ∈ transitions (step crates bridge.refresher schedule)
      (start schedule bridge) happenings, prompt slack taken = true) :
    Prompted schedule slack service (retrievals crates schedule bridge happenings) := by
  apply run_history_of_forall _ _ onTime ran
  · refine ⟨?_, nofun, nofun⟩
    rintro _ ⟨⟩
    exact ⟨Nat.zero_le _, Nat.zero_le _⟩
  · intro happenings middle happening next before prompted met stepped
    rw [retrievals_snoc before stepped]
    exact prompted_step ordered doubles prompted (coherent_of_run ordered doubles before)
      stepped met

theorem recovering_of_run (laws : HeaderLaws crates) {settings : Settings}
    (started : Bridge.start crates settings = .ok bridge) {since : Nat}
    (answers : ∀ taken ∈ transitions (step crates bridge.refresher schedule)
      (start schedule bridge) happenings, answersFrom crates since taken = true) :
    Recovering since service (retrievals crates schedule bridge happenings) := by
  apply run_history_of_forall _ _ answers ran
  · exact fun _ => ⟨nofun, nofun⟩
  · intro happenings middle happening next before recovering met stepped
    rw [retrievals_snoc before stepped]
    have lives := System.lives_of_run laws started (system_run before)
    exact recovering_step laws recovering (coherent_of_run ordered doubles before) lives
      stepped met

/-- The last retrieval returned no longer ago than the interval, the budget of the
next one and twice the slack. -/
theorem clock_le_of_run {slack : Nat}
    (onTime : ∀ taken ∈ transitions (step crates bridge.refresher schedule)
      (start schedule bridge) happenings, prompt slack taken = true)
    (running : service.loop ≠ .ended) :
    service.clock ≤ lastReturn (retrievals crates schedule bridge happenings) +
      schedule.interval.nanos + REQUEST_TIMEOUT.nanos + 2 * slack := by
  have prompted := prompted_of_run ordered doubles ran onTime
  cases stands : service.loop with
  | asleep wakes =>
      have := prompted.asleep wakes stands
      omega
  | revalidating began =>
      have := prompted.revalidating began stands
      omega
  | ended => exact absurd stands running

/-- So one begun since a time long enough ago has returned. -/
theorem exists_returned_since {since slack : Nat}
    (onTime : ∀ taken ∈ transitions (step crates bridge.refresher schedule)
      (start schedule bridge) happenings, prompt slack taken = true)
    (running : service.loop ≠ .ended)
    (late : since + schedule.interval.nanos + 2 * REQUEST_TIMEOUT.nanos + 3 * slack ≤
      service.clock) :
    ∃ record ∈ retrievals crates schedule bridge happenings, since ≤ record.began := by
  have prompted := prompted_of_run ordered doubles ran onTime
  have recent := clock_le_of_run ordered doubles ran onTime running
  have budget : 0 < REQUEST_TIMEOUT.nanos := by decide
  cases last : (retrievals crates schedule bridge happenings).getLast? with
  | none =>
      simp only [lastReturn, last, Option.map_none, Option.getD_none] at recent
      omega
  | some record =>
      have member := List.mem_of_getLast? last
      have took := prompted.took record member
      simp only [lastReturn, last, Option.map_some, Option.getD_some] at recent
      exact ⟨record, member, by omega⟩

/-- Where the loop's timers are late by no more than the slack, the last
retrieval returned no longer ago than the interval, the budget of the next one
and twice the slack.  Once the Distribution answers every request made with
nothing served with its artifact, a document is served after the interval, two
budgets and three times the slack at the latest, whatever outage and backoff
came before. -/
theorem served_after_outage (laws : HeaderLaws crates) {settings : Settings}
    (started : Bridge.start crates settings = .ok bridge) {slack : Nat}
    (onTime : ∀ taken ∈ transitions (step crates bridge.refresher schedule)
      (start schedule bridge) happenings, prompt slack taken = true)
    (running : service.loop ≠ .ended) :
    service.clock ≤ lastReturn (retrievals crates schedule bridge happenings) +
      schedule.interval.nanos + REQUEST_TIMEOUT.nanos + 2 * slack ∧
    ∀ since, (∀ taken ∈ transitions (step crates bridge.refresher schedule)
        (start schedule bridge) happenings, answersFrom crates since taken = true) →
      since + schedule.interval.nanos + 2 * REQUEST_TIMEOUT.nanos + 3 * slack ≤
        service.clock → service.system.state.callback.isSome := by
  refine ⟨clock_le_of_run ordered doubles ran onTime running, fun since answers late => ?_⟩
  by_contra unserved
  have empty : service.system.state.callback = none := by simpa using unserved
  have early := (recovering_of_run ordered doubles ran laws started answers empty).1
  obtain ⟨record, member, begun⟩ :=
    exists_returned_since ordered doubles ran onTime running late
  have before := early record member
  omega

end Runs

end Service

namespace Reference

/-- The artifact comes back after most of a budget, and the clock runs on. -/
def recovery : List Happening :=
  [.wake, .elapse 20000000000, .receive (tick "'sha256-A='".toList []).answer] ++
    List.replicate 6 (.proceed 0) ++ [.elapse 300000000000, .wake, .elapse 20000000000]

end Reference

namespace Service

theorem served_after_outage_recovery :
    ∃ service, run (step Reference.crates Reference.bridge.refresher Schedule.DEPLOYED)
        (start Schedule.DEPLOYED Reference.bridge) Reference.recovery = some service ∧
      service.system.state.callback.isSome := by
  have ran : (run (step Reference.crates Reference.bridge.refresher Schedule.DEPLOYED)
      (start Schedule.DEPLOYED Reference.bridge) Reference.recovery).any
        (fun service => service.loop ≠ .ended ∧ 340000000000 ≤ service.clock) := by
    decide +kernel
  obtain ⟨service, ran, stands⟩ := (Option.any_eq_true _ _).mp ran
  obtain ⟨running, late⟩ := of_decide_eq_true stands
  have onTime : (transitions (step Reference.crates Reference.bridge.refresher Schedule.DEPLOYED)
      (start Schedule.DEPLOYED Reference.bridge) Reference.recovery).all (prompt 0) := by
    decide +kernel
  have answers : (transitions (step Reference.crates Reference.bridge.refresher Schedule.DEPLOYED)
      (start Schedule.DEPLOYED Reference.bridge) Reference.recovery).all
        (answersFrom Reference.crates 0) := by
    decide +kernel
  exact ⟨service, ran, (served_after_outage (by decide) (by decide) ran Reference.headerLaws
    Reference.start_settings (List.all_eq_true.mp onTime) running).2 0
      (List.all_eq_true.mp answers) late⟩

end Service

end LibidBridge
