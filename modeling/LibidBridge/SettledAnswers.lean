import LibidBridge.SentFields

/-!
# What is settled at the start

The admission set and the record are what the accepted deployment made of them,
for as long as the service runs.  So a request is answered as it would have been
at the start unless it reads the callback document or the metrics, and all that
requests change is what they count.
-/

namespace LibidBridge

variable {crates : Crates} {axum : Axum} {encode : List (Text × Text × Family) → Text}
  {state : AppState} {inbound : Inbound}

namespace System

variable {settings : Settings} {bridge : Bridge} {events : List Event} {system : System}

theorem settled_step {refresher : Refresher} {next : System} {event : Event}
    (stepped : step crates refresher system event = some next) :
    next.state.allowedOrigins = system.state.allowedOrigins ∧
      next.state.ceremonyConfig = system.state.ceremonyConfig := by
  cases steps_of_step stepped with
  | begin idle => exact ⟨rfl, rfl⟩
  | receive answer etag awaiting => exact ⟨rfl, rfl⟩
  | proceed now next proceeds =>
      unfold proceed at proceeds
      split at proceeds <;> cases proceeds <;> exact ⟨rfl, rfl⟩
  | arrive body => exact ⟨rfl, rfl⟩
  | advance index handler state after present advances =>
      rcases handler with _ | (_ | published) | _ | response <;> cases advances <;>
      exact ⟨rfl, rfl⟩

theorem settled_of_run (ran : run (step crates bridge.refresher) (start bridge) events =
      some system) :
    system.state.allowedOrigins = bridge.state.allowedOrigins ∧
      system.state.ceremonyConfig = bridge.state.ceremonyConfig := by
  apply @run_invariant _ _ _ (fun system : System =>
    system.state.allowedOrigins = bridge.state.allowedOrigins ∧
      system.state.ceremonyConfig = bridge.state.ceremonyConfig) _ _ _ _ ⟨rfl, rfl⟩ ran
  rintro middle event next ⟨origins, config⟩ stepped
  obtain ⟨sameOrigins, sameConfig⟩ := settled_step stepped
  exact ⟨sameOrigins.trans origins, sameConfig.trans config⟩

end System

/-- A request for the callback document, or for the metrics. -/
def Inbound.ReadsWhatChanges (inbound : Inbound) : Prop :=
  (inbound.path = CALLBACK_PATH ∧ inbound.method = "GET".toList ∧
    carriesBody inbound.body = false) ∨
  (inbound.path = METRICS_PATH ∧
    (inbound.method = "GET".toList ∨ inbound.method = "HEAD".toList))

/-- What a route of `get` refuses, it refuses whatever its handler answers. -/
theorem AxumLaws.get_congr (laws : AxumLaws axum) {method : Method} (get : method ≠ .get)
    (head : method ≠ .head) (first second : Response) :
    axum.get first method = axum.get second method := by
  rw [laws.get_other first method get head, laws.get_other second method get head]

theorem answer_eq_of_settled (laws : AxumLaws axum) {other : AppState}
    (origins : state.allowedOrigins = other.allowedOrigins)
    (record : state.ceremonyConfig = other.ceremonyConfig)
    (settled : ¬ inbound.ReadsWhatChanges) :
    (state.answer crates axum encode inbound).2 = (other.answer crates axum encode inbound).2 := by
  have same : (buildRouter crates axum encode state inbound).2 =
      (buildRouter crates axum encode other inbound).2 := by
    unfold buildRouter
    cases found : Route.ofPath inbound.path with
    | none => rfl
    | some route =>
        have path := Route.ofPath_eq_some_iff.mp found
        rcases route with _ | _ | _ | _
        · rfl
        · have refused : Method.ofToken inbound.method ≠ .get ∧
              Method.ofToken inbound.method ≠ .head := by
            rcases Method.ofToken_cases inbound.method with ⟨get, _⟩ | ⟨head, _⟩ |
              ⟨_, method⟩ | ⟨_, _, _, method⟩
            · exact absurd (Or.inr ⟨path.symm, Or.inl get⟩) settled
            · exact absurd (Or.inr ⟨path.symm, Or.inr head⟩) settled
            · simp [method]
            · simp [method]
          exact laws.get_congr refused.1 refused.2 _ _
        · have admits : admission crates state inbound.headers =
              admission crates other inbound.headers := by
            simp only [admission, origins]
          cases Method.ofToken inbound.method with
          | get => simp only [routed, config, admits, LibidBridge.record, record]
          | options => simp only [routed, preflight, admits]
          | head | other => rfl
        · rcases Method.ofToken_cases inbound.method with ⟨get, method⟩ | ⟨_, method⟩ |
            ⟨_, method⟩ | ⟨_, _, _, method⟩ <;> rw [method]
          · by_cases carries : carriesBody inbound.body = true
            · simp only [routed, callback, carries, if_true]
            · exact absurd (Or.inl ⟨path.symm, get, Bool.eq_false_of_not_eq_true carries⟩) settled
          all_goals rfl
  simp only [AppState.answer, same]

/-- What a request leaves of the state: all of it, or one more callback request
counted. -/
theorem state_answer (crates : Crates) (axum : Axum)
    (encode : List (Text × Text × Family) → Text)
    (state : AppState) (inbound : Inbound) :
    (state.answer crates axum encode inbound).1 = state ∨
    ((inbound.path = CALLBACK_PATH ∧ inbound.method = "GET".toList ∧
        carriesBody inbound.body = false) ∧
      ∃ label ∈ ANSWERS, (state.answer crates axum encode inbound).1 =
        { state with
          metrics := { state.metrics with callbacks := state.metrics.callbacks.inc label } }) := by
  have unlayered : (state.answer crates axum encode inbound).1 =
      (buildRouter crates axum encode state inbound).1 := rfl
  rw [unlayered]
  unfold buildRouter
  cases found : Route.ofPath inbound.path with
  | none => exact Or.inl rfl
  | some route =>
      have path := Route.ofPath_eq_some_iff.mp found
      rcases route with _ | _ | _ | _
      · exact Or.inl rfl
      · exact Or.inl rfl
      · left
        cases Method.ofToken inbound.method <;> rfl
      · rcases Method.ofToken_cases inbound.method with ⟨get, method⟩ | ⟨_, method⟩ |
          ⟨_, method⟩ | ⟨_, _, _, method⟩ <;> rw [method]
        · cases carries : carriesBody inbound.body with
          | true =>
              left
              simp only [routed, callback, carries, if_true]
          | false =>
              right
              refine ⟨⟨path.symm, get, rfl⟩, ?_⟩
              simp only [routed, callback, carries, Bool.false_eq_true, if_false]
              cases state.callback with
              | none => exact ⟨_, .tail _ (.head _), rfl⟩
              | some published => exact ⟨_, .head _, rfl⟩
        all_goals exact Or.inl rfl

/-- For as long as the service runs, whatever its Distribution answers and
whoever else asks, a request is answered as it would have been at the start
unless it reads the callback document or the metrics; and no request changes
what is kept but by one count of the callback requests. -/
theorem System.answers_settled (laws : AxumLaws axum) {settings : Settings} {bridge : Bridge}
    (started : Bridge.start crates settings = .ok bridge) {events : List Event}
    {system : System}
    (ran : run (step crates bridge.refresher) (start bridge) events = some system)
    (encode : List (Text × Text × Family) → Text) (inbound : Inbound) :
    (∃ deployment, Deployment.checked crates settings = .ok deployment ∧
      system.state.allowedOrigins = deployment.allowedOrigins ∧
      system.state.ceremonyConfig = deployment.ceremonyConfig crates) ∧
    (¬ inbound.ReadsWhatChanges → (system.state.answer crates axum encode inbound).2 =
      (bridge.state.answer crates axum encode inbound).2) ∧
    ((system.state.answer crates axum encode inbound).1 = system.state ∨
      ((inbound.path = CALLBACK_PATH ∧ inbound.method = "GET".toList ∧
          carriesBody inbound.body = false) ∧
        ∃ label ∈ ANSWERS, (system.state.answer crates axum encode inbound).1 =
          { system.state with metrics := { system.state.metrics with
            callbacks := system.state.metrics.callbacks.inc label } })) := by
  obtain ⟨origins, record⟩ := settled_of_run ran
  refine ⟨?_, answer_eq_of_settled laws origins record,
    state_answer crates axum encode _ inbound⟩
  obtain ⟨deployment, _, accepted, _, rfl⟩ := Bridge.start_eq_ok_iff.mp started
  exact ⟨deployment, accepted, origins, record⟩

/-- A read of the configuration from an origin that a pattern lists. -/
def Reference.configRequest : Inbound where
  method := "GET".toList
  path := CONFIG_PATH
  query := none
  headers := [(ORIGIN, Text.bytes "https://me.handles.link".toList)]
  body := ⟨true⟩

/-- The configuration, read again after the first publication. -/
theorem System.answers_settled_published :
    ∃ system, run (step Reference.crates Reference.bridge.refresher) (start Reference.bridge)
        Reference.firstPublication = some system ∧
      system.state.callback.isSome ∧
      (system.state.answer Reference.crates Reference.axum (fun _ => [])
        Reference.configRequest).2.status = OK ∧
      (system.state.answer Reference.crates Reference.axum (fun _ => [])
          Reference.configRequest).2 =
        (Reference.bridge.state.answer Reference.crates Reference.axum (fun _ => [])
          Reference.configRequest).2 := by
  have ran : (run (step Reference.crates Reference.bridge.refresher) (start Reference.bridge)
      Reference.firstPublication).any fun system => system.state.callback.isSome ∧
        (system.state.answer Reference.crates Reference.axum (fun _ => [])
          Reference.configRequest).2.status = OK := by
    decide +kernel
  obtain ⟨system, ran, stands⟩ := (Option.any_eq_true _ _).mp ran
  obtain ⟨served, ok⟩ := of_decide_eq_true stands
  refine ⟨system, ran, served, ok, (answers_settled Reference.axumLaws
    Reference.start_settings ran (fun _ => []) Reference.configRequest).2.1 ?_⟩
  have other : CONFIG_PATH ≠ CALLBACK_PATH ∧ CONFIG_PATH ≠ METRICS_PATH := by decide +kernel
  rintro (⟨path, _⟩ | ⟨path, _⟩)
  · exact other.1 path
  · exact other.2 path

end LibidBridge
