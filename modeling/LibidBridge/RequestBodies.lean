import LibidBridge.ConfigAdmission

/-!
# Requests that carry a body

No request to a ceremony route may bring one.  The two `GET` handlers look for
a body and refuse it, and every other method is refused for itself; the
preflight is answered without a look at the body, and there the rule fails.
-/

namespace LibidBridge

variable {crates : Crates}

def StatusCode.IsSuccess (status : StatusCode) : Prop :=
  200 ≤ status ∧ status < 300

/-- The route of the request is served by its method. -/
def Call.IsServed (call : Call) : Prop :=
  call.method = .get ∨ call.path = .config ∧ call.method = .options

/-- Who makes the request may make it; a preflight is never a same-origin
read, and the callback is open to everyone. -/
def IsAdmitted (crates : Crates) (state : AppState) (call : Call) : Prop :=
  call.path = .callback ∨
    (∃ origin, IsAdmittedOrigin crates state call.headers origin) ∨
    call.method = .get ∧ IsSameOriginRead call.headers

/-- A request that carries a body does not succeed: it is malformed, or of a
method that is not served. -/
def RefusesBody (crates : Crates) (state : AppState) (call : Call) : Prop :=
  carriesBody call.body = true →
    ¬ (answered crates state call).2.status.IsSuccess ∧
      (call.IsServed → IsAdmitted crates state call →
        (answered crates state call).2.status = BAD_REQUEST) ∧
      (¬ call.IsServed → (answered crates state call).2.status = METHOD_NOT_ALLOWED)

/-- A preflight from an admitted origin that brings a body. -/
def IsPreflightWithBody (crates : Crates) (state : AppState) (call : Call) : Prop :=
  call.path = .config ∧ call.method = .options ∧ carriesBody call.body = true ∧
    ∃ origin, IsAdmittedOrigin crates state call.headers origin

/-- The configuration is refused to a request with a body, whoever asks. -/
theorem status_config_of_carriesBody {state : AppState} {query : Option Text}
    {headers : HeaderMap} {body : Body} (carries : carriesBody body = true) :
    (config crates state query headers body).status =
      if (admission crates state headers).isSome then BAD_REQUEST else FORBIDDEN := by
  unfold config
  cases admission crates state headers with
  | none => rfl
  | some admitted =>
      cases fault : malformed query body with
      | some message => rfl
      | none =>
          have bodiless := (malformed_eq_none_iff.mp fault).2
          rw [carries] at bodiless
          cases bodiless

theorem status_callback_of_carriesBody {state : AppState} {body : Body}
    (carries : carriesBody body = true) : (callback state body).2.status = BAD_REQUEST := by
  rw [callback, if_pos carries]

/-- The preflight is granted or forbidden by who asks and by nothing else. -/
theorem status_preflight_of_isAdmittedOrigin {state : AppState} {headers : HeaderMap}
    {origin : HeaderValue} (admitted : IsAdmittedOrigin crates state headers origin) :
    (preflight crates state headers).status = NO_CONTENT := by
  rw [preflight, admission_eq_listed_iff.mpr admitted]
  rfl

theorem status_preflight_of_not_isAdmittedOrigin {state : AppState} {headers : HeaderMap}
    (refused : ¬ ∃ origin, IsAdmittedOrigin crates state headers origin) :
    (preflight crates state headers).status = FORBIDDEN := by
  unfold preflight
  cases found : admission crates state headers with
  | none => rfl
  | some admitted =>
      cases admitted with
      | listed origin => exact absurd ⟨origin, admission_eq_listed_iff.mp found⟩ refused
      | sameOrigin => rfl

theorem status_of_not_isServed {state : AppState} {call : Call} (unserved : ¬ call.IsServed) :
    (answered crates state call).2.status = METHOD_NOT_ALLOWED := by
  obtain ⟨method, path, query, headers, body⟩ := call
  cases path with
  | config =>
      cases method with
      | get | options => simp [Call.IsServed] at unserved
      | head | other => rfl
  | callback =>
      cases method with
      | get => simp [Call.IsServed] at unserved
      | head | options | other => rfl

theorem isSome_admission_iff {state : AppState} {headers : HeaderMap} :
    (admission crates state headers).isSome = true ↔
      (∃ origin, IsAdmittedOrigin crates state headers origin) ∨ IsSameOriginRead headers := by
  rw [← not_iff_not, Bool.not_eq_true, Option.isSome_eq_false_iff, Option.isNone_iff_eq_none,
    admission_eq_none_iff, not_or]

theorem refusesBody_of_get {state : AppState} {call : Call} (method : call.method = .get) :
    RefusesBody crates state call := by
  intro carries
  have served : call.IsServed := Or.inl method
  have status : (answered crates state call).2.status = FORBIDDEN ∧
        ¬ IsAdmitted crates state call ∨
      (answered crates state call).2.status = BAD_REQUEST := by
    cases path : call.path with
    | callback =>
        right
        simp only [answered, routed, path, method]
        exact status_callback_of_carriesBody carries
    | config =>
        simp only [answered, routed, path, method, standingHeaders,
          status_config_of_carriesBody carries]
        split_ifs with admitted
        · exact Or.inr rfl
        · left
          rw [isSome_admission_iff, not_or] at admitted
          simp [IsAdmitted, path, admitted]
  refine ⟨?_, fun _ admitted => ?_, fun unserved => absurd served unserved⟩
  · rcases status with ⟨forbidden, _⟩ | malformed
    · simp [forbidden, StatusCode.IsSuccess, FORBIDDEN]
    · simp [malformed, StatusCode.IsSuccess, BAD_REQUEST]
  · rcases status with ⟨_, refused⟩ | malformed
    · exact absurd admitted refused
    · exact malformed

/-- A request's body is refused unless it is that of an admitted preflight. -/
theorem refusesBody_iff (crates : Crates) (state : AppState) (call : Call) :
    RefusesBody crates state call ↔ ¬ IsPreflightWithBody crates state call := by
  constructor
  · rintro refuses ⟨path, method, carries, origin, admitted⟩
    apply (refuses carries).1
    simp only [answered, routed, path, method, standingHeaders,
      status_preflight_of_isAdmittedOrigin admitted]
    simp [StatusCode.IsSuccess, NO_CONTENT]
  · intro passed
    by_cases get : call.method = .get
    · exact refusesBody_of_get get
    by_cases preflighted : call.path = .config ∧ call.method = .options
    · intro carries
      obtain ⟨path, method⟩ := preflighted
      have refused : ¬ ∃ origin, IsAdmittedOrigin crates state call.headers origin :=
        fun admitted => passed ⟨path, method, carries, admitted⟩
      have status : (answered crates state call).2.status = FORBIDDEN := by
        simp only [answered, routed, path, method, standingHeaders]
        exact status_preflight_of_not_isAdmittedOrigin refused
      refine ⟨?_, fun _ admitted => ?_, fun unserved => absurd (Or.inr ⟨path, method⟩) unserved⟩
      · simp [status, StatusCode.IsSuccess, FORBIDDEN]
      · simp [IsAdmitted, path, method, refused] at admitted
    · intro _
      have unserved : ¬ call.IsServed := not_or.mpr ⟨get, preflighted⟩
      have status := @status_of_not_isServed crates state call unserved
      refine ⟨?_, fun served => absurd served unserved, fun _ => status⟩
      simp [status, StatusCode.IsSuccess, METHOD_NOT_ALLOWED]

/-- An `OPTIONS` from an admitted origin is granted with its body unread. -/
theorem preflight_with_body_passes :
    carriesBody ⟨false⟩ = true ∧
      (answered Reference.crates Reference.state
        ⟨.options, .config, none, [(ORIGIN, Text.bytes "https://me.handles.link".toList)],
          ⟨false⟩⟩).2.status = NO_CONTENT ∧
      ¬ RefusesBody Reference.crates Reference.state
        ⟨.options, .config, none, [(ORIGIN, Text.bytes "https://me.handles.link".toList)],
          ⟨false⟩⟩ := by
  have granted : (answered Reference.crates Reference.state
      ⟨.options, .config, none, [(ORIGIN, Text.bytes "https://me.handles.link".toList)],
        ⟨false⟩⟩).2.status = NO_CONTENT := by decide +kernel
  refine ⟨rfl, granted, fun refuses => (refuses rfl).1 ?_⟩
  rw [granted]
  exact ⟨by decide, by decide⟩

end LibidBridge
