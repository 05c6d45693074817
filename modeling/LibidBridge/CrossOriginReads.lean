import LibidBridge.CrossOriginProtocol
import LibidBridge.SettledAnswers

/-!
# Who reads the configuration through a browser

The preflight and the read of the configuration route together, as a browser
runs them for a script.  A script is given the record exactly where its origin
is listed and it sends no credentials, whatever fields it sets and whatever
else its browser adds, at every moment of every run.
-/

namespace LibidBridge

variable {crates : Crates} {axum : Axum} {encode : List (Text × Text × Family) → Text}
  {state : AppState} {read : CrossRead}

/-- The configuration route as what a browser asks, without a query and without
a body; the length that axum writes is nothing a browser decides by. -/
def AppState.configuration (crates : Crates) (axum : Axum)
    (encode : List (Text × Text × Family) → Text) (state : AppState) (request : CrossRequest) :
    Response :=
  standingHeaders (buildRouter crates axum encode state
    ⟨request.method, CONFIG_PATH, none, request.headers, ⟨true⟩⟩).2

/-- A member of these admits an origin, as a browser spells it. -/
def Lists (crates : Crates) (members : List Admitted) (origin : Text) : Prop :=
  ∃ observed, Observed.stamped crates origin = some observed ∧
    ∃ member ∈ members, member.admits observed = true

def CrossRequest.call (request : CrossRequest) : Call :=
  ⟨Method.ofToken request.method, .config, none, request.headers, ⟨true⟩⟩

theorem configuration_eq (request : CrossRequest) :
    state.configuration crates axum encode request = (answered crates state request.call).2 := by
  have found : Route.ofPath CONFIG_PATH = some (.ceremony .config) :=
    Route.ofPath_eq_some_iff.mpr rfl
  simp only [AppState.configuration, buildRouter, found, answered,
    CrossRequest.call]

/-- The origin that is admitted is the one the request names, where it is
listed. -/
theorem isAdmittedOrigin_iff_lists (laws : HeaderLaws crates) {headers : HeaderMap}
    {origin : Text} (readable : ∀ letter ∈ origin, IsReadable letter)
    (only : headers.getAll ORIGIN = [Text.bytes origin]) {value : HeaderValue} :
    IsAdmittedOrigin crates state headers value ↔
      value = Text.bytes origin ∧ Lists crates state.allowedOrigins origin := by
  have read : crates.headerToStr (Text.bytes origin) = some origin := by
    refine laws.toStr_eq_some_iff.mpr ⟨?_, (isomorphicDecode_bytes fun letter member =>
      (readable letter member).ascii).symm⟩
    rw [Text.bytes_of_ascii fun letter member => (readable letter member).ascii]
    intro byte member
    obtain ⟨letter, inText, rfl⟩ := List.mem_map.mp member
    have bounded := (readable letter inText).ascii
    have code : (UInt8.ofNat letter.toNat).toNat = letter.toNat := Nat.mod_eq_of_lt (by omega)
    rw [IsReadableByte, code]
    exact readable letter inText
  constructor
  · rintro ⟨alone, text, observed, readText, stamped, admits⟩
    obtain rfl : value = Text.bytes origin := by simpa [eq_comm] using alone.symm.trans only
    cases readText.symm.trans read
    exact ⟨rfl, observed, stamped, admits⟩
  · rintro ⟨rfl, observed, stamped, admits⟩
    exact ⟨only, origin, observed, read, stamped, admits⟩

theorem readsConfig_request : read.request.call.ReadsConfig :=
  ⟨rfl, Or.inl (Method.ofToken_of_get rfl)⟩

/-- A script of a listed origin is granted whatever it asks ahead. -/
theorem passes_configuration (laws : HeaderLaws crates) (plain : read.credentials = false)
    (listed : Lists crates state.allowedOrigins read.origin) :
    read.passes (state.configuration crates axum encode read.preflight) = true := by
  have admitted := (@isAdmittedOrigin_iff_lists crates state laws read.preflight.headers
    read.origin read.readable read.getAll_origin_preflight _).mpr ⟨rfl, listed⟩
  have answer : state.configuration crates axum encode read.preflight =
      standingHeaders (granted (Text.bytes read.origin) (some read.asked)) := by
    rw [configuration_eq, ← read.get_asked_preflight]
    simp only [answered, CrossRequest.call, Method.ofToken_of_options (rfl :
      read.preflight.method = "OPTIONS".toList), routed, LibidBridge.preflight,
      admission_eq_listed_iff.mpr admitted]
  rw [answer]
  apply CrossRead.passes_of_granted plain ⟨(by decide : 200 ≤ NO_CONTENT),
    (by decide : NO_CONTENT < 300)⟩
  · rw [HeaderMap.get, getAll_standingHeaders _ (by decide), granted, HeaderMap.getAll_extend]
    rfl
  · rw [HeaderMap.get, getAll_standingHeaders _ (by decide), granted, HeaderMap.getAll_extend]
    rfl

/-- A script is given an answer exactly where its origin is listed and it sends
no credentials. -/
theorem isSome_outcome_iff (laws : HeaderLaws crates) :
    (read.outcome (state.configuration crates axum encode)).isSome ↔
      read.credentials = false ∧ Lists crates state.allowedOrigins read.origin := by
  have iff := @isAdmittedOrigin_iff_lists crates state laws read.request.headers read.origin
    read.readable read.getAll_origin_request
  have names := @getAll_allowOrigin crates state _ (@readsConfig_request read)
  have credentials := @getAll_allowCredentials crates state _ (@readsConfig_request read)
  rw [← @configuration_eq crates axum encode] at names credentials
  constructor
  · intro given
    obtain ⟨response, given⟩ := Option.isSome_iff_exists.mp given
    obtain ⟨rfl, allowed⟩ := CrossRead.allows_of_outcome given
    refine ⟨CrossRead.credentials_eq_false_of_allows ?_ allowed, ?_⟩
    · rw [HeaderMap.get, credentials]
      rfl
    · cases found : admission crates state read.request.call.headers with
      | none =>
          rw [found] at names
          simp [CrossRead.allows, HeaderMap.get, names] at allowed
      | some admitted =>
          cases admitted with
          | sameOrigin =>
              rw [found] at names
              simp [CrossRead.allows, HeaderMap.get, names, Admission.origin] at allowed
          | listed origin => exact (iff.mp (admission_eq_listed_iff.mp found)).2
  · rintro ⟨plain, listed⟩
    have admitted := admission_eq_listed_iff.mpr (iff.mpr ⟨rfl, listed⟩)
    have named : (state.configuration crates axum encode read.request).headers.get
        ACCESS_CONTROL_ALLOW_ORIGIN = some (Text.bytes read.origin) := by
      rw [HeaderMap.get, names]
      simp only [CrossRequest.call, admitted]
      rfl
    simp [CrossRead.outcome, passes_configuration laws plain listed,
      CrossRead.allows_of_named plain named]

/-- What a script is given is the record. -/
theorem record_of_outcome (laws : HeaderLaws crates) {response : Response}
    (given : read.outcome (state.configuration crates axum encode) = some response) :
    response.status = OK ∧ response.body = state.ceremonyConfig := by
  have listed := (isSome_outcome_iff laws).mp (Option.isSome_iff_exists.mpr ⟨_, given⟩)
  obtain ⟨rfl, _⟩ := CrossRead.allows_of_outcome given
  have admitted := (@isAdmittedOrigin_iff_lists crates state laws read.request.headers
    read.origin read.readable read.getAll_origin_request _).mpr ⟨rfl, listed.2⟩
  have ok : (answered crates state read.request.call).2.status = OK := by
    refine (status_eq_ok_iff readsConfig_request).mpr ⟨Method.ofToken_of_get rfl, rfl, ?_⟩
    simp only [CrossRequest.call, admission_eq_listed_iff.mpr admitted]
    exact nofun
  rw [configuration_eq]
  exact ⟨ok, body_of_status_ok readsConfig_request ok⟩

/-- Through a browser, and at every moment of every run, a script is given the
ceremony record exactly where its origin is listed by the deployment and it
sends no credentials; what it is given is the record; and no field it sets of
its own stands in the way. -/
theorem System.read_by_scripts (laws : HeaderLaws crates) {settings : Settings}
    {bridge : Bridge} (started : Bridge.start crates settings = .ok bridge)
    {events : List Event} {system : System}
    (ran : run (step crates bridge.refresher) (start bridge) events = some system)
    (axum : Axum) (encode : List (Text × Text × Family) → Text) (read : CrossRead) :
    ∃ deployment, Deployment.checked crates settings = .ok deployment ∧
      ((read.outcome (system.state.configuration crates axum encode)).isSome ↔
        read.credentials = false ∧ Lists crates deployment.allowedOrigins read.origin) ∧
      ∀ response, read.outcome (system.state.configuration crates axum encode) = some response →
        response.status = OK ∧ response.body = deployment.ceremonyConfig crates := by
  obtain ⟨origins, record⟩ := settled_of_run ran
  obtain ⟨deployment, _, accepted, _, rfl⟩ := Bridge.start_eq_ok_iff.mp started
  refine ⟨deployment, accepted, ?_, fun response given => ?_⟩
  · rw [isSome_outcome_iff laws, origins]
  · obtain ⟨ok, body⟩ := record_of_outcome laws given
    exact ⟨ok, body.trans record⟩

namespace Reference

/-- A script under the sample deployment's pattern, with a field of its own. -/
def crossRead : CrossRead where
  origin := "https://me.handles.link".toList
  authored := [("x-request-id".toList, Text.bytes "7".toList)]
  added := [(SEC_FETCH_SITE, Text.bytes "cross-site".toList)]
  credentials := false
  readable := by decide +kernel
  named := by
    intro field member
    rw [List.mem_singleton.mp member]
    exact ⟨⟨by decide +kernel, by decide +kernel⟩, by decide +kernel, by decide +kernel⟩
  reserved := by decide +kernel

end Reference

theorem System.read_by_scripts_pattern :
    ∃ system, run (step Reference.crates Reference.bridge.refresher) (start Reference.bridge)
        Reference.firstPublication = some system ∧
      (Reference.crossRead.outcome (system.state.configuration Reference.crates
        Reference.axum fun _ => [])).isSome := by
  have goes : (run (step Reference.crates Reference.bridge.refresher) (start Reference.bridge)
      Reference.firstPublication).isSome := by
    decide +kernel
  obtain ⟨system, ran⟩ := Option.isSome_iff_exists.mp goes
  obtain ⟨deployment, accepted, given, _⟩ := read_by_scripts Reference.headerLaws
    Reference.start_settings ran Reference.axum (fun _ => []) Reference.crossRead
  cases accepted.symm.trans Reference.checked_settings
  have listed : (Observed.stamped Reference.crates Reference.crossRead.origin).any (fun observed =>
      Reference.deployment.allowedOrigins.any fun member => member.admits observed) := by
    decide +kernel
  obtain ⟨observed, stamped, admits⟩ := (Option.any_eq_true _ _).mp listed
  exact ⟨system, ran, given.mpr ⟨rfl, observed, stamped, List.any_eq_true.mp admits⟩⟩

end LibidBridge
