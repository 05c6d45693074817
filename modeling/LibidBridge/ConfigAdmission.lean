import LibidBridge.DeploymentChecked
import LibidBridge.MemberGrammar
import LibidBridge.Routes

/-!
# Who reads the configuration

The admission rule of the configuration route stated on its own, and what it
decides: which requests are given the record, which responses name an allowed
origin, and what every other request is told.  Then the law a cache relies on:
a response depends on no header that its `Vary` does not name.
-/

namespace LibidBridge

variable {crates : Crates}

/-- The request carries one `Origin`, it is readable and as a browser stamps
it, and a member of the admission set admits it. -/
def IsAdmittedOrigin (crates : Crates) (state : AppState) (headers : HeaderMap)
    (origin : HeaderValue) : Prop :=
  headers.getAll ORIGIN = [origin] ∧
    ∃ text observed, crates.headerToStr origin = some text ∧
      Observed.stamped crates text = some observed ∧
      ∃ member ∈ state.allowedOrigins, member.admits observed = true

/-- The request carries no `Origin` and the fetch metadata of a same-origin
read. -/
def IsSameOriginRead (headers : HeaderMap) : Prop :=
  headers.getAll ORIGIN = [] ∧
    headers.getAll SEC_FETCH_SITE = [Text.bytes "same-origin".toList]

theorem admission_eq_listed_iff {state : AppState} {headers : HeaderMap}
    {origin : HeaderValue} :
    admission crates state headers = some (.listed origin) ↔
      IsAdmittedOrigin crates state headers origin := by
  unfold admission Origins.of IsAdmittedOrigin
  rcases headers.getAll ORIGIN with _ | ⟨one, _ | ⟨two, more⟩⟩
  · dsimp only
    split
    · split_ifs <;> simp
    · simp
  · dsimp only
    constructor
    · intro admitted
      split at admitted
      · cases admitted
      · next observed read =>
          split_ifs at admitted with someMember
          cases admitted
          obtain ⟨text, readable, stamped⟩ := Option.bind_eq_some_iff.mp read
          exact ⟨rfl, text, observed, readable, stamped, List.any_eq_true.mp someMember⟩
    · rintro ⟨same, text, observed, readable, stamped, someMember⟩
      cases same
      simp only [readable, Option.bind_some, stamped, List.any_eq_true.mpr someMember, if_true]
  · simp

theorem admission_eq_sameOrigin_iff {state : AppState} {headers : HeaderMap} :
    admission crates state headers = some .sameOrigin ↔ IsSameOriginRead headers := by
  unfold admission Origins.of IsSameOriginRead
  generalize Text.bytes "same-origin".toList = sameOrigin
  rcases headers.getAll ORIGIN with _ | ⟨one, _ | ⟨two, more⟩⟩
  · rcases headers.getAll SEC_FETCH_SITE with _ | ⟨site, _ | ⟨other, more⟩⟩ <;> simp
  · dsimp only
    split
    · simp
    · split_ifs <;> simp
  · simp

theorem admission_eq_none_iff {state : AppState} {headers : HeaderMap} :
    admission crates state headers = none ↔
      (¬ ∃ origin, IsAdmittedOrigin crates state headers origin) ∧
        ¬ IsSameOriginRead headers := by
  constructor
  · intro refused
    refine ⟨?_, fun sameOrigin => ?_⟩
    · rintro ⟨origin, admitted⟩
      simp [admission_eq_listed_iff.mpr admitted] at refused
    · simp [admission_eq_sameOrigin_iff.mpr sameOrigin] at refused
  · rintro ⟨noOrigin, notSame⟩
    cases found : admission crates state headers with
    | none => rfl
    | some admitted =>
        cases admitted with
        | listed origin => exact absurd ⟨origin, admission_eq_listed_iff.mp found⟩ noOrigin
        | sameOrigin => exact absurd (admission_eq_sameOrigin_iff.mp found) notSame

def Call.ReadsConfig (call : Call) : Prop :=
  call.path = .config ∧ (call.method = .get ∨ call.method = .options)

theorem malformed_eq_none_iff {query : Option Text} {body : Body} :
    malformed query body = none ↔
      (query = none ∨ query = some []) ∧ carriesBody body = false := by
  unfold malformed
  rcases query with _ | _ | ⟨letter, text⟩
  · cases carries : carriesBody body <;> simp
  · cases carries : carriesBody body <;> simp
  · simp

/-- The four answers of the configuration route to what it serves. -/
theorem answered_cases {state : AppState} {call : Call} (reads : call.ReadsConfig) :
    ((admission crates state call.headers = none ∨
        call.method = .options ∧ admission crates state call.headers = some .sameOrigin) ∧
      (answered crates state call).2 = standingHeaders (forbidden crates)) ∨
    (∃ admitted message, call.method = .get ∧
      admission crates state call.headers = some admitted ∧
      malformed call.query call.body = some message ∧
      (answered crates state call).2 =
        standingHeaders (refuse crates BAD_REQUEST message admitted.origin)) ∨
    (∃ admitted, call.method = .get ∧
      admission crates state call.headers = some admitted ∧
      malformed call.query call.body = none ∧
      (answered crates state call).2 = standingHeaders (record state admitted.origin)) ∨
    ∃ origin, call.method = .options ∧
      admission crates state call.headers = some (.listed origin) ∧
      (answered crates state call).2 =
        standingHeaders (granted origin (call.headers.get ACCESS_CONTROL_REQUEST_HEADERS)) := by
  obtain ⟨path, method | method⟩ := reads
  · simp only [answered, routed, path, method, config]
    cases admitted : admission crates state call.headers with
    | none => exact Or.inl ⟨Or.inl rfl, rfl⟩
    | some admission =>
        cases fault : malformed call.query call.body with
        | some message => exact Or.inr (Or.inl ⟨admission, message, trivial, rfl, rfl, rfl⟩)
        | none => exact Or.inr (Or.inr (Or.inl ⟨admission, trivial, rfl, rfl, rfl⟩))
  · simp only [answered, routed, path, method, preflight]
    cases admitted : admission crates state call.headers with
    | none => exact Or.inl ⟨Or.inl rfl, rfl⟩
    | some admission =>
        cases admission with
        | listed origin => exact Or.inr (Or.inr (Or.inr ⟨origin, trivial, rfl, rfl⟩))
        | sameOrigin => exact Or.inl ⟨Or.inr ⟨trivial, rfl⟩, rfl⟩

/-- What names an allowed origin: the origin the request was admitted from. -/
theorem getAll_allowOrigin {state : AppState} {call : Call} (reads : call.ReadsConfig) :
    (answered crates state call).2.headers.getAll ACCESS_CONTROL_ALLOW_ORIGIN =
      ((admission crates state call.headers).bind Admission.origin).toList := by
  have standing : ∀ response : Response,
      (standingHeaders response).headers.getAll ACCESS_CONTROL_ALLOW_ORIGIN =
        response.headers.getAll ACCESS_CONTROL_ALLOW_ORIGIN :=
    fun response => getAll_standingHeaders response (by decide)
  rcases answered_cases reads with ⟨refused | ⟨_, refused⟩, answer⟩ |
    ⟨admitted, message, _, found, _, answer⟩ | ⟨admitted, _, found, _, answer⟩ |
    ⟨origin, _, found, answer⟩
  · rw [answer, refused, standing, forbidden, refuse, respond, HeaderMap.getAll_extend]
    rfl
  · rw [answer, refused, standing, forbidden, refuse, respond, HeaderMap.getAll_extend]
    rfl
  · rw [answer, found, standing, refuse, respond, HeaderMap.getAll_extend]
    cases admitted <;> rfl
  · rw [answer, found, standing, record, respond, HeaderMap.getAll_extend]
    cases admitted <;> rfl
  · rw [answer, found, standing, granted, HeaderMap.getAll_extend]
    cases call.headers.get ACCESS_CONTROL_REQUEST_HEADERS <;> rfl

theorem getAll_allowCredentials {state : AppState} {call : Call} (reads : call.ReadsConfig) :
    (answered crates state call).2.headers.getAll ACCESS_CONTROL_ALLOW_CREDENTIALS = [] := by
  have standing : ∀ response : Response,
      (standingHeaders response).headers.getAll ACCESS_CONTROL_ALLOW_CREDENTIALS =
        response.headers.getAll ACCESS_CONTROL_ALLOW_CREDENTIALS :=
    fun response => getAll_standingHeaders response (by decide)
  rcases answered_cases reads with ⟨_, answer⟩ | ⟨admitted, _, _, _, _, answer⟩ |
    ⟨admitted, _, _, _, answer⟩ | ⟨_, _, _, answer⟩
  · rw [answer, standing, forbidden, refuse, respond, HeaderMap.getAll_extend]
    rfl
  · rw [answer, standing, refuse, respond, HeaderMap.getAll_extend]
    cases admitted <;> rfl
  · rw [answer, standing, record, respond, HeaderMap.getAll_extend]
    cases admitted <;> rfl
  · rw [answer, standing, granted, HeaderMap.getAll_extend]
    cases call.headers.get ACCESS_CONTROL_REQUEST_HEADERS <;> rfl

/-- The record is given to the admitted `GET` that carries no query and no
body, and to no other request. -/
theorem status_eq_ok_iff {state : AppState} {call : Call} (reads : call.ReadsConfig) :
    (answered crates state call).2.status = OK ↔
      call.method = .get ∧ malformed call.query call.body = none ∧
        admission crates state call.headers ≠ none := by
  have forbiddenOk : FORBIDDEN ≠ OK := by decide
  have badRequestOk : BAD_REQUEST ≠ OK := by decide
  have noContentOk : NO_CONTENT ≠ OK := by decide
  rcases answered_cases reads with ⟨refused | ⟨method, _⟩, answer⟩ |
    ⟨admitted, message, _, _, fault, answer⟩ | ⟨admitted, method, found, fault, answer⟩ |
    ⟨origin, method, _, answer⟩
  · exact iff_of_false (answer ▸ forbiddenOk) fun both => both.2.2 refused
  · exact iff_of_false (answer ▸ forbiddenOk) fun both => by simp [both.1] at method
  · exact iff_of_false (answer ▸ badRequestOk) fun both => by simp [both.2.1] at fault
  · exact iff_of_true (answer ▸ rfl) ⟨method, fault, by simp [found]⟩
  · exact iff_of_false (answer ▸ noContentOk) fun both => by simp [both.1] at method

theorem body_of_status_ok {state : AppState} {call : Call} (reads : call.ReadsConfig)
    (ok : (answered crates state call).2.status = OK) :
    (answered crates state call).2.body = state.ceremonyConfig := by
  obtain ⟨method, fault, admitted⟩ := (status_eq_ok_iff reads).mp ok
  rcases answered_cases reads with ⟨refused | ⟨other, _⟩, _⟩ |
    ⟨_, _, _, _, other, _⟩ | ⟨_, _, _, _, answer⟩ | ⟨_, other, _, _⟩
  · exact absurd refused admitted
  · simp [method] at other
  · simp [fault] at other
  · rw [answer]
    rfl
  · simp [method] at other

/-- A request the configuration route does not admit. -/
structure IsRefused (crates : Crates) (state : AppState) (call : Call) : Prop where
  noOrigin : ∀ origin, ¬ IsAdmittedOrigin crates state call.headers origin
  notSame : call.method = .get → ¬ IsSameOriginRead call.headers

theorem answered_of_isRefused {state : AppState} {call : Call} (reads : call.ReadsConfig)
    (refused : IsRefused crates state call) :
    (answered crates state call).2 = standingHeaders (forbidden crates) := by
  have notListed : ∀ origin,
      admission crates state call.headers ≠ some (.listed origin) := fun origin found =>
    refused.noOrigin origin (admission_eq_listed_iff.mp found)
  have notAdmitted : call.method = .get → ∀ admitted,
      admission crates state call.headers ≠ some admitted := by
    rintro method (origin | _) found
    · exact notListed origin found
    · exact refused.notSame method (admission_eq_sameOrigin_iff.mp found)
  rcases answered_cases reads with ⟨_, answer⟩ | ⟨admitted, _, method, found, _⟩ |
    ⟨admitted, method, found, _⟩ | ⟨origin, _, found, _⟩
  · exact answer
  · exact absurd found (notAdmitted method admitted)
  · exact absurd found (notAdmitted method admitted)
  · exact absurd found (notListed origin)

/-- An origin that is echoed was read as a canonical origin, which holds no
`*`. -/
theorem star_notMem_of_isAdmittedOrigin (urlLaws : UrlLaws crates)
    (headerLaws : HeaderLaws crates) {state : AppState} {headers : HeaderMap}
    {origin : HeaderValue} (admitted : IsAdmittedOrigin crates state headers origin) :
    (0x2A : UInt8) ∉ origin := by
  obtain ⟨_, text, observed, readable, stamped, _⟩ := admitted
  obtain ⟨_, canonical⟩ := observed.canonical
  have starless := Origin.star_notMem_of_listed urlLaws canonical
  have spelled : observed.text = text := Observed.asStr_of_stamped stamped
  obtain ⟨_, rfl⟩ := headerLaws.toStr_eq_some_iff.mp readable
  intro star
  rw [spelled] at starless
  exact starless (List.mem_map.mpr ⟨0x2A, star, rfl⟩)

/-- Admission of the configuration route: who is given the record, which
answers name an allowed origin and what that is, and the one answer everyone
else is given, whatever the deployment. -/
theorem config_admission (urlLaws : UrlLaws crates) (headerLaws : HeaderLaws crates)
    (state : AppState) (call : Call) (reads : call.ReadsConfig) :
    ((answered crates state call).2.status = OK ↔
      call.method = .get ∧ (call.query = none ∨ call.query = some []) ∧
        carriesBody call.body = false ∧
        ((∃ origin, IsAdmittedOrigin crates state call.headers origin) ∨
          IsSameOriginRead call.headers)) ∧
    ((answered crates state call).2.status = OK →
      (answered crates state call).2.body = state.ceremonyConfig) ∧
    (∀ origin,
      (answered crates state call).2.headers.getAll ACCESS_CONTROL_ALLOW_ORIGIN = [origin] ↔
        IsAdmittedOrigin crates state call.headers origin) ∧
    ((∀ origin, ¬ IsAdmittedOrigin crates state call.headers origin) →
      (answered crates state call).2.headers.getAll ACCESS_CONTROL_ALLOW_ORIGIN = []) ∧
    (∀ value ∈ (answered crates state call).2.headers.getAll ACCESS_CONTROL_ALLOW_ORIGIN,
      (0x2A : UInt8) ∉ value) ∧
    (answered crates state call).2.headers.getAll ACCESS_CONTROL_ALLOW_CREDENTIALS = [] ∧
    (IsRefused crates state call → (answered crates state call).2.status = FORBIDDEN ∧
      ∀ otherState (otherCall : Call), otherCall.ReadsConfig →
        IsRefused crates otherState otherCall →
          (answered crates otherState otherCall).2 = (answered crates state call).2) := by
  have allowed := @getAll_allowOrigin crates state call reads
  have listed_iff : ∀ origin,
      ((admission crates state call.headers).bind Admission.origin).toList = [origin] ↔
        IsAdmittedOrigin crates state call.headers origin := by
    intro origin
    rw [← admission_eq_listed_iff]
    rcases admission crates state call.headers with _ | _ | _ <;> simp [Admission.origin]
  refine ⟨?_, body_of_status_ok reads, ?_, ?_, ?_, getAll_allowCredentials reads, ?_⟩
  · rw [status_eq_ok_iff reads, malformed_eq_none_iff, ne_eq, admission_eq_none_iff,
      not_and_or, not_not, not_not, and_assoc]
  · simpa only [allowed] using listed_iff
  · intro noOrigin
    rw [allowed]
    cases found : (admission crates state call.headers).bind Admission.origin with
    | none => rfl
    | some origin =>
        exact absurd ((listed_iff origin).mp (by rw [found]; rfl)) (noOrigin origin)
  · intro value present
    rw [allowed] at present
    obtain ⟨origin, found⟩ := Option.isSome_iff_exists.mp
      (Option.isSome_of_mem (Option.mem_toList.mp present))
    have same : value = origin := by simpa [found] using present
    exact same ▸ star_notMem_of_isAdmittedOrigin urlLaws headerLaws
      ((listed_iff origin).mp (by rw [found]; rfl))
  · intro refused
    have answer := answered_of_isRefused reads refused
    refine ⟨answer ▸ rfl, fun otherState otherCall otherReads otherRefused => ?_⟩
    rw [answer, answered_of_isRefused otherReads otherRefused]

namespace Reference

def state : AppState :=
  ⟨none, deployment.allowedOrigins, deployment.ceremonyConfig Reference.crates, none, Metrics.new⟩

def read (headers : HeaderMap) : Call :=
  ⟨.get, .config, none, headers, ⟨true⟩⟩

end Reference

theorem config_admission_pattern :
    (answered Reference.crates Reference.state
      (Reference.read [(ORIGIN, Text.bytes "https://me.handles.link".toList)])).2.headers.getAll
        ACCESS_CONTROL_ALLOW_ORIGIN = [Text.bytes "https://me.handles.link".toList] :=
  ((config_admission Reference.urlLaws Reference.headerLaws Reference.state _
    ⟨rfl, Or.inl rfl⟩).2.2.1 _).mpr (admission_eq_listed_iff.mp (by decide +kernel))

/-- The header names a response's `Vary` lists. -/
def varyNames (response : Response) : List HeaderName :=
  (response.headers.getAll VARY).flatMap fun value =>
    (((Text.fromUtf8 value).getD []).splitOn ',').map fun name =>
      (Text.trim name).map Char.toLower

def AgreeOn (first second : Call) (name : HeaderName) : Prop :=
  first.headers.getAll name = second.headers.getAll name

theorem varyNames_of_read {response : Response}
    (varies : response.headers.getAll VARY = [Text.bytes VARY_ON]) :
    varyNames (standingHeaders response) = [ORIGIN, SEC_FETCH_SITE] := by
  rw [varyNames, getAll_standingHeaders response (by decide), varies, List.flatMap_singleton,
    Text.fromUtf8_bytes, Option.getD_some]
  decide +kernel

theorem varyNames_forbidden :
    varyNames (standingHeaders (forbidden crates)) = [ORIGIN, SEC_FETCH_SITE] := by
  apply varyNames_of_read
  rw [forbidden, refuse, respond, HeaderMap.getAll_extend]
  rfl

/-- Every answer to a read varies on what admission looks at. -/
theorem varyNames_config (state : AppState) (query : Option Text) (headers : HeaderMap)
    (body : Body) :
    varyNames (standingHeaders (config crates state query headers body)) =
      [ORIGIN, SEC_FETCH_SITE] := by
  unfold config
  cases admission crates state headers with
  | none => exact varyNames_forbidden
  | some admitted =>
      apply varyNames_of_read
      cases malformed query body with
      | some message =>
          dsimp only
          rw [refuse, respond, HeaderMap.getAll_extend]
          cases admitted <;> rfl
      | none =>
          dsimp only
          rw [record, respond, HeaderMap.getAll_extend]
          cases admitted <;> rfl

theorem varyNames_granted (origin : HeaderValue) (asked : Option HeaderValue) :
    varyNames (standingHeaders (granted origin asked)) =
      [ORIGIN, ACCESS_CONTROL_REQUEST_HEADERS] := by
  have varies : (granted origin asked).headers.getAll VARY = [Text.bytes PREFLIGHT_VARY_ON] := by
    rw [granted, HeaderMap.getAll_extend]
    cases asked <;> rfl
  rw [varyNames, getAll_standingHeaders _ (by decide), varies, List.flatMap_singleton,
    Text.fromUtf8_bytes, Option.getD_some]
  decide +kernel

theorem admission_listed_congr {state : AppState} {first second : HeaderMap}
    {origin : HeaderValue} (sameOrigin : first.getAll ORIGIN = second.getAll ORIGIN)
    (admitted : admission crates state first = some (.listed origin)) :
    admission crates state second = some (.listed origin) := by
  rw [admission_eq_listed_iff, IsAdmittedOrigin] at admitted ⊢
  rwa [← sameOrigin]

theorem admission_congr {state : AppState} {first second : HeaderMap}
    (sameOrigin : first.getAll ORIGIN = second.getAll ORIGIN)
    (sameSite : first.getAll SEC_FETCH_SITE = second.getAll SEC_FETCH_SITE) :
    admission crates state first = admission crates state second := by
  unfold admission Origins.of
  rw [sameOrigin, sameSite]

/-- The response to a request depends on no header its `Vary` does not name:
two requests that agree on the named headers are answered alike. -/
theorem answered_eq_of_agreeOn_vary (state : AppState) (first second : Call)
    (firstReads : first.ReadsConfig) (secondReads : second.ReadsConfig)
    (sameMethod : first.method = second.method) (sameQuery : first.query = second.query)
    (sameBody : carriesBody first.body = carriesBody second.body)
    (agree : ∀ name ∈ varyNames (answered crates state first).2, AgreeOn first second name) :
    (answered crates state first).2 = (answered crates state second).2 := by
  have sameAdmission : varyNames (answered crates state first).2 = [ORIGIN, SEC_FETCH_SITE] →
      admission crates state first.headers = admission crates state second.headers := by
    intro varies
    rw [varies] at agree
    exact admission_congr (agree ORIGIN (by simp)) (agree SEC_FETCH_SITE (by simp))
  obtain ⟨firstPath, method | method⟩ := firstReads
  · have firstAnswer : (answered crates state first).2 =
        standingHeaders (config crates state first.query first.headers first.body) := by
      simp only [answered, routed, firstPath, method]
    have same := sameAdmission (firstAnswer ▸ varyNames_config _ _ _ _)
    have sameFault : malformed first.query first.body = malformed second.query second.body := by
      simp only [malformed, sameQuery, sameBody]
    rw [firstAnswer]
    simp only [answered, routed, secondReads.1, ← sameMethod, method, config, same, sameFault]
  · have firstAnswer : (answered crates state first).2 =
        standingHeaders (preflight crates state first.headers) := by
      simp only [answered, routed, firstPath, method]
    have secondAnswer : (answered crates state second).2 =
        standingHeaders (preflight crates state second.headers) := by
      simp only [answered, routed, secondReads.1, ← sameMethod, method]
    rw [firstAnswer] at agree sameAdmission ⊢
    rw [secondAnswer]
    unfold preflight at agree sameAdmission ⊢
    cases admitted : admission crates state first.headers with
    | none =>
        simp only [admitted] at sameAdmission
        rw [← sameAdmission varyNames_forbidden]
    | some kind =>
        cases kind with
        | sameOrigin =>
            simp only [admitted] at sameAdmission
            rw [← sameAdmission varyNames_forbidden]
        | listed origin =>
            simp only [admitted, varyNames_granted] at agree
            have sameOrigin := agree ORIGIN (by simp)
            have sameAsked := agree ACCESS_CONTROL_REQUEST_HEADERS (by simp)
            rw [admission_listed_congr sameOrigin admitted,
              HeaderMap.get_of_getAll_eq sameAsked]

theorem answered_eq_of_agreeOn_vary_referer :
    (answered Reference.crates Reference.state
        (Reference.read [(ORIGIN, Text.bytes "https://me.handles.link".toList)])).2 =
      (answered Reference.crates Reference.state
        (Reference.read [(ORIGIN, Text.bytes "https://me.handles.link".toList),
          ("referer".toList, Text.bytes "https://me.handles.link/".toList)])).2 := by
  refine answered_eq_of_agreeOn_vary Reference.state _ _ ⟨rfl, Or.inl rfl⟩ ⟨rfl, Or.inl rfl⟩
    rfl rfl rfl fun name named => ?_
  have varied : name ∈ [ORIGIN, SEC_FETCH_SITE] := by
    rwa [← varyNames_config]
  rcases List.mem_pair.mp varied with rfl | rfl <;> rfl

/-- Only an exact member is spelled without `*`. -/
theorem star_mem_of_not_exact {field spelling : Text} {member : Admitted}
    (accepted : Admitted.listed crates field spelling = .ok member)
    (notExact : ∀ origin, member ≠ .exact origin) : '*' ∈ spelling := by
  rcases Admitted.listed_eq_ok_iff.mp accepted with
    ⟨rfl, _⟩ | ⟨pattern, isPattern, _⟩ | ⟨_, origin, _, exact⟩
  · decide
  · obtain ⟨_, suffix, _, rfl⟩ := Pattern.listed_eq_ok_iff.mp isPattern
    simp
  · exact absurd exact (notExact origin)

theorem star_notMem_of_stamped (urlLaws : UrlLaws crates) {spelling : Text}
    {observed : Observed crates} (stamped : Observed.stamped crates spelling = some observed) :
    '*' ∉ spelling := by
  obtain ⟨_, canonical⟩ := observed.canonical
  have spelled : observed.text = spelling := Observed.asStr_of_stamped stamped
  exact spelled ▸ Origin.star_notMem_of_listed urlLaws canonical

/-- An `Origin` whose text is stamped as no observed origin admits nobody,
whatever the admission set and whatever other `Origin` stands beside it. -/
theorem admission_of_not_stamped (headerLaws : HeaderLaws crates) {spelling : Text}
    (unstamped : Observed.stamped crates spelling = none) (state : AppState)
    {headers : HeaderMap} (offered : Text.bytes spelling ∈ headers.getAll ORIGIN) :
    admission crates state headers = none := by
  rw [admission_eq_none_iff]
  constructor
  · rintro ⟨origin, alone, text, observed, readable, stamped, _⟩
    have same : Text.bytes spelling = origin := by simpa [alone] using offered
    have spelled := (headerLaws.bytes_of_toStr readable).1
    rw [← same, Text.bytes_injective.eq_iff] at spelled
    rw [spelled, unstamped] at stamped
    cases stamped
  · rintro ⟨noOrigin, _⟩
    simp [noOrigin] at offered

/-- A text a browser stamps is an exact member and admits itself alone, and
the spelling of any other member is stamped by no browser: offered as the
origin of a request it is refused, whoever else is admitted. -/
theorem member_spelling_never_observed (urlLaws : UrlLaws crates)
    (headerLaws : HeaderLaws crates) (spelling : Text) :
    (∀ observed, Observed.stamped crates spelling = some observed →
      '*' ∉ spelling ∧ ∀ field, ∃ origin,
        Admitted.listed crates field spelling = .ok (.exact origin) ∧
          ∀ other : Observed crates,
            (Admitted.exact origin).admits other = true ↔ other = observed) ∧
    ∀ field member, Admitted.listed crates field spelling = .ok member →
      (∀ origin, member ≠ .exact origin) →
        Observed.stamped crates spelling = none ∧
          ∀ (state : AppState) (call : Call), call.ReadsConfig →
            Text.bytes spelling ∈ call.headers.getAll ORIGIN →
              admission crates state call.headers = none ∧
                (answered crates state call).2 = standingHeaders (forbidden crates) := by
  constructor
  · intro observed stamped
    refine ⟨star_notMem_of_stamped urlLaws stamped, fun field => ?_⟩
    obtain ⟨origin, canonical⟩ := observed.canonical
    have spelled : observed.text = spelling := Observed.asStr_of_stamped stamped
    have asStr := Origin.asStr_of_listed canonical
    rw [spelled] at canonical
    refine ⟨origin, Admitted.listed_exact_of_origin urlLaws
      (Origin.listed_field crates canonical), fun other => ?_⟩
    have admits : (Admitted.exact origin).admits other = (origin.asStr == other.text) := rfl
    rw [admits, asStr, beq_iff_eq]
    constructor
    · intro sameText
      cases other
      cases observed
      simpa [eq_comm] using sameText
    · rintro rfl
      rfl
  · intro field member accepted notExact
    have star := star_mem_of_not_exact accepted notExact
    have unstamped : Observed.stamped crates spelling = none := by
      cases stamped : Observed.stamped crates spelling with
      | none => rfl
      | some observed => exact absurd star (star_notMem_of_stamped urlLaws stamped)
    refine ⟨unstamped, fun state call reads offered => ?_⟩
    have refused := admission_of_not_stamped headerLaws unstamped state offered
    refine ⟨refused, answered_of_isRefused reads ?_⟩
    rw [admission_eq_none_iff] at refused
    exact ⟨fun origin admitted => refused.1 ⟨origin, admitted⟩, fun _ => refused.2⟩

theorem member_spelling_never_observed_every :
    admission Reference.crates Reference.state [(ORIGIN, Text.bytes "*".toList)] = none :=
  (((member_spelling_never_observed Reference.urlLaws Reference.headerLaws "*".toList).2
    [] .every (if_pos rfl) (by simp)).2 Reference.state
      (Reference.read [(ORIGIN, Text.bytes "*".toList)]) ⟨rfl, Or.inl rfl⟩ (by decide)).1

end LibidBridge
