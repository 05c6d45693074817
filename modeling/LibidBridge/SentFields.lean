import LibidBridge.RouteTable

/-!
# The fields of a response

Whatever this service is asked and whatever it was sent by its Distribution,
its responses are made of a closed list of fields, each named once: fixed ones,
the composed policy, and, on the configuration route alone, what lets the one
origin that asked read the answer; axum adds the length at most.  No value breaks
a line, so no response can be split.
-/

namespace LibidBridge

namespace HeaderMap

theorem extend_snoc (headers : HeaderMap) (fields : List (HeaderName × HeaderValue))
    (field : HeaderName × HeaderValue) :
    headers.extend (fields ++ [field]) = (headers.extend fields).insert field.1 field.2 := by
  simp [extend]

theorem mem_insert {headers : HeaderMap} {name : HeaderName} {value : HeaderValue}
    {field : HeaderName × HeaderValue} :
    field ∈ headers.insert name value ↔
      (field ∈ headers ∧ field.1 ≠ name) ∨ field = (name, value) := by
  simp [insert]

/-- What is sent is what was written over the fields there were, and those of
them that it left. -/
theorem mem_of_mem_extend {headers : HeaderMap} {fields : List (HeaderName × HeaderValue)}
    {field : HeaderName × HeaderValue} (member : field ∈ headers.extend fields) :
    field ∈ fields ∨ (field ∈ headers ∧ field.1 ∉ fields.map Prod.fst) := by
  induction fields using List.reverseRecOn with
  | nil => exact Or.inr ⟨member, by simp⟩
  | append_singleton fields last ih =>
      rw [extend_snoc, mem_insert] at member
      rcases member with ⟨before, other⟩ | rfl
      · rcases ih before with written | ⟨left, unwritten⟩
        · exact Or.inl (List.mem_append_left _ written)
        · exact Or.inr ⟨left, by simp_all⟩
      · exact Or.inl (by simp)

theorem nodup_insert {headers : HeaderMap} (once : (headers.map Prod.fst).Nodup)
    (name : HeaderName) (value : HeaderValue) :
    ((headers.insert name value).map Prod.fst).Nodup := by
  rw [insert, List.map_append]
  refine List.nodup_append.mpr ⟨once.sublist (List.filter_sublist.map _),
    List.nodup_singleton _, ?_⟩
  intro first firstMem second secondMem same
  obtain ⟨field, member, rfl⟩ := List.mem_map.mp firstMem
  have other := (List.mem_filter.mp member).2
  rw [List.map_singleton, List.mem_singleton] at secondMem
  simp [same, secondMem] at other

theorem nodup_extend {headers : HeaderMap} (once : (headers.map Prod.fst).Nodup)
    (fields : List (HeaderName × HeaderValue)) :
    ((headers.extend fields).map Prod.fst).Nodup := by
  induction fields using List.reverseRecOn with
  | nil => exact once
  | append_singleton fields last ih =>
      rw [extend_snoc]
      exact nodup_insert ih last.1 last.2

end HeaderMap

/-- The fields that are the same for every deployment and every request. -/
def FIXED : List (HeaderName × Text) :=
  [(CACHE_CONTROL, "no-store".toList),
    (X_CONTENT_TYPE_OPTIONS, "nosniff".toList),
    (CONTENT_TYPE, "text/plain; charset=utf-8".toList),
    (CONTENT_TYPE, "application/openmetrics-text; version=1.0.0; charset=utf-8".toList),
    (CONTENT_TYPE, "application/json".toList),
    (CONTENT_TYPE, "text/html; charset=utf-8".toList),
    (ALLOW, "GET,HEAD".toList),
    (ALLOW, "GET, OPTIONS".toList),
    (ALLOW, "GET".toList),
    (COOP, "unsafe-none".toList),
    (REFERRER_POLICY, "no-referrer".toList),
    (RETRY_AFTER_NAME, RETRY_AFTER),
    (CONTENT_SECURITY_POLICY, NO_DOCUMENT_POLICY)]

/-- The fixed fields of the configuration route alone. -/
def CONFIG_FIXED : List (HeaderName × Text) :=
  [(VARY, VARY_ON), (VARY, PREFLIGHT_VARY_ON), (ACCESS_CONTROL_ALLOW_METHODS, "GET".toList),
    (ACCESS_CONTROL_MAX_AGE, PREFLIGHT_MAX_AGE)]

/-- A policy composed around script hashes. -/
def IsComposedPolicy (value : HeaderValue) : Prop :=
  ∃ hashes : List Text, hashes ≠ [] ∧ (∀ source ∈ hashes, isHash source = true) ∧
    value = Text.bytes (policy hashes)

/-- What the handlers write of the answer to a request, and what stands on every
response. -/
inductive MayWrite (inbound : Inbound) : HeaderName × HeaderValue → Prop
  | fixed (field : HeaderName × Text) (listed : field ∈ FIXED) :
      MayWrite inbound (field.1, Text.bytes field.2)
  | policy (value : HeaderValue) (composed : IsComposedPolicy value) :
      MayWrite inbound (CONTENT_SECURITY_POLICY, value)
  | config (field : HeaderName × Text) (listed : field ∈ CONFIG_FIXED)
      (path : inbound.path = CONFIG_PATH) : MayWrite inbound (field.1, Text.bytes field.2)
  | allowOrigin (origin : HeaderValue) (path : inbound.path = CONFIG_PATH)
      (only : inbound.headers.getAll ORIGIN = [origin]) :
      MayWrite inbound (ACCESS_CONTROL_ALLOW_ORIGIN, origin)
  | allowHeaders (asked : HeaderValue) (path : inbound.path = CONFIG_PATH)
      (present : inbound.headers.get ACCESS_CONTROL_REQUEST_HEADERS = some asked) :
      MayWrite inbound (ACCESS_CONTROL_ALLOW_HEADERS, asked)

/-- A response of fields that may be written, each once. -/
structure Response.Writes (response : Response) (inbound : Inbound) : Prop where
  fields : ∀ field ∈ response.headers, MayWrite inbound field
  once : (response.headers.map Prod.fst).Nodup

/-- What a request may be answered with once axum has written its length. -/
inductive MaySend (inbound : Inbound) : HeaderName × HeaderValue → Prop
  | written (field : HeaderName × HeaderValue) (may : MayWrite inbound field) :
      MaySend inbound field
  | length (count : Nat) : MaySend inbound (CONTENT_LENGTH, Text.bytes (Nat.toDigits 10 count))

/-- A response of fields that may be sent, each once. -/
structure Response.Sends (response : Response) (inbound : Inbound) : Prop where
  fields : ∀ field ∈ response.headers, MaySend inbound field
  once : (response.headers.map Prod.fst).Nodup

variable {crates : Crates} {axum : Axum} {encode : List (Text × Text × Family) → Text}
  {state : AppState} {inbound : Inbound}

theorem writes_of_extend {status : StatusCode} {headers : HeaderMap}
    {fields : List (HeaderName × HeaderValue)} {body : Bytes}
    (once : (headers.map Prod.fst).Nodup)
    (left : ∀ field ∈ headers, field.1 ∉ fields.map Prod.fst → MayWrite inbound field)
    (written : ∀ field ∈ fields, MayWrite inbound field) :
    (Response.mk status (headers.extend fields) body).Writes inbound where
  fields := by
    intro field member
    rcases HeaderMap.mem_of_mem_extend member with new | ⟨before, unwritten⟩
    · exact written field new
    · exact left field before unwritten
  once := HeaderMap.nodup_extend once fields

theorem Response.Writes.standing {response : Response} (writes : response.Writes inbound) :
    (standingHeaders response).Writes inbound := by
  refine writes_of_extend writes.once (fun field member _ => writes.fields field member) ?_
  intro field member
  rcases List.mem_cons.mp member with rfl | member
  · exact .fixed (CACHE_CONTROL, "no-store".toList) (.head _)
  · rw [List.mem_singleton.mp member]
    exact .fixed (X_CONTENT_TYPE_OPTIONS, "nosniff".toList) (.tail _ (.head _))

/-- A body under a fixed type and other fields, which may write another. -/
theorem writes_respond {status : StatusCode} {contentType : Text}
    {fields : List (HeaderName × HeaderValue)} {body : Bytes}
    (typed : CONTENT_TYPE ∉ fields.map Prod.fst → (CONTENT_TYPE, contentType) ∈ FIXED)
    (written : ∀ field ∈ fields, MayWrite inbound field) :
    (respond status contentType fields body).Writes inbound := by
  refine writes_of_extend (List.nodup_singleton _) (fun field member unwritten => ?_) written
  rw [List.mem_singleton.mp member] at unwritten ⊢
  exact .fixed (CONTENT_TYPE, contentType) (typed unwritten)

theorem writes_single {status : StatusCode} {field : HeaderName × Text} {body : Bytes}
    (listed : field ∈ FIXED) :
    (Response.mk status [(field.1, Text.bytes field.2)] body).Writes inbound where
  fields := by
    intro other member
    rw [List.mem_singleton.mp member]
    exact .fixed field listed
  once := List.nodup_singleton _

theorem writes_refusingOtherMethods {allow : Text} (listed : (ALLOW, allow) ∈ FIXED) :
    (refusingOtherMethods allow).Writes inbound :=
  writes_single listed

theorem writes_health : health.Writes inbound :=
  writes_respond (fun _ => List.mem_of_getElem? (i := 2) rfl) nofun

theorem writes_unrouted : unrouted.Writes inbound :=
  writes_respond (fun _ => List.mem_of_getElem? (i := 2) rfl) nofun

theorem writes_metricsPage : (state.metricsPage encode).Writes inbound := by
  refine writes_respond (fun unwritten => absurd (.head _) unwritten) fun field member => ?_
  rw [List.mem_singleton.mp member]
  exact .fixed (CONTENT_TYPE,
    "application/openmetrics-text; version=1.0.0; charset=utf-8".toList)
    (List.mem_of_getElem? (i := 3) rfl)

theorem writes_get (laws : AxumLaws axum) {handler : Response} (writes : handler.Writes inbound)
    (method : Method) : (axum.get handler method).Writes inbound := by
  by_cases get : method = .get
  · rwa [get, laws.get_get]
  · by_cases head : method = .head
    · rwa [head, laws.get_head]
    · rw [laws.get_other handler method get head]
      exact writes_refusingOtherMethods (List.mem_of_getElem? (i := 6) rfl)

/-- The origin a request was admitted from is the one it named. -/
theorem getAll_origin_of_admission {headers : HeaderMap} {admitted : Admission}
    (found : admission crates state headers = some admitted) :
    ∀ origin ∈ admitted.origin.toList, headers.getAll ORIGIN = [origin] := by
  intro origin member
  cases admitted with
  | sameOrigin => cases member
  | listed other =>
      rw [List.mem_singleton.mp member]
      exact (admission_eq_listed_iff.mp found).1

section Config

variable (path : inbound.path = CONFIG_PATH)

include path

/-- What the configuration route writes of itself, and for the origin a request
was admitted from. -/
theorem mayWrite_origins {fields : List (HeaderName × Text)} (listed : fields ⊆ CONFIG_FIXED)
    {origins : List HeaderValue}
    (only : ∀ origin ∈ origins, inbound.headers.getAll ORIGIN = [origin]) :
    ∀ field ∈ fields.map (fun field => (field.1, Text.bytes field.2)) ++
        origins.map fun origin => (ACCESS_CONTROL_ALLOW_ORIGIN, origin),
      MayWrite inbound field := by
  intro field member
  rcases List.mem_append.mp member with own | granted
  · obtain ⟨fixed, present, rfl⟩ := List.mem_map.mp own
    exact .config fixed (listed present) path
  · obtain ⟨origin, present, rfl⟩ := List.mem_map.mp granted
    exact .allowOrigin origin path (only origin present)

theorem writes_refuse (status : StatusCode) (message : Text) {admitted : Option HeaderValue}
    (only : ∀ origin ∈ admitted.toList, inbound.headers.getAll ORIGIN = [origin]) :
    (refuse crates status message admitted).Writes inbound := by
  refine writes_respond (fun _ => List.mem_of_getElem? (i := 4) rfl) ?_
  exact @mayWrite_origins inbound path [(VARY, VARY_ON)] (by simp [CONFIG_FIXED]) _ only

theorem writes_record {admitted : Option HeaderValue}
    (only : ∀ origin ∈ admitted.toList, inbound.headers.getAll ORIGIN = [origin]) :
    (record state admitted).Writes inbound := by
  have writes := @mayWrite_origins inbound path [(VARY, VARY_ON)] (by simp [CONFIG_FIXED]) _ only
  refine writes_respond (fun unwritten => absurd (by simp) unwritten) fun field member => ?_
  rcases List.mem_cons.mp member with rfl | member
  · exact writes _ (.head _)
  · rcases List.mem_cons.mp member with rfl | member
    · exact .fixed (CONTENT_TYPE, "application/json".toList)
        (List.mem_of_getElem? (i := 4) rfl)
    · exact writes _ (.tail _ member)

theorem writes_granted {origin : HeaderValue}
    (only : inbound.headers.getAll ORIGIN = [origin]) :
    (granted origin (inbound.headers.get ACCESS_CONTROL_REQUEST_HEADERS)).Writes inbound := by
  have fixed : ∀ field ∈ CONFIG_FIXED, MayWrite inbound (field.1, Text.bytes field.2) :=
    fun field listed => .config field listed path
  refine writes_of_extend List.nodup_nil nofun fun field member => ?_
  rcases List.mem_append.mp member with own | asked
  · simp only [List.mem_cons, List.not_mem_nil, or_false] at own
    rcases own with rfl | rfl | rfl | rfl
    · exact fixed (VARY, PREFLIGHT_VARY_ON) (by simp [CONFIG_FIXED])
    · exact .allowOrigin origin path only
    · exact fixed (ACCESS_CONTROL_ALLOW_METHODS, "GET".toList) (by simp [CONFIG_FIXED])
    · exact fixed (ACCESS_CONTROL_MAX_AGE, PREFLIGHT_MAX_AGE) (by simp [CONFIG_FIXED])
  · obtain ⟨value, present, rfl⟩ := List.mem_map.mp asked
    exact .allowHeaders value path (Option.mem_toList.mp present)

end Config

theorem writes_unavailable (why : Option Text) : (unavailable why).Writes inbound := by
  refine writes_respond (fun unwritten => absurd (by simp) unwritten) fun field member => ?_
  simp only [List.mem_cons, List.not_mem_nil, or_false] at member
  rcases member with rfl | rfl | rfl | rfl | rfl
  · exact .fixed (COOP, "unsafe-none".toList) (List.mem_of_getElem? (i := 9) rfl)
  · exact .fixed (CONTENT_TYPE, "text/html; charset=utf-8".toList)
      (List.mem_of_getElem? (i := 5) rfl)
  · exact .fixed (REFERRER_POLICY, "no-referrer".toList) (List.mem_of_getElem? (i := 10) rfl)
  · exact .fixed (RETRY_AFTER_NAME, RETRY_AFTER) (List.mem_of_getElem? (i := 11) rfl)
  · exact .fixed (CONTENT_SECURITY_POLICY, NO_DOCUMENT_POLICY)
      (List.mem_of_getElem? (i := 12) rfl)

theorem writes_serving {published : Published}
    (composed : IsComposedPolicy published.document.csp) :
    (serving published).Writes inbound := by
  refine writes_respond (fun unwritten => absurd (by simp) unwritten) fun field member => ?_
  simp only [List.mem_cons, List.not_mem_nil, or_false] at member
  rcases member with rfl | rfl | rfl | rfl
  · exact .fixed (COOP, "unsafe-none".toList) (List.mem_of_getElem? (i := 9) rfl)
  · exact .fixed (CONTENT_TYPE, "text/html; charset=utf-8".toList)
      (List.mem_of_getElem? (i := 5) rfl)
  · exact .fixed (REFERRER_POLICY, "no-referrer".toList) (List.mem_of_getElem? (i := 10) rfl)
  · exact .policy _ composed

theorem writes_callback (composed : ∀ published, state.callback = some published →
      IsComposedPolicy published.document.csp) (body : Body) :
    (callback state body).2.Writes inbound := by
  unfold callback
  split_ifs
  · exact ⟨nofun, List.nodup_nil⟩
  · cases served : state.callback with
    | none => exact writes_unavailable state.failure
    | some published => exact writes_serving (composed published served)

theorem writes_config (path : inbound.path = CONFIG_PATH) (query : Option Text) (body : Body) :
    (config crates state query inbound.headers body).Writes inbound := by
  unfold config
  cases found : admission crates state inbound.headers with
  | none => exact writes_refuse path _ _ nofun
  | some admitted =>
      have only := getAll_origin_of_admission found
      dsimp only
      cases malformed query body with
      | none => exact writes_record path only
      | some message => exact writes_refuse path _ message only

theorem writes_preflight (path : inbound.path = CONFIG_PATH) :
    (preflight crates state inbound.headers).Writes inbound := by
  unfold preflight
  cases found : admission crates state inbound.headers with
  | none => exact writes_refuse path _ _ nofun
  | some admitted =>
      cases admitted with
      | listed origin => exact writes_granted path (admission_eq_listed_iff.mp found).1
      | sameOrigin => exact writes_refuse path _ _ nofun

theorem writes_standing (laws : AxumLaws axum)
    (composed : ∀ published, state.callback = some published →
      IsComposedPolicy published.document.csp) :
    (standingHeaders (buildRouter crates axum encode state inbound).2).Writes inbound := by
  have writes : (buildRouter crates axum encode state inbound).2.Writes inbound := by
    unfold buildRouter
    cases found : Route.ofPath inbound.path with
    | none => exact writes_unrouted
    | some route =>
        have path := Route.ofPath_eq_some_iff.mp found
        rcases route with _ | _ | _ | _
        · exact writes_get laws writes_health _
        · exact writes_get laws writes_metricsPage _
        · cases Method.ofToken inbound.method with
          | get => exact writes_config path.symm inbound.query inbound.body
          | options => exact writes_preflight path.symm
          | head | other =>
              exact writes_refusingOtherMethods (List.mem_of_getElem? (i := 7) rfl)
        · cases Method.ofToken inbound.method with
          | get => exact writes_callback composed inbound.body
          | head | options | other =>
              exact writes_refusingOtherMethods (List.mem_of_getElem? (i := 8) rfl)
  exact writes.standing

theorem MayWrite.ne_length {field : HeaderName × HeaderValue} (may : MayWrite inbound field) :
    field.1 ≠ CONTENT_LENGTH := by
  have fixed : ∀ field ∈ FIXED, field.1 ≠ CONTENT_LENGTH := by decide +kernel
  have config : ∀ field ∈ CONFIG_FIXED, field.1 ≠ CONTENT_LENGTH := by decide +kernel
  cases may with
  | fixed field listed => exact fixed field listed
  | config field listed path => exact config field listed
  | policy value composed =>
      exact (by decide +kernel : CONTENT_SECURITY_POLICY ≠ CONTENT_LENGTH)
  | allowOrigin origin path only =>
      exact (by decide +kernel : ACCESS_CONTROL_ALLOW_ORIGIN ≠ CONTENT_LENGTH)
  | allowHeaders asked path present =>
      exact (by decide +kernel : ACCESS_CONTROL_ALLOW_HEADERS ≠ CONTENT_LENGTH)

theorem Response.Writes.notMem_length {response : Response} (writes : response.Writes inbound) :
    CONTENT_LENGTH ∉ response.headers.map Prod.fst := by
  intro member
  obtain ⟨field, present, named⟩ := List.mem_map.mp member
  exact (writes.fields field present).ne_length named

/-- A response of what may be written is sent as one of what may be sent. -/
theorem sends_send (laws : AxumLaws axum) {response : Response}
    (writes : response.Writes inbound) (method : Method) :
    (axum.send method response).Sends inbound := by
  obtain ⟨length, same⟩ := laws.send_headers method response writes.notMem_length
  constructor
  · intro field member
    rcases List.mem_append.mp (same.mem_iff.mp member) with before | added
    · exact .written field (writes.fields field before)
    · obtain ⟨count, _, rfl⟩ := List.mem_map.mp added
      exact .length count
  · rw [(same.map Prod.fst).nodup_iff, List.map_append]
    cases length with
    | none => simpa using writes.once
    | some count =>
        refine List.nodup_append.mpr ⟨writes.once, List.nodup_singleton _, ?_⟩
        rintro name before _ added rfl
        obtain rfl : name = CONTENT_LENGTH := by simpa using added
        exact writes.notMem_length before

/-- No other field is touched. -/
theorem getAll_send (laws : AxumLaws axum) {response : Response}
    (writes : response.Writes inbound) (method : Method) {name : HeaderName}
    (other : name ≠ CONTENT_LENGTH) {value : HeaderValue}
    (only : response.headers.getAll name = [value]) :
    (axum.send method response).headers.getAll name = [value] := by
  obtain ⟨length, same⟩ := laws.send_headers method response writes.notMem_length
  have kept := (same.filter fun field => field.1 = name).map Prod.snd
  have added : (length.toList.map fun count =>
      (CONTENT_LENGTH, Text.bytes (Nat.toDigits 10 count))).filter
        (fun field => field.1 = name) = [] := by
    cases length <;> simp [other.symm]
  rw [List.filter_append, added, List.append_nil] at kept
  exact List.perm_singleton.mp (only ▸ kept)

/-- A byte a field value may hold: no control character but the tab. -/
def IsLegalByte (byte : UInt8) : Prop :=
  byte.toNat = 0x09 ∨ (0x20 ≤ byte.toNat ∧ byte.toNat ≠ 0x7F)

instance (byte : UInt8) : Decidable (IsLegalByte byte) :=
  inferInstanceAs (Decidable (_ ∨ _))

def IsLegal (value : HeaderValue) : Prop :=
  ∀ byte ∈ value, IsLegalByte byte

instance (value : HeaderValue) : Decidable (IsLegal value) :=
  inferInstanceAs (Decidable (∀ byte ∈ value, IsLegalByte byte))

theorem isLegal_bytes {text : Text} (readable : ∀ letter ∈ text, IsReadable letter) :
    IsLegal (Text.bytes text) := by
  rw [Text.bytes_of_ascii fun letter member => (readable letter member).ascii]
  intro byte member
  obtain ⟨letter, inText, rfl⟩ := List.mem_map.mp member
  have bounded := (readable letter inText).ascii
  have code : (UInt8.ofNat letter.toNat).toNat = letter.toNat :=
    Nat.mod_eq_of_lt (by omega)
  rw [IsLegalByte, code]
  rcases readable letter inText with range | tab
  · exact Or.inr ⟨range.1, by omega⟩
  · exact Or.inl tab

theorem isLegal_of_mem_getAll {headers : HeaderMap} {name : HeaderName} {value : HeaderValue}
    (legal : ∀ field ∈ headers, IsLegal field.2) (member : value ∈ headers.getAll name) :
    IsLegal value := by
  obtain ⟨field, found, rfl⟩ := List.mem_map.mp member
  exact legal field (List.mem_of_mem_filter found)

theorem isLegal_digits (count : Nat) : IsLegal (Text.bytes (Nat.toDigits 10 count)) := by
  refine isLegal_bytes fun letter member => ?_
  have digit := Nat.isDigit_of_mem_toDigits (by decide) (by decide) member
  obtain ⟨low, high⟩ := Char.isDigit_iff_toNat.mp digit
  have bounds : '0'.toNat = 0x30 ∧ '9'.toNat = 0x39 := by decide
  exact Or.inl (by omega)

/-- What may be written is legal, given that what came was. -/
theorem MayWrite.isLegal {field : HeaderName × HeaderValue}
    (legal : ∀ field ∈ inbound.headers, IsLegal field.2) (sent : MayWrite inbound field) :
    IsLegal field.2 := by
  have fixedLegal : ∀ field ∈ FIXED, IsLegal (Text.bytes field.2) := by decide +kernel
  have configLegal : ∀ field ∈ CONFIG_FIXED, IsLegal (Text.bytes field.2) := by decide +kernel
  cases sent with
  | fixed field listed => exact fixedLegal field listed
  | config field listed path => exact configLegal field listed
  | policy value composed =>
      obtain ⟨hashes, nonempty, valid, rfl⟩ := composed
      exact isLegal_bytes fun letter member => isReadable_of_mem_policy nonempty valid member
  | allowOrigin origin path only =>
      exact isLegal_of_mem_getAll legal (only ▸ List.mem_singleton_self origin)
  | allowHeaders asked path present =>
      exact isLegal_of_mem_getAll legal (List.mem_of_mem_head? present)

theorem MaySend.isLegal {field : HeaderName × HeaderValue}
    (legal : ∀ field ∈ inbound.headers, IsLegal field.2) (sent : MaySend inbound field) :
    IsLegal field.2 := by
  cases sent with
  | written field may => exact may.isLegal legal
  | length count => exact isLegal_digits count

theorem getAll_standing (response : Response) :
    (standingHeaders response).headers.getAll CACHE_CONTROL =
        [Text.bytes "no-store".toList] ∧
      (standingHeaders response).headers.getAll X_CONTENT_TYPE_OPTIONS =
        [Text.bytes "nosniff".toList] := by
  rw [standingHeaders, HeaderMap.getAll_extend, HeaderMap.getAll_extend]
  exact ⟨rfl, rfl⟩

namespace System

variable {settings : Settings} {bridge : Bridge} {events : List Event} {system : System}

theorem isComposedPolicy_of_run (laws : HeaderLaws crates)
    (started : Bridge.start crates settings = .ok bridge)
    (ran : run (step crates bridge.refresher) (start bridge) events = some system) :
    ∀ published, system.state.callback = some published →
      IsComposedPolicy published.document.csp := by
  intro published served
  have received := allReceived_of_run laws (Bridge.callback_of_start started) ran
  obtain ⟨arrival, _, composed⟩ := received.1 published served
  obtain ⟨hashes, read, csp⟩ := composed.csp
  have named := hashes_of_scriptHashes read
  exact ⟨hashes, named.1, named.2, csp⟩

/-- Whatever is asked, in every state the system reaches, the response is made
of the fields listed here, each once, among them the two that stand on every
response; and no value of it holds a control character but the tab where the
request's own did not. -/
theorem responses_wellFormed (laws : HeaderLaws crates) (sending : AxumLaws axum)
    (started : Bridge.start crates settings = .ok bridge)
    (ran : run (step crates bridge.refresher) (start bridge) events = some system)
    (encode : List (Text × Text × Family) → Text) (inbound : Inbound) :
    (system.state.answer crates axum encode inbound).2.Sends inbound ∧
    (system.state.answer crates axum encode inbound).2.headers.getAll CACHE_CONTROL =
      [Text.bytes "no-store".toList] ∧
    (system.state.answer crates axum encode inbound).2.headers.getAll X_CONTENT_TYPE_OPTIONS =
      [Text.bytes "nosniff".toList] ∧
    ((∀ field ∈ inbound.headers, IsLegal field.2) →
      ∀ field ∈ (system.state.answer crates axum encode inbound).2.headers,
        IsLegal field.2) := by
  have writes := @writes_standing crates axum encode system.state inbound sending
    (isComposedPolicy_of_run laws started ran)
  have sends : (system.state.answer crates axum encode inbound).2.Sends inbound :=
    sends_send sending writes _
  obtain ⟨cache, sniff⟩ :=
    getAll_standing (buildRouter crates axum encode system.state inbound).2
  refine ⟨sends, ?_, ?_, fun legal field member => (sends.fields field member).isLegal legal⟩
  · exact getAll_send sending writes _ (by decide +kernel) cache
  · exact getAll_send sending writes _ (by decide +kernel) sniff

end System

namespace Reference

/-- The first document is published. -/
def firstPublication : List Event :=
  [.begin, .receive (tick "'sha256-A='".toList []).answer] ++ List.replicate 6 (.proceed 0)

/-- A request for the callback document. -/
def callbackRequest : Inbound where
  method := "GET".toList
  path := CALLBACK_PATH
  query := none
  headers := []
  body := ⟨true⟩

end Reference

theorem System.responses_wellFormed_document :
    ∃ system, run (step Reference.crates Reference.bridge.refresher) (start Reference.bridge)
        Reference.firstPublication = some system ∧
      (system.state.answer Reference.crates Reference.axum (fun _ => [])
        Reference.callbackRequest).2.status = OK ∧
      (system.state.answer Reference.crates Reference.axum (fun _ => [])
        Reference.callbackRequest).2.Sends Reference.callbackRequest := by
  have ran : (run (step Reference.crates Reference.bridge.refresher) (start Reference.bridge)
      Reference.firstPublication).any fun system =>
        (system.state.answer Reference.crates Reference.axum (fun _ => [])
          Reference.callbackRequest).2.status = OK := by
    decide +kernel
  obtain ⟨system, ran, ok⟩ := (Option.any_eq_true _ _).mp ran
  exact ⟨system, ran, of_decide_eq_true ok, (responses_wellFormed Reference.headerLaws
    Reference.axumLaws Reference.start_settings ran _ _).1⟩

end LibidBridge
