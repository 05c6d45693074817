import LibidBridge.Refresher

/-!
# The ceremony routes

What a request to the configuration route or the callback route is answered
with: who is admitted to the configuration, the preflight, every refusal, and
the callback document or the page that stands in for it.
-/

namespace LibidBridge

inductive Method
  | get
  | head
  | options
  | other (name : Text)
  deriving DecidableEq

inductive CeremonyPath
  | config
  | callback
  deriving DecidableEq

def CeremonyPath.toText : CeremonyPath → Text
  | .config => "/api/v1/ceremony/config".toList
  | .callback => "/auth/callback".toList

/-- What a handler sees of a request body. -/
structure Body where
  isEndStream : Bool
  deriving DecidableEq

structure Call where
  method : Method
  path : CeremonyPath
  query : Option Text
  headers : HeaderMap
  body : Body

structure Response where
  status : StatusCode
  headers : HeaderMap
  body : Bytes
  deriving DecidableEq

def NO_CONTENT : StatusCode := 204
def BAD_REQUEST : StatusCode := 400
def FORBIDDEN : StatusCode := 403
def METHOD_NOT_ALLOWED : StatusCode := 405
def SERVICE_UNAVAILABLE : StatusCode := 503

def VARY : HeaderName := "vary".toList
def ORIGIN : HeaderName := "origin".toList
def SEC_FETCH_SITE : HeaderName := "sec-fetch-site".toList
def ACCESS_CONTROL_REQUEST_HEADERS : HeaderName := "access-control-request-headers".toList
def ACCESS_CONTROL_ALLOW_ORIGIN : HeaderName := "access-control-allow-origin".toList
def ACCESS_CONTROL_ALLOW_METHODS : HeaderName := "access-control-allow-methods".toList
def ACCESS_CONTROL_ALLOW_HEADERS : HeaderName := "access-control-allow-headers".toList
def ACCESS_CONTROL_ALLOW_CREDENTIALS : HeaderName := "access-control-allow-credentials".toList
def ACCESS_CONTROL_MAX_AGE : HeaderName := "access-control-max-age".toList
def CACHE_CONTROL : HeaderName := "cache-control".toList
def X_CONTENT_TYPE_OPTIONS : HeaderName := "x-content-type-options".toList
def ALLOW : HeaderName := "allow".toList
def COOP : HeaderName := "cross-origin-opener-policy".toList
def REFERRER_POLICY : HeaderName := "referrer-policy".toList
def RETRY_AFTER_NAME : HeaderName := "retry-after".toList

/-- `fields` written over `headers`, each replacing the values of its name. -/
def HeaderMap.extend (headers : HeaderMap) (fields : List (HeaderName × HeaderValue)) :
    HeaderMap :=
  fields.foldl (fun headers field => headers.insert field.1 field.2) headers

/-- The last value written of a name is its one value. -/
theorem HeaderMap.getAll_extend (headers : HeaderMap)
    (fields : List (HeaderName × HeaderValue)) (name : HeaderName) :
    (headers.extend fields).getAll name =
      match (fields.filter fun field => field.1 = name).getLast? with
      | some field => [field.2]
      | none => headers.getAll name := by
  induction fields using List.reverseRecOn with
  | nil => rfl
  | append_singleton fields field ih =>
      have last : headers.extend (fields ++ [field]) =
          (headers.extend fields).insert field.1 field.2 := by
        simp [extend]
      rw [last, getAll_insert, ih, List.filter_append]
      split_ifs with same
      · simp [same]
      · simp [same]

/-- A body of bytes with the content type it brings, under `fields`. -/
def respond (status : StatusCode) (contentType : Text)
    (fields : List (HeaderName × HeaderValue)) (body : Bytes) : Response where
  status := status
  headers := HeaderMap.extend [(CONTENT_TYPE, Text.bytes contentType)] fields
  body := body

/-- `Cache-Control: no-store` and `X-Content-Type-Options: nosniff`, put on
every response. -/
def standingHeaders (response : Response) : Response :=
  { response with
    headers := response.headers.extend
      [(CACHE_CONTROL, Text.bytes "no-store".toList),
        (X_CONTENT_TYPE_OPTIONS, Text.bytes "nosniff".toList)] }

theorem getAll_standingHeaders (response : Response) {name : HeaderName}
    (other : name ≠ CACHE_CONTROL ∧ name ≠ X_CONTENT_TYPE_OPTIONS) :
    (standingHeaders response).headers.getAll name = response.headers.getAll name := by
  simp only [standingHeaders, HeaderMap.getAll_extend, List.filter_cons, other.1.symm,
    other.2.symm, decide_false, Bool.false_eq_true, if_false, List.filter_nil,
    List.getLast?_nil]

def carriesBody (body : Body) : Bool :=
  !body.isEndStream

inductive Origins
  | absent
  | one (origin : HeaderValue)
  | several

def Origins.of (headers : HeaderMap) : Origins :=
  match headers.getAll ORIGIN with
  | [] => .absent
  | [origin] => .one origin
  | _ :: _ :: _ => .several

/-- How a request is admitted to read the configuration: from one `Origin` a
member of the admission set admits, or with none as a same-origin read. -/
inductive Admission
  | listed (origin : HeaderValue)
  | sameOrigin
  deriving DecidableEq

variable (crates : Crates)

/-- How this request may read the configuration, or `none`. -/
def admission (state : AppState) (headers : HeaderMap) : Option Admission :=
  match Origins.of headers with
  | .one origin =>
      match (crates.headerToStr origin).bind (Observed.stamped crates) with
      | none => none
      | some observed =>
          if state.allowedOrigins.any (·.admits observed) then some (.listed origin) else none
  | .several => none
  | .absent =>
      match headers.getAll SEC_FETCH_SITE with
      | [site] => if site = Text.bytes "same-origin".toList then some .sameOrigin else none
      | _ => none

def VARY_ON : Text :=
  "origin, sec-fetch-site".toList

def PREFLIGHT_VARY_ON : Text :=
  "origin, access-control-request-headers".toList

def PREFLIGHT_MAX_AGE : Text :=
  "600".toList

/-- A refusal carries no configuration; `admitted` is the origin the request
was admitted from, where it was. -/
def refuse (status : StatusCode) (message : Text) (admitted : Option HeaderValue) : Response :=
  respond status "application/json".toList
    ((VARY, Text.bytes VARY_ON) ::
      admitted.toList.map fun origin => (ACCESS_CONTROL_ALLOW_ORIGIN, origin))
    (crates.jsonToVec (.obj [("message".toList, .str message)]))

def forbidden : Response :=
  refuse crates FORBIDDEN
    "this configuration is readable only from an admitted origin".toList none

/-- The answer to an admitted preflight; the headers a caller wants to send
are granted as asked. -/
def granted (origin : HeaderValue) (asked : Option HeaderValue) : Response where
  status := NO_CONTENT
  headers := HeaderMap.extend []
    ([(VARY, Text.bytes PREFLIGHT_VARY_ON),
      (ACCESS_CONTROL_ALLOW_ORIGIN, origin),
      (ACCESS_CONTROL_ALLOW_METHODS, Text.bytes "GET".toList),
      (ACCESS_CONTROL_MAX_AGE, Text.bytes PREFLIGHT_MAX_AGE)] ++
      asked.toList.map fun asked => (ACCESS_CONTROL_ALLOW_HEADERS, asked))
  body := []

def preflight (state : AppState) (headers : HeaderMap) : Response :=
  match admission crates state headers with
  | some (.listed origin) => granted origin (headers.get ACCESS_CONTROL_REQUEST_HEADERS)
  | some .sameOrigin | none => forbidden crates

def malformed (query : Option Text) (body : Body) : Option Text :=
  if query.any fun text => !text.isEmpty then some "this route takes no query".toList
  else if carriesBody body then some "this route takes no request body".toList
  else none

def Admission.origin : Admission → Option HeaderValue
  | .listed origin => some origin
  | .sameOrigin => none

/-- The record, given to a request admitted from `admitted`. -/
def record (state : AppState) (admitted : Option HeaderValue) : Response :=
  respond OK "application/octet-stream".toList
    ([(VARY, Text.bytes VARY_ON), (CONTENT_TYPE, Text.bytes "application/json".toList)] ++
      admitted.toList.map fun origin => (ACCESS_CONTROL_ALLOW_ORIGIN, origin))
    state.ceremonyConfig

/-- `GET` on the configuration route. -/
def config (state : AppState) (query : Option Text) (headers : HeaderMap) (body : Body) :
    Response :=
  -- Admission is decided before anything else is looked at.
  match admission crates state headers with
  | none => forbidden crates
  | some admitted =>
      match malformed query body with
      | some message => refuse crates BAD_REQUEST message admitted.origin
      | none => record state admitted.origin

/-- `text` with every `letter` written as `entity`. -/
def replaceLetter (letter : Char) (entity : Text) (text : Text) : Text :=
  text.flatMap fun other => if other = letter then entity else [other]

/-- `text` with the three characters a parser reads as markup written as
entities. -/
def escaped (text : Text) : Text :=
  replaceLetter '>' "&gt;".toList
    (replaceLetter '<' "&lt;".toList (replaceLetter '&' "&amp;".toList text))

def noDocument (why : Option Text) : Text :=
  let detail := (why.map escaped).getD
    "The ceremony documents have not been retrieved yet.".toList
  "<!doctype html><html lang=\"en\"><meta charset=\"utf-8\">".toList ++
    "<meta name=\"viewport\" content=\"width=device-width,initial-scale=1\">".toList ++
    "<title>libID</title><body><main><p>libID cannot complete this sign-in ".toList ++
    "right now. Return to the application and start again.</p>".toList ++
    "<p>".toList ++ detail ++ "</p></main></body></html>".toList

def NO_DOCUMENT_POLICY : Text :=
  "default-src 'none'; style-src 'unsafe-inline'".toList

def RETRY_AFTER : Text :=
  "5".toList

def unavailable (why : Option Text) : Response :=
  respond SERVICE_UNAVAILABLE "text/plain; charset=utf-8".toList
    [(COOP, Text.bytes "unsafe-none".toList),
      (CONTENT_TYPE, Text.bytes "text/html; charset=utf-8".toList),
      (REFERRER_POLICY, Text.bytes "no-referrer".toList),
      (RETRY_AFTER_NAME, Text.bytes RETRY_AFTER),
      (CONTENT_SECURITY_POLICY, Text.bytes NO_DOCUMENT_POLICY)]
    (Text.bytes (noDocument why))

def serving (published : Published) : Response :=
  respond OK "application/octet-stream".toList
    [(COOP, Text.bytes "unsafe-none".toList),
      (CONTENT_TYPE, Text.bytes "text/html; charset=utf-8".toList),
      (REFERRER_POLICY, Text.bytes "no-referrer".toList),
      (CONTENT_SECURITY_POLICY, published.document.csp)]
    published.document.body

/-- `GET` on the callback route: what it counts, and what it answers. -/
def callback (state : AppState) (body : Body) : AppState × Response :=
  if carriesBody body then (state, ⟨BAD_REQUEST, [], []⟩)
  else
    match state.callback with
    | none =>
        ({ state with metrics := state.metrics.callbackUnavailable }, unavailable state.failure)
    | some published =>
        ({ state with metrics := state.metrics.callbackServed }, serving published)

def refusingOtherMethods (allow : Text) : Response :=
  ⟨METHOD_NOT_ALLOWED, [(ALLOW, Text.bytes allow)], []⟩

/-- The ceremony routes, before what stands on every response. -/
def routed (state : AppState) (call : Call) : AppState × Response :=
  match call.path, call.method with
  | .config, .get => (state, config crates state call.query call.headers call.body)
  | .config, .options => (state, preflight crates state call.headers)
  | .config, _ => (state, refusingOtherMethods "GET, OPTIONS".toList)
  | .callback, .get => callback state call.body
  | .callback, _ => (state, refusingOtherMethods "GET".toList)

/-- What this service answers a request to a ceremony route. -/
def answered (state : AppState) (call : Call) : AppState × Response :=
  let (state, response) := routed crates state call
  (state, standingHeaders response)

end LibidBridge
