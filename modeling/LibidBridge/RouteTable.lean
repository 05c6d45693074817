import LibidBridge.ConfigAdmission
import LibidBridge.Scrapes

/-!
# The whole route table

Every request this service is sent, whatever its path and method: the ceremony
routes beside the liveness probe and the metrics, and the answer to what is not
served.  What axum does around the handlers is a parameter, with what its
documentation says of it as laws.
-/

namespace LibidBridge

/-- A request as it arrives, its method and its path as they are spelled. -/
structure Inbound where
  method : Text
  path : Text
  query : Option Text
  headers : HeaderMap
  body : Body

def Method.ofToken (token : Text) : Method :=
  if token = "GET".toList then .get
  else if token = "HEAD".toList then .head
  else if token = "OPTIONS".toList then .options
  else .other token

/-- What is served. -/
inductive Route
  | health
  | metrics
  | ceremony (path : CeremonyPath)
  deriving DecidableEq

def HEALTH_PATH : Text :=
  "/health".toList

def METRICS_PATH : Text :=
  "/metrics".toList

def CALLBACK_PATH : Text :=
  CeremonyPath.callback.toText

def CONFIG_PATH : Text :=
  CeremonyPath.config.toText

def Route.path : Route → Text
  | .health => HEALTH_PATH
  | .metrics => METRICS_PATH
  | .ceremony path => path.toText

/-- The route a path is served by; a path is matched whole. -/
def Route.ofPath (path : Text) : Option Route :=
  [.health, .metrics, .ceremony .config, .ceremony .callback].find? fun route =>
    route.path = path

def NOT_FOUND : StatusCode := 404

def health : Response :=
  respond OK "text/plain; charset=utf-8".toList [] (Text.bytes "OK".toList)

/-- Every path this service does not serve. -/
def unrouted : Response :=
  respond NOT_FOUND "text/plain; charset=utf-8".toList [] []

def CONTENT_LENGTH : HeaderName := "content-length".toList

/-- What axum does around the handlers: what a route of `get` alone answers a
method with, given what its handler answers, and what the router makes of a
response it sends, which is where the answer to `HEAD` loses its body. -/
structure Axum where
  get : Response → Method → Response
  send : Method → Response → Response

/-- A route of `get` runs its handler for `GET` and for `HEAD`, and refuses every
other method naming these two.  A response is sent with the fields it has, in
some order, and at most its length besides. -/
structure AxumLaws (axum : Axum) : Prop where
  get_get : ∀ handler, axum.get handler .get = handler
  get_head : ∀ handler, axum.get handler .head = handler
  get_other : ∀ handler method, method ≠ .get → method ≠ .head →
    axum.get handler method = refusingOtherMethods "GET,HEAD".toList
  send_headers : ∀ method response, CONTENT_LENGTH ∉ response.headers.map Prod.fst →
    ∃ length : Option Nat, List.Perm (axum.send method response).headers
      (response.headers ++ length.toList.map fun count =>
        (CONTENT_LENGTH, Text.bytes (Nat.toDigits 10 count)))

section

variable (crates : Crates) (axum : Axum) (encode : List (Text × Text × Family) → Text)

/-- Every metric in the text exposition format, which the registry is written
in by `encode`. -/
def Metrics.rendered (metrics : Metrics) : Text :=
  encode (registry.map fun registered =>
    (registered.name, registered.help, registered.series metrics))

/-- What this deployment counts. -/
def AppState.metricsPage (state : AppState) : Response :=
  respond OK "text/plain; charset=utf-8".toList
    [(CONTENT_TYPE,
      Text.bytes "application/openmetrics-text; version=1.0.0; charset=utf-8".toList)]
    (Text.bytes (state.metrics.rendered encode))

/-- The route table, before what stands on every response. -/
def buildRouter (state : AppState) (inbound : Inbound) : AppState × Response :=
  let method := Method.ofToken inbound.method
  match Route.ofPath inbound.path with
  | none => (state, unrouted)
  | some .health => (state, axum.get health method)
  | some .metrics => (state, axum.get (state.metricsPage encode) method)
  | some (.ceremony path) =>
      routed crates state ⟨method, path, inbound.query, inbound.headers, inbound.body⟩

/-- What this service answers a request. -/
def AppState.answer (state : AppState) (inbound : Inbound) : AppState × Response :=
  let (state, response) := buildRouter crates axum encode state inbound
  (state, axum.send (Method.ofToken inbound.method) (standingHeaders response))

end

theorem Route.ofPath_eq_some_iff {path : Text} {route : Route} :
    Route.ofPath path = some route ↔ route.path = path := by
  constructor
  · intro found
    have same := @List.find?_some _ (fun route : Route => decide (route.path = path)) _ _ found
    exact of_decide_eq_true same
  · rintro rfl
    rcases route with _ | _ | _ | _ <;> decide +kernel

theorem Method.ofToken_of_get {token : Text} (get : token = "GET".toList) :
    ofToken token = .get := by
  rw [get]
  rfl

theorem Method.ofToken_of_options {token : Text} (options : token = "OPTIONS".toList) :
    ofToken token = .options := by
  rw [options]
  rfl

theorem Method.ofToken_cases (token : Text) :
    (token = "GET".toList ∧ ofToken token = .get) ∨
    (token = "HEAD".toList ∧ ofToken token = .head) ∨
    (token = "OPTIONS".toList ∧ ofToken token = .options) ∨
    (token ≠ "GET".toList ∧ token ≠ "HEAD".toList ∧ token ≠ "OPTIONS".toList ∧
      ofToken token = .other token) := by
  unfold ofToken
  split_ifs with get head options
  · exact Or.inl ⟨get, rfl⟩
  · exact Or.inr (Or.inl ⟨head, rfl⟩)
  · exact Or.inr (Or.inr (Or.inl ⟨options, rfl⟩))
  · exact Or.inr (Or.inr (Or.inr ⟨get, head, options, rfl⟩))

namespace Reference

def axum : Axum where
  get handler method :=
    if method = .get ∨ method = .head then handler
    else refusingOtherMethods "GET,HEAD".toList
  send method response :=
    { response with
      headers := response.headers ++
        [(CONTENT_LENGTH, Text.bytes (Nat.toDigits 10 response.body.length))]
      body := if method = .head then [] else response.body }

theorem axumLaws : AxumLaws axum where
  get_get _ := rfl
  get_head _ := rfl
  get_other _ _ get head := if_neg (not_or.mpr ⟨get, head⟩)
  send_headers _ response _ := ⟨some response.body.length, List.Perm.refl _⟩

end Reference

end LibidBridge
