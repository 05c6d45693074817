import LibidBridge.ResponseFields
import LibidBridge.Routes

/-!
# Reading across origins

How a browser lets a script of one origin read a resource of another.  Where
the script sets fields of its own, the server is asked ahead whether it takes
them; the answer, and then the answer to the request itself, must name the
script's origin; and with credentials both must allow them.  The server is any
function of a request here.
-/

namespace LibidBridge

/-- A request to the resource: its method and its fields. -/
structure CrossRequest where
  method : Text
  headers : HeaderMap

def ACCESS_CONTROL_REQUEST_METHOD : HeaderName :=
  "access-control-request-method".toList

/-- The names a field value lists. -/
def fieldNames (value : HeaderValue) : List Text :=
  ((isomorphicDecode value).splitOn ',').flatMap (tokens isAsciiWhitespace)

/-- A name that a list of names can hold. -/
structure IsFieldName (name : Text) : Prop where
  token : IsToken isAsciiWhitespace name
  single : ',' ∉ name
  ascii : ∀ letter ∈ name, letter.toNat < 0x80

/-- A read a script makes: the origin of its page, the fields it sets beyond
those that any request may carry, those the browser adds, and whether
credentials are sent.  Neither the script nor the rest of the browser writes
the fields the protocol itself relies on. -/
structure CrossRead where
  origin : Text
  authored : HeaderMap
  added : HeaderMap
  credentials : Bool
  readable : ∀ letter ∈ origin, IsReadable letter
  named : ∀ field ∈ authored, IsFieldName field.1
  reserved : ∀ field ∈ authored ++ added, field.1 ≠ ORIGIN ∧
    field.1 ≠ ACCESS_CONTROL_REQUEST_METHOD ∧ field.1 ≠ ACCESS_CONTROL_REQUEST_HEADERS

namespace CrossRead

def names (read : CrossRead) : List Text :=
  read.authored.map Prod.fst

def asked (read : CrossRead) : HeaderValue :=
  Text.bytes ([','].intercalate read.names)

/-- What the server is asked ahead. -/
def preflight (read : CrossRead) : CrossRequest where
  method := "OPTIONS".toList
  headers := read.added ++ [(ORIGIN, Text.bytes read.origin),
    (ACCESS_CONTROL_REQUEST_METHOD, Text.bytes "GET".toList),
    (ACCESS_CONTROL_REQUEST_HEADERS, read.asked)]

def request (read : CrossRead) : CrossRequest where
  method := "GET".toList
  headers := read.added ++ read.authored ++ [(ORIGIN, Text.bytes read.origin)]

/-- Whether a response lets the origin read it. -/
def allows (read : CrossRead) (response : Response) : Bool :=
  match response.headers.get ACCESS_CONTROL_ALLOW_ORIGIN with
  | none => false
  | some allowed =>
      if read.credentials then
        allowed = Text.bytes read.origin &&
          response.headers.get ACCESS_CONTROL_ALLOW_CREDENTIALS = some (Text.bytes "true".toList)
      else allowed = Text.bytes "*".toList || allowed = Text.bytes read.origin

/-- Whether the answer to what was asked ahead lets the request be made.  `GET`
needs no leave. -/
def passes (read : CrossRead) (response : Response) : Bool :=
  read.allows response && (200 ≤ response.status && response.status < 300) &&
    match response.headers.get ACCESS_CONTROL_ALLOW_HEADERS with
    | none => read.names.isEmpty
    | some allowed =>
        read.names.all fun name => (fieldNames allowed).contains name ||
          (!read.credentials && (fieldNames allowed).contains "*".toList)

/-- What the script is given, where it is given anything. -/
def outcome (read : CrossRead) (server : CrossRequest → Response) : Option Response :=
  if read.authored.isEmpty || read.passes (server read.preflight) then
    if read.allows (server read.request) then some (server read.request) else none
  else none

end CrossRead

theorem fieldNames_join {names : List Text} (valid : ∀ name ∈ names, IsFieldName name)
    (nonempty : names ≠ []) :
    fieldNames (Text.bytes ([','].intercalate names)) = names := by
  have ascii : ∀ letter ∈ [','].intercalate names, letter.toNat < 0x80 := by
    intro letter member
    rcases mem_intercalate member with comma | ⟨name, inNames, inName⟩
    · rw [List.mem_singleton.mp comma]
      decide
    · exact (valid name inNames).ascii letter inName
  have split : ([','].intercalate names).splitOn ',' = names :=
    List.splitOn_intercalate ',' (fun name member => (valid name member).single) nonempty
  rw [fieldNames, isomorphicDecode_bytes ascii, split]
  clear split ascii nonempty
  induction names with
  | nil => rfl
  | cons name names ih =>
      rw [List.flatMap_cons, tokens_of_isToken (valid name (by simp)).token,
        ih fun other member => valid other (by simp [member])]
      rfl

theorem HeaderMap.getAll_append_of_absent {first : HeaderMap} {name : HeaderName}
    (absent : ∀ field ∈ first, field.1 ≠ name) (second : HeaderMap) :
    (first ++ second).getAll name = second.getAll name := by
  have none : (first.filter fun field => field.1 = name) = [] :=
    List.filter_eq_nil_iff.mpr fun field member same =>
      absent field member (of_decide_eq_true same)
  rw [getAll, getAll, List.filter_append, none, List.nil_append]

namespace CrossRead

variable {read : CrossRead} {server : CrossRequest → Response}

theorem getAll_origin_request :
    read.request.headers.getAll ORIGIN = [Text.bytes read.origin] := by
  have absent : ∀ field ∈ read.added ++ read.authored, field.1 ≠ ORIGIN :=
    fun field member => (read.reserved field (by simpa [or_comm] using member)).1
  exact HeaderMap.getAll_append_of_absent absent _

theorem getAll_origin_preflight :
    read.preflight.headers.getAll ORIGIN = [Text.bytes read.origin] := by
  have absent : ∀ field ∈ read.added, field.1 ≠ ORIGIN :=
    fun field member => (read.reserved field (List.mem_append_right _ member)).1
  exact HeaderMap.getAll_append_of_absent absent _

theorem get_asked_preflight :
    read.preflight.headers.get ACCESS_CONTROL_REQUEST_HEADERS = some read.asked := by
  have absent : ∀ field ∈ read.added, field.1 ≠ ACCESS_CONTROL_REQUEST_HEADERS :=
    fun field member => (read.reserved field (List.mem_append_right _ member)).2.2
  have all : read.preflight.headers.getAll ACCESS_CONTROL_REQUEST_HEADERS = [read.asked] :=
    HeaderMap.getAll_append_of_absent absent _
  rw [HeaderMap.get, all]
  rfl

/-- A script is given only what names its origin, or every origin where it sends
no credentials. -/
theorem allows_of_outcome {response : Response} (given : read.outcome server = some response) :
    response = server read.request ∧ read.allows response = true := by
  unfold outcome at given
  split_ifs at given with asked allowed
  cases given
  exact ⟨rfl, allowed⟩

theorem credentials_eq_false_of_allows {response : Response}
    (none : response.headers.get ACCESS_CONTROL_ALLOW_CREDENTIALS = none)
    (allowed : read.allows response = true) : read.credentials = false := by
  unfold allows at allowed
  split at allowed
  · cases allowed
  · split_ifs at allowed with credentials
    · simp [none] at allowed
    · exact Bool.eq_false_of_not_eq_true credentials

theorem allows_of_named {response : Response} (plain : read.credentials = false)
    (named : response.headers.get ACCESS_CONTROL_ALLOW_ORIGIN =
      some (Text.bytes read.origin)) : read.allows response = true := by
  simp [allows, named, plain]

/-- A server that grants an origin what it asked lets it make any request. -/
theorem passes_of_granted {response : Response} (plain : read.credentials = false)
    (success : 200 ≤ response.status ∧ response.status < 300)
    (named : response.headers.get ACCESS_CONTROL_ALLOW_ORIGIN =
      some (Text.bytes read.origin))
    (granted : response.headers.get ACCESS_CONTROL_ALLOW_HEADERS = some read.asked) :
    read.passes response = true := by
  have valid : ∀ name ∈ read.names, IsFieldName name := by
    intro name member
    obtain ⟨field, inAuthored, rfl⟩ := List.mem_map.mp member
    exact read.named field inAuthored
  have each : read.names.all (fun name => (fieldNames read.asked).contains name ||
      (!read.credentials && (fieldNames read.asked).contains "*".toList)) = true := by
    rw [List.all_eq_true]
    intro name member
    have listed : (fieldNames read.asked).contains name = true := by
      rw [asked, fieldNames_join valid (List.ne_nil_of_mem member)]
      exact List.contains_iff_mem.mpr member
    exact Bool.or_eq_true_iff.mpr (Or.inl listed)
  simp only [passes, allows_of_named plain named, granted, each, success.1, success.2,
    decide_true, Bool.and_self]

end CrossRead

end LibidBridge
