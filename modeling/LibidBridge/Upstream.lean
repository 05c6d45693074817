import LibidBridge.CallbackDocument

/-!
# Retrieving the artifact

One conditional `GET` of the artifact: the request, what the Distribution may
answer it with, every refusal of an answer, and the document composed from one
that is accepted.
-/

namespace LibidBridge

def ACCEPT : HeaderName := "accept".toList
def ACCEPT_ENCODING : HeaderName := "accept-encoding".toList
def USER_AGENT : HeaderName := "user-agent".toList
def IF_NONE_MATCH : HeaderName := "if-none-match".toList
def CONTENT_TYPE : HeaderName := "content-type".toList
def CONTENT_ENCODING : HeaderName := "content-encoding".toList
def ETAG : HeaderName := "etag".toList
def CONTENT_SECURITY_POLICY : HeaderName := "content-security-policy".toList

def OK : StatusCode := 200

def NOT_MODIFIED : StatusCode := 304

def ARTIFACT_PATH : Text :=
  "/ccdp/callback.html".toList

/-- Why a retrieval did not produce a document. -/
inductive FetchError
  | unreachable (why : Text)
  | redirect (status : StatusCode)
  | status (status : StatusCode)
  | media (media : Text)
  | encoded (encoding : Text)
  | unaskedNotModified
  | tooLarge
  | notUtf8
  | artifact (error : ArtifactError)
  deriving DecidableEq

def ArtifactError.toText : ArtifactError → Text
  | .markers count => "the document carries ".toList ++ Nat.toDigits 10 count ++
      " configuration markers, and must carry one".toList
  | .upstreamPolicy why => "the artifact's own policy ".toList ++ why
  | .policy why => "the composed policy is not a header value: ".toList ++ why

namespace FetchError

variable (crates : Crates)

def toText : FetchError → Text
  | .unreachable why => why
  | .redirect code => "answered ".toList ++ crates.statusText code ++
      ", a redirect this bridge does not follow".toList
  | .status code => "answered ".toList ++ crates.statusText code
  | .media named => "answered ".toList ++ crates.debug named ++
      ", and the artifact is text/html".toList
  | .encoded encoding => "answered Content-Encoding ".toList ++ crates.debug encoding ++
      ", and the request admitted only identity".toList
  | .unaskedNotModified =>
      "answered 304 Not Modified to a request carrying no If-None-Match".toList
  | .tooLarge => "the body is over the ".toList ++ Nat.toDigits 10 MAX_ARTIFACT_BYTES ++
      "-byte bound".toList
  | .notUtf8 => "the body is not UTF-8".toList
  | .artifact error => error.toText

/-- The failure of an error and the chain of sources under it: the texts not
already contained are appended. -/
def fromSource (error : Text) (sources : List Text) : FetchError :=
  .unreachable (sources.foldl
    (fun why text => if text <:+: why then why else why ++ ": ".toList ++ text) error)

/-- The short name this failure is counted under. -/
def kind : FetchError → Text
  | .unreachable _ => "unreachable".toList
  | .redirect _ => "redirect".toList
  | .status _ => "status".toList
  | .media _ => "media".toList
  | .encoded _ => "encoded".toList
  | .unaskedNotModified => "unasked-not-modified".toList
  | .tooLarge => "too-large".toList
  | .notUtf8 => "not-utf8".toList
  | .artifact _ => "artifact".toList

end FetchError

structure Arrival where
  status : StatusCode
  headers : HeaderMap
  body : Incoming

/-- What sending the request came to: a response, or an error with the chain
of its sources. -/
inductive Reply
  | response (arrival : Arrival)
  | error (error : Text) (sources : List Text)

/-- What a retrieval meets: a reply within its budget, or none. -/
abbrev Answer := Option Reply

/-- What a conditional `GET` produced: a `304`, or a body, the script hashes its
own policy named and the validator to revalidate it with. -/
inductive Fetched
  | unchanged
  | fresh (html : Text) (hashes : List Text) (etag : Option Text)

def toAsciiLowercase (byte : UInt8) : UInt8 :=
  if 0x41 ≤ byte ∧ byte ≤ 0x5A then byte + 0x20 else byte

def isHtml (media : Text) : Bool :=
  let html := Text.bytes "text/html".toList
  let named := Text.bytes (Text.trimStart media)
  html.length ≤ named.length &&
    (named.take html.length).map toAsciiLowercase == html.map toAsciiLowercase &&
    -- Nothing after the name, or `;`, a space or a tab.
    (named[html.length]?).all fun byte => byte == 0x3B || byte == 0x20 || byte == 0x09

variable (crates : Crates)

namespace Fetched

/-- The first value of a field, where it is readable. -/
def header (headers : HeaderMap) (name : HeaderName) : Option Text :=
  (headers.get name).bind crates.headerToStr

def of (arrival : Arrival) : Except FetchError Fetched :=
  let media := (header crates arrival.headers CONTENT_TYPE).getD []
  if isHtml media = false then .error (.media media)
  else
    -- The request admitted `identity` alone; an encoded body is refused.
    match (header crates arrival.headers CONTENT_ENCODING).filter fun encoding =>
        !Text.eqIgnoreAsciiCase (Text.trim encoding) "identity".toList with
    | some encoding => .error (.encoded encoding)
    | none =>
        let etag := header crates arrival.headers ETAG
        match scriptHashes ((header crates arrival.headers CONTENT_SECURITY_POLICY).getD []) with
        | .error refusal => .error (.artifact refusal)
        | .ok hashes =>
            match crates.collect MAX_ARTIFACT_BYTES arrival.body with
            | .error .lengthLimit => .error .tooLarge
            | .error (.other detail) =>
                .error (.unreachable ("reading the body: ".toList ++ detail))
            | .ok body =>
                match Text.fromUtf8 body with
                | none => .error .notUtf8
                | some html => .ok (.fresh html hashes etag)

end Fetched

structure Request where
  uri : Text
  headers : HeaderMap
  deriving DecidableEq

/-- The Distribution this deployment retrieves its artifact from. -/
structure Upstream where
  origin : Origin
  uri : Text

namespace Upstream

def new (origin : Origin) : Except Error Upstream :=
  match crates.uriParse (origin.asStr ++ ARTIFACT_PATH) with
  | .error detail =>
      .error (.config ("CCDP_ORIGIN ".toList ++ origin.asStr ++
        " names a host no HTTP request can carry: ".toList ++ detail))
  | .ok uri => .ok ⟨origin, uri⟩

theorem origin_of_new {crates : Crates} {origin : Origin} {upstream : Upstream}
    (created : new crates origin = .ok upstream) : upstream.origin = origin := by
  unfold new at created
  split at created
  · cases created
  · cases created
    rfl

def url (upstream : Upstream) : Text :=
  upstream.uri

/-- The request, or `none` where a field is not a header value and building it
panics. -/
def request (upstream : Upstream) (etag : Option Text) : Option Request :=
  match crates.headerFromStr "text/html".toList, crates.headerFromStr "identity".toList,
    crates.headerFromStr "libid-bridge/0.5.0".toList with
  | .ok accept, .ok identity, .ok agent =>
      let headers := [(ACCEPT, accept), (ACCEPT_ENCODING, identity), (USER_AGENT, agent)]
      match etag with
      | none => some ⟨upstream.uri, headers⟩
      | some etag =>
          match crates.headerFromStr etag with
          | .ok value => some ⟨upstream.uri, headers ++ [(IF_NONE_MATCH, value)]⟩
          | .error _ => none
  | _, _, _ => none

/-- Send the request and read the answer; `none` where building it panics. -/
def exchange (upstream : Upstream) (etag : Option Text) (reply : Reply) :
    Option (Except FetchError Fetched) :=
  (upstream.request crates etag).map fun _ =>
    match reply with
    | .error error sources => .error (FetchError.fromSource error sources)
    | .response arrival =>
        -- A `304` is refused unless the request carried a validator.
        if arrival.status = NOT_MODIFIED then
          if etag.isSome then .ok .unchanged else .error .unaskedNotModified
        else if arrival.status = OK then Fetched.of crates arrival
        else if crates.isRedirection arrival.status then .error (.redirect arrival.status)
        else .error (.status arrival.status)

/-- One conditional `GET`, under one budget. -/
def fetch (upstream : Upstream) (etag : Option Text) (answer : Answer) :
    Option (Except FetchError Fetched) :=
  match answer with
  | some reply => upstream.exchange crates etag reply
  | none =>
      (upstream.request crates etag).map fun _ =>
        .error (.unreachable "the retrieval timed out".toList)

/-- Retrieve the artifact and compose what would be served from it; `ok none`
is a `304`. -/
def retrieve (upstream : Upstream) (allowedOrigins : List Admitted) (etag : Option Text)
    (answer : Answer) : Option (Except FetchError (Option Published)) :=
  (upstream.fetch crates etag answer).map fun
    | .error error => .error error
    | .ok .unchanged => .ok none
    | .ok (.fresh html hashes etag) =>
        match CallbackDocument.compose crates html hashes ⟨upstream.origin, allowedOrigins⟩ with
        | .error refusal => .error (.artifact refusal)
        | .ok document => .ok (some ⟨document, etag⟩)

end Upstream

end LibidBridge
