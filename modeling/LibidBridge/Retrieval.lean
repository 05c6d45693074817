import LibidBridge.Refresher

/-!
# What a retrieval accepts

An answer either offers a document or it does not, whatever validator was
sent: the artifact, the script hashes and the validator an accepted response
carries.  A retrieval gives a document exactly where the answer offers one, and
the document is the one composed from that offer alone.
-/

namespace LibidBridge

variable {crates : Crates}

/-- What an accepted response carries. -/
structure Offer where
  html : Text
  hashes : List Text
  etag : Option Text
  deriving DecidableEq

/-- A response is the artifact: HTML, not encoded, under a policy of script
hashes, within the bound, text, and with its one marker. -/
structure Arrival.Offers (crates : Crates) (arrival : Arrival) (offer : Offer) : Prop where
  status : arrival.status = OK
  media : isHtml ((Fetched.header crates arrival.headers CONTENT_TYPE).getD []) = true
  encoding : ∀ encoding, Fetched.header crates arrival.headers CONTENT_ENCODING =
    some encoding → Text.eqIgnoreAsciiCase (Text.trim encoding) "identity".toList = true
  etag : offer.etag = Fetched.header crates arrival.headers ETAG
  hashes : scriptHashes
    ((Fetched.header crates arrival.headers CONTENT_SECURITY_POLICY).getD []) = .ok offer.hashes
  body : ∃ body, crates.collect MAX_ARTIFACT_BYTES arrival.body = .ok body ∧
    Text.fromUtf8 body = some offer.html
  marker : Matches.count MARKER offer.html = 1

theorem Fetched.of_eq_ok_iff {arrival : Arrival} {fetched : Fetched} :
    Fetched.of crates arrival = .ok fetched ↔
      ∃ html hashes, fetched = .fresh html hashes (Fetched.header crates arrival.headers ETAG) ∧
        isHtml ((Fetched.header crates arrival.headers CONTENT_TYPE).getD []) = true ∧
        (∀ encoding, Fetched.header crates arrival.headers CONTENT_ENCODING = some encoding →
          Text.eqIgnoreAsciiCase (Text.trim encoding) "identity".toList = true) ∧
        scriptHashes ((Fetched.header crates arrival.headers CONTENT_SECURITY_POLICY).getD []) =
          .ok hashes ∧
        ∃ body, crates.collect MAX_ARTIFACT_BYTES arrival.body = .ok body ∧
          Text.fromUtf8 body = some html := by
  have identity : ((Fetched.header crates arrival.headers CONTENT_ENCODING).filter
      fun encoding => !Text.eqIgnoreAsciiCase (Text.trim encoding) "identity".toList) = none ↔
        ∀ encoding, Fetched.header crates arrival.headers CONTENT_ENCODING = some encoding →
          Text.eqIgnoreAsciiCase (Text.trim encoding) "identity".toList = true := by
    simp [Option.filter_eq_none_iff]
  unfold Fetched.of
  dsimp only
  constructor
  · intro accepted
    split_ifs at accepted with media
    split at accepted
    · cases accepted
    · next unencoded =>
        split at accepted
        · cases accepted
        · next hashes named =>
            split at accepted
            · cases accepted
            · cases accepted
            · next body collected =>
                split at accepted
                · cases accepted
                · next html decoded =>
                    exact ⟨html, hashes, (Except.ok.inj accepted).symm, by simpa using media,
                      identity.mp unencoded, named, body, collected, decoded⟩
  · rintro ⟨html, hashes, rfl, media, encoding, named, body, collected, decoded⟩
    rw [if_neg (by simp [media]), identity.mpr encoding]
    simp only [named, collected, decoded]

/-- What an answer offers. -/
def offered (crates : Crates) : Answer → Option Offer
  | some (.response arrival) =>
      if arrival.status = OK then
        match Fetched.of crates arrival with
        | .ok (.fresh html hashes etag) =>
            if Matches.count MARKER html = 1 then some ⟨html, hashes, etag⟩ else none
        | _ => none
      else none
  | _ => none

theorem offered_eq_some_iff {answer : Answer} {offer : Offer} :
    offered crates answer = some offer ↔
      ∃ arrival, answer = some (.response arrival) ∧ arrival.Offers crates offer := by
  constructor
  · intro found
    unfold offered at found
    split at found
    · next arrival =>
        split_ifs at found with status
        split at found
        · next html hashes etag read =>
            split_ifs at found with marker
            cases found
            obtain ⟨_, _, same, media, encoding, named, body⟩ := Fetched.of_eq_ok_iff.mp read
            cases same
            exact ⟨arrival, rfl, ⟨status, media, encoding, rfl, named, body, marker⟩⟩
        · cases found
    · cases found
  · rintro ⟨arrival, rfl, offers⟩
    have read := Fetched.of_eq_ok_iff.mpr
      ⟨offer.html, offer.hashes, rfl, offers.media, offers.encoding, offers.hashes, offers.body⟩
    simp only [offered, offers.status, read, offers.marker, if_true, ← offers.etag]

theorem offered_of_notModified {arrival : Arrival} (status : arrival.status = NOT_MODIFIED) :
    offered crates (some (.response arrival)) = none := by
  have distinct : NOT_MODIFIED ≠ OK := by decide
  simp only [offered, status, distinct, if_false]

namespace Offer

/-- The document an offer is composed into, and its validator. -/
def published (crates : Crates) (inputs : DeploymentInputs) (offer : Offer) : Published where
  document :=
    { body := Text.bytes
        (Matches.replace MARKER (json crates inputs.record) offer.html)
      csp := Text.bytes (policy offer.hashes) }
  etag := offer.etag

theorem hashes_valid {answer : Answer} {offer : Offer}
    (found : offered crates answer = some offer) :
    offer.hashes ≠ [] ∧ ∀ source ∈ offer.hashes, isHash source = true := by
  obtain ⟨arrival, rfl, offers⟩ := offered_eq_some_iff.mp found
  exact hashes_of_scriptHashes offers.hashes

theorem compose_eq (laws : HeaderLaws crates) {answer : Answer} {offer : Offer}
    (found : offered crates answer = some offer) (inputs : DeploymentInputs) :
    CallbackDocument.compose crates offer.html offer.hashes inputs =
      .ok (offer.published crates inputs).document := by
  obtain ⟨nonempty, valid⟩ := hashes_valid found
  obtain ⟨arrival, rfl, offers⟩ := offered_eq_some_iff.mp found
  simp only [CallbackDocument.compose, offers.marker, headerFromStr_policy laws nonempty valid,
    not_true_eq_false, if_false, ne_eq, published]

/-- The validator of an offer is text a request can carry. -/
theorem readable_etag (laws : HeaderLaws crates) {answer : Answer} {offer : Offer}
    {etag : Text} (found : offered crates answer = some offer) (carried : offer.etag = some etag) :
    ∀ letter ∈ etag, IsReadable letter := by
  obtain ⟨arrival, rfl, offers⟩ := offered_eq_some_iff.mp found
  rw [offers.etag] at carried
  obtain ⟨value, _, read⟩ := Option.bind_eq_some_iff.mp carried
  exact (laws.bytes_of_toStr read).2

end Offer

namespace Upstream

def requestOf (upstream : Upstream) (ifNoneMatch : List HeaderValue) : Request where
  uri := upstream.uri
  headers :=
    [(ACCEPT, Text.bytes "text/html".toList),
      (ACCEPT_ENCODING, Text.bytes "identity".toList),
      (USER_AGENT, Text.bytes "libid-bridge/0.5.0".toList)] ++
      ifNoneMatch.map fun value => (IF_NONE_MATCH, value)

/-- Building a request never panics on a readable validator, and the request
carries exactly that one. -/
theorem request_eq (laws : HeaderLaws crates) (upstream : Upstream) {etag : Option Text}
    (readable : ∀ text, etag = some text → ∀ letter ∈ text, IsReadable letter) :
    upstream.request crates etag =
      some (upstream.requestOf (etag.toList.map Text.bytes)) := by
  have accept : crates.headerFromStr "text/html".toList =
      .ok (Text.bytes "text/html".toList) := laws.fromStr_of_readable (by decide)
  have identity : crates.headerFromStr "identity".toList =
      .ok (Text.bytes "identity".toList) := laws.fromStr_of_readable (by decide)
  have agent : crates.headerFromStr "libid-bridge/0.5.0".toList =
      .ok (Text.bytes "libid-bridge/0.5.0".toList) := laws.fromStr_of_readable (by decide)
  unfold request
  rw [accept, identity, agent]
  cases etag with
  | none => rfl
  | some text =>
      simp only [laws.fromStr_of_readable (readable text rfl)]
      rfl

theorem getAll_requestOf (upstream : Upstream) (ifNoneMatch : List HeaderValue) :
    (upstream.requestOf ifNoneMatch).headers.getAll IF_NONE_MATCH = ifNoneMatch := by
  have others : ACCEPT ≠ IF_NONE_MATCH ∧ ACCEPT_ENCODING ≠ IF_NONE_MATCH ∧
      USER_AGENT ≠ IF_NONE_MATCH := by decide
  have kept : (ifNoneMatch.map fun value => (IF_NONE_MATCH, value)).filter
      (fun field => field.1 = IF_NONE_MATCH) =
        ifNoneMatch.map fun value => (IF_NONE_MATCH, value) := by
    rw [List.filter_eq_self]
    simp
  simp only [HeaderMap.getAll, requestOf, List.cons_append, List.nil_append, others, kept,
    List.filter_cons, decide_false, Bool.false_eq_true, if_false, List.map_map]
  simp [Function.comp_def]

theorem fetch_eq_ok_iff {upstream : Upstream} {etag : Option Text} {answer : Answer}
    {fetched : Fetched} (built : (upstream.request crates etag).isSome) :
    upstream.fetch crates etag answer = some (.ok fetched) ↔
      ∃ arrival, answer = some (.response arrival) ∧
        ((arrival.status = NOT_MODIFIED ∧ etag.isSome ∧ fetched = .unchanged) ∨
          (arrival.status = OK ∧ Fetched.of crates arrival = .ok fetched)) := by
  obtain ⟨request, requested⟩ := Option.isSome_iff_exists.mp built
  have distinct : OK ≠ NOT_MODIFIED := by decide
  rcases answer with _ | arrival | ⟨error, sources⟩
  · simp [fetch, requested]
  · simp only [fetch, exchange, requested, Option.map_some, Option.some.injEq,
      Reply.response.injEq, exists_eq_left']
    split_ifs with notModified asked accepted redirected
    · simp [notModified, asked, distinct.symm, eq_comm]
    · simp [notModified, asked, distinct.symm]
    · simp [accepted, distinct]
    · simp [notModified, accepted]
    · simp [notModified, accepted]
  · simp [fetch, exchange, requested, FetchError.fromSource]

/-- What a retrieval gives, its request built: a document exactly where the
answer offers one, and nothing new exactly where a validator was sent and a
`304` came back. -/
theorem retrieve_eq_ok_iff (laws : HeaderLaws crates) {upstream : Upstream}
    {allowedOrigins : List Admitted} {etag : Option Text} {answer : Answer}
    {found : Option Published} (built : (upstream.request crates etag).isSome) :
    upstream.retrieve crates allowedOrigins etag answer = some (.ok found) ↔
      (∃ offer, offered crates answer = some offer ∧
        found = some (offer.published crates ⟨upstream.origin, allowedOrigins⟩)) ∨
      (found = none ∧ etag.isSome ∧
        ∃ arrival, answer = some (.response arrival) ∧ arrival.status = NOT_MODIFIED) := by
  have distinct : OK ≠ NOT_MODIFIED := by decide
  constructor
  · intro retrieved
    obtain ⟨outcome, fetched, composed⟩ := Option.map_eq_some_iff.mp retrieved
    rcases outcome with error | _ | ⟨html, hashes, validator⟩
    · cases composed
    · cases composed
      obtain ⟨arrival, rfl, ⟨status, asked, _⟩ | ⟨_, read⟩⟩ := (fetch_eq_ok_iff built).mp fetched
      · exact Or.inr ⟨rfl, asked, arrival, rfl, status⟩
      · obtain ⟨_, _, same, _⟩ := Fetched.of_eq_ok_iff.mp read
        cases same
    · dsimp only at composed
      split at composed
      · cases composed
      · next document composedOk =>
          cases composed
          obtain ⟨arrival, rfl, ⟨_, _, same⟩ | ⟨status, read⟩⟩ :=
            (fetch_eq_ok_iff built).mp fetched
          · cases same
          · have marker : Matches.count MARKER html = 1 := by
              by_contra other
              simp [CallbackDocument.compose, other] at composedOk
            have found : offered crates (some (.response arrival)) =
                some ⟨html, hashes, validator⟩ := by
              simp only [offered, status, read, marker, if_true]
            refine Or.inl ⟨_, found, ?_⟩
            have sameDocument := (Offer.compose_eq laws found
              ⟨upstream.origin, allowedOrigins⟩).symm.trans composedOk
            rw [← Except.ok.inj sameDocument]
            rfl
  · rintro (⟨offer, found, rfl⟩ | ⟨rfl, asked, arrival, rfl, status⟩)
    · obtain ⟨arrival, rfl, offers⟩ := offered_eq_some_iff.mp found
      have read := Fetched.of_eq_ok_iff.mpr ⟨offer.html, offer.hashes, rfl, offers.media,
        offers.encoding, offers.hashes, offers.body⟩
      have fetched : upstream.fetch crates etag (some (.response arrival)) =
          some (.ok (.fresh offer.html offer.hashes offer.etag)) := by
        rw [fetch_eq_ok_iff built]
        exact ⟨arrival, rfl, Or.inr ⟨offers.status, by rw [read, offers.etag]⟩⟩
      simp only [retrieve, fetched, Option.map_some, Offer.compose_eq laws found]
      rfl
    · have fetched : upstream.fetch crates etag (some (.response arrival)) =
          some (.ok .unchanged) :=
        (fetch_eq_ok_iff built).mpr ⟨arrival, rfl, Or.inl ⟨status, asked, rfl⟩⟩
      simp only [retrieve, fetched, Option.map_some]

theorem exists_retrieve {upstream : Upstream} {etag : Option Text}
    (built : (upstream.request crates etag).isSome) (allowedOrigins : List Admitted)
    (answer : Answer) :
    ∃ outcome, upstream.retrieve crates allowedOrigins etag answer = some outcome := by
  obtain ⟨request, requested⟩ := Option.isSome_iff_exists.mp built
  cases answer <;> simp [retrieve, fetch, exchange, requested]

theorem built_of_fetch {upstream : Upstream} {etag : Option Text} {answer : Answer}
    {outcome : Except FetchError Fetched}
    (fetched : upstream.fetch crates etag answer = some outcome) :
    (upstream.request crates etag).isSome := by
  rcases answer with _ | reply
  · obtain ⟨request, requested, _⟩ := Option.map_eq_some_iff.mp fetched
    simp [requested]
  · obtain ⟨request, requested, _⟩ := Option.map_eq_some_iff.mp fetched
    simp [requested]

/-- A `304` is accepted only by a request that sent a validator. -/
theorem isSome_etag_of_unchanged {upstream : Upstream} {allowedOrigins : List Admitted}
    {etag : Option Text} {answer : Answer}
    (retrieved : upstream.retrieve crates allowedOrigins etag answer = some (.ok none)) :
    etag.isSome := by
  obtain ⟨outcome, fetched, composed⟩ := Option.map_eq_some_iff.mp retrieved
  rcases outcome with error | _ | ⟨html, hashes, validator⟩
  · cases composed
  · obtain ⟨_, _, ⟨_, asked, _⟩ | ⟨_, read⟩⟩ := (fetch_eq_ok_iff (built_of_fetch fetched)).mp
      fetched
    · exact asked
    · obtain ⟨_, _, same, _⟩ := Fetched.of_eq_ok_iff.mp read
      cases same
  · dsimp only at composed
    split at composed <;> cases composed

theorem exists_offer_of_retrieve (laws : HeaderLaws crates) {upstream : Upstream}
    {allowedOrigins : List Admitted} {etag : Option Text} {answer : Answer}
    {published : Published}
    (retrieved : upstream.retrieve crates allowedOrigins etag answer =
      some (.ok (some published))) :
    ∃ offer, offered crates answer = some offer ∧
      published = offer.published crates ⟨upstream.origin, allowedOrigins⟩ := by
  obtain ⟨_, fetched, _⟩ := Option.map_eq_some_iff.mp retrieved
  rcases (retrieve_eq_ok_iff laws (built_of_fetch fetched)).mp retrieved with
    ⟨offer, found, same⟩ | ⟨none, _⟩
  · exact ⟨offer, found, Option.some.inj same⟩
  · cases none

theorem scriptHashes_ne_policy (text why : Text) : scriptHashes text ≠ .error (.policy why) := by
  intro refused
  unfold scriptHashes at refused
  dsimp only at refused
  split at refused
  · cases refused
  · split_ifs at refused
    · cases refused
    · split at refused <;> cases refused

theorem of_ne_policy (arrival : Arrival) (why : Text) :
    Fetched.of crates arrival ≠ .error (.artifact (.policy why)) := by
  intro refused
  unfold Fetched.of at refused
  dsimp only at refused
  split_ifs at refused
  · cases refused
  · split at refused
    · cases refused
    · split at refused
      · next refusal read =>
          cases refused
          exact scriptHashes_ne_policy _ _ read
      · split at refused
        · cases refused
        · cases refused
        · split at refused <;> cases refused

/-- No composed policy is ever refused as a header value. -/
theorem retrieve_ne_policy (laws : HeaderLaws crates) (upstream : Upstream)
    (allowedOrigins : List Admitted) (etag : Option Text) (answer : Answer) (why : Text) :
    upstream.retrieve crates allowedOrigins etag answer ≠
      some (.error (.artifact (.policy why))) := by
  intro retrieved
  obtain ⟨outcome, fetched, composed⟩ := Option.map_eq_some_iff.mp retrieved
  have built := built_of_fetch fetched
  rcases outcome with error | _ | ⟨html, hashes, validator⟩
  · cases composed
    obtain ⟨request, requested⟩ := Option.isSome_iff_exists.mp built
    rcases answer with _ | arrival | ⟨error, sources⟩
    · simp [fetch, requested] at fetched
    · simp only [fetch, exchange, requested, Option.map_some, Option.some.injEq] at fetched
      split_ifs at fetched
      · cases fetched
      · exact of_ne_policy arrival why fetched
      · cases fetched
      · cases fetched
    · simp [fetch, exchange, requested, FetchError.fromSource] at fetched
  · cases composed
  · obtain ⟨arrival, rfl, ⟨_, _, same⟩ | ⟨_, read⟩⟩ := (fetch_eq_ok_iff built).mp fetched
    · cases same
    · obtain ⟨_, _, same, _, _, named, _⟩ := Fetched.of_eq_ok_iff.mp read
      cases same
      obtain ⟨nonempty, valid⟩ := hashes_of_scriptHashes named
      dsimp only at composed
      split at composed
      · next refusal refused =>
          cases composed
          exact CallbackDocument.compose_ne_policy laws nonempty valid why refused
      · cases composed

end Upstream

/-- An upstream policy puts nothing but its hashes into the composed one.  What
is composed around the hashes of any policy that is read is a header value
without a comma, which no retrieval refuses; split at either notion of
whitespace, it is the nine directives and no other, `script-src` holding the
hashes in order.  Composing and reading hashes are inverse. -/
theorem policy_carries_only_hashes (laws : HeaderLaws crates) :
    (∀ text hashes, scriptHashes text = .ok hashes →
      (∃ value, crates.headerFromStr (policy hashes) = .ok value) ∧
      ',' ∉ policy hashes ∧
      (∀ isSpace, isSpace = isAsciiWhitespace ∨ isSpace = Text.isWhitespace →
        directives isSpace (policy hashes) = composedDirectives hashes ∧
        enforced isSpace (policy hashes) = composedDirectives hashes) ∧
      scriptHashes (policy hashes) = .ok hashes) ∧
    (∀ (upstream : Upstream) allowedOrigins etag answer why,
      upstream.retrieve crates allowedOrigins etag answer ≠
        some (.error (.artifact (.policy why)))) ∧
    ∀ hashes, hashes ≠ [] → (∀ source ∈ hashes, isHash source = true) →
      scriptHashes (policy hashes) = .ok hashes := by
  refine ⟨?_, Upstream.retrieve_ne_policy laws, fun _ => scriptHashes_policy⟩
  intro text hashes read
  obtain ⟨nonempty, valid⟩ := hashes_of_scriptHashes read
  have separates : ∀ isSpace, isSpace = isAsciiWhitespace ∨ isSpace = Text.isWhitespace →
      SeparatesSources isSpace := by
    rintro _ (rfl | rfl)
    · exact separatesSources_ascii
    · exact separatesSources_unicode
  exact ⟨⟨_, headerFromStr_policy laws nonempty valid⟩, comma_notMem_policy nonempty valid,
    fun isSpace either => ⟨directives_policy (separates isSpace either) nonempty valid,
      enforced_policy (separates isSpace either) nonempty valid⟩,
    scriptHashes_policy nonempty valid⟩

theorem policy_carries_only_hashes_mixed :
    scriptHashes "default-src *; Script-SRC 'sha256-Ab+/=' 'SHA384-x_y-'; report-uri /r".toList =
        .ok ["'sha256-Ab+/='".toList, "'SHA384-x_y-'".toList] ∧
      enforced isAsciiWhitespace
          (policy ["'sha256-Ab+/='".toList, "'SHA384-x_y-'".toList]) =
        composedDirectives ["'sha256-Ab+/='".toList, "'SHA384-x_y-'".toList] := by
  have read : scriptHashes
      "default-src *; Script-SRC 'sha256-Ab+/=' 'SHA384-x_y-'; report-uri /r".toList =
        .ok ["'sha256-Ab+/='".toList, "'SHA384-x_y-'".toList] := by
    decide +kernel
  exact ⟨read, (((policy_carries_only_hashes Reference.headerLaws).1 _ _ read).2.2.1
    isAsciiWhitespace (Or.inl rfl)).2⟩

end LibidBridge
