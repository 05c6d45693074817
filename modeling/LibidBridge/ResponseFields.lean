import LibidBridge.HashGrammar

/-!
# Every field of a response

A response may carry a field more than once, and a value may be bytes that no
text reads as.  Retrieval looks at the first value of a field, and takes an
unreadable one for none.  The results here say for which responses that is as
good as looking at every value: for the codings a body arrives in, and for the
policies it arrives under.
-/

namespace LibidBridge

variable {crates : Crates}

/-- A field value that reads as `identity`, whatever its case and whatever
whitespace is around it. -/
def NamesIdentity (crates : Crates) (value : HeaderValue) : Prop :=
  ∃ text, crates.headerToStr value = some text ∧
    Text.eqIgnoreAsciiCase (Text.trim text) "identity".toList = true

/-- What `Fetched::of` looks at besides the coding: the media type, the policy
and the body. -/
structure Arrival.IsArtifact (crates : Crates) (arrival : Arrival) : Prop where
  media : isHtml ((Fetched.header crates arrival.headers CONTENT_TYPE).getD []) = true
  hashes : ∃ hashes, scriptHashes
    ((Fetched.header crates arrival.headers CONTENT_SECURITY_POLICY).getD []) = .ok hashes
  body : ∃ body html, crates.collect MAX_ARTIFACT_BYTES arrival.body = .ok body ∧
    Text.fromUtf8 body = some html

/-- The first coding is readable, and where it is `identity` so are the others. -/
def ReadsEveryCoding (crates : Crates) : List HeaderValue → Prop
  | [] => True
  | first :: rest => (crates.headerToStr first).isSome ∧
      (NamesIdentity crates first → ∀ value ∈ rest, NamesIdentity crates value)

theorem header_eq_bind (headers : HeaderMap) (name : HeaderName) :
    Fetched.header crates headers name =
      (headers.getAll name).head?.bind crates.headerToStr :=
  rfl

theorem exists_of_eq_ok_iff {arrival : Arrival} :
    (∃ fetched, Fetched.of crates arrival = .ok fetched) ↔
      arrival.IsArtifact crates ∧
        ∀ encoding, Fetched.header crates arrival.headers CONTENT_ENCODING = some encoding →
          Text.eqIgnoreAsciiCase (Text.trim encoding) "identity".toList = true := by
  constructor
  · rintro ⟨fetched, accepted⟩
    obtain ⟨html, hashes, _, media, encoding, named, body, collected, decoded⟩ :=
      Fetched.of_eq_ok_iff.mp accepted
    exact ⟨⟨media, ⟨hashes, named⟩, body, html, collected, decoded⟩, encoding⟩
  · rintro ⟨⟨media, ⟨hashes, named⟩, body, html, collected, decoded⟩, encoding⟩
    exact ⟨_, Fetched.of_eq_ok_iff.mpr
      ⟨html, hashes, rfl, media, encoding, named, body, collected, decoded⟩⟩

/-- Looking at the first readable coding finds what looking at all of them
would, exactly where the codings are read in full. -/
theorem first_coding_decides_iff {values : List HeaderValue} :
    ((∀ encoding, values.head?.bind crates.headerToStr = some encoding →
        Text.eqIgnoreAsciiCase (Text.trim encoding) "identity".toList = true) →
      ∀ value ∈ values, NamesIdentity crates value) ↔ ReadsEveryCoding crates values := by
  cases values with
  | nil => simp [ReadsEveryCoding]
  | cons first rest =>
      cases read : crates.headerToStr first with
      | none =>
          have unnamed : ¬ NamesIdentity crates first := by
            rintro ⟨text, readable, _⟩
            rw [read] at readable
            cases readable
          simp [ReadsEveryCoding, read, unnamed]
      | some text =>
          have named : NamesIdentity crates first ↔
              Text.eqIgnoreAsciiCase (Text.trim text) "identity".toList = true := by
            constructor
            · rintro ⟨other, readable, identity⟩
              rw [read, Option.some.injEq] at readable
              rwa [readable]
            · intro identity
              exact ⟨text, read, identity⟩
          simp only [List.head?_cons, Option.bind_some, read, Option.some.injEq,
            forall_eq', ← named, List.forall_mem_cons, ReadsEveryCoding, Option.isSome_some,
            true_and]
          constructor
          · exact fun both first => (both first).2
          · exact fun others first => ⟨first, others first⟩

theorem Refresher.exists_of_of_replaced {refresher : Refresher} {state next : AppState}
    {arrival : Arrival} {now : Nat}
    (replaced : refresher.revalidate crates state (some (.response arrival)) now =
      some (next, .ok true)) :
    ∃ fetched, Fetched.of crates arrival = .ok fetched := by
  obtain ⟨⟨_, outcome⟩, published, counted⟩ := Option.map_eq_some_iff.mp replaced
  cases counted
  obtain ⟨retrieved, retrieval, same⟩ := Option.map_eq_some_iff.mp published
  rcases retrieved with error | _ | fresh
  · cases same
  · cases same
  · obtain ⟨fetched, exchanged, composed⟩ := Option.map_eq_some_iff.mp retrieval
    rcases fetched with error | _ | ⟨html, hashes, etag⟩
    · cases composed
    · cases composed
    · obtain ⟨other, answered, ⟨_, _, unchanged⟩ | ⟨_, read⟩⟩ :=
        (Upstream.fetch_eq_ok_iff (Upstream.built_of_fetch exchanged)).mp exchanged
      · cases unchanged
      · cases answered
        exact ⟨_, read⟩

/-- A response whose every coding is `identity` where it is accepted, and that
is refused, the served document left in place, where one is not: exactly the
responses whose codings are read in full, or that are not the artifact. -/
theorem encoded_refused_iff (crates : Crates) (arrival : Arrival) :
    ((∀ fetched, Fetched.of crates arrival = .ok fetched →
        ∀ value ∈ arrival.headers.getAll CONTENT_ENCODING, NamesIdentity crates value) ∧
      ((∃ value ∈ arrival.headers.getAll CONTENT_ENCODING, ¬ NamesIdentity crates value) →
        (∃ error, Fetched.of crates arrival = .error error) ∧
          ∀ (refresher : Refresher) state now next outcome,
            refresher.revalidate crates state (some (.response arrival)) now =
              some (next, outcome) → next.callback = state.callback)) ↔
    (arrival.IsArtifact crates →
      ReadsEveryCoding crates (arrival.headers.getAll CONTENT_ENCODING)) := by
  rw [← first_coding_decides_iff, ← header_eq_bind]
  constructor
  · rintro ⟨identity, _⟩ artifact passes
    obtain ⟨fetched, accepted⟩ := exists_of_eq_ok_iff.mpr ⟨artifact, passes⟩
    exact identity fetched accepted
  · intro readsAll
    have identity : (∃ fetched, Fetched.of crates arrival = .ok fetched) →
        ∀ value ∈ arrival.headers.getAll CONTENT_ENCODING, NamesIdentity crates value := by
      intro accepted
      obtain ⟨artifact, passes⟩ := exists_of_eq_ok_iff.mp accepted
      exact readsAll artifact passes
    refine ⟨fun fetched accepted => identity ⟨fetched, accepted⟩, ?_⟩
    rintro ⟨value, member, other⟩
    have refused : ¬ ∃ fetched, Fetched.of crates arrival = .ok fetched :=
      fun accepted => other (identity accepted value member)
    constructor
    · cases read : Fetched.of crates arrival with
      | error error => exact ⟨error, rfl⟩
      | ok fetched => exact absurd ⟨fetched, read⟩ refused
    · intro refresher state now next outcome revalidated
      apply Refresher.callback_of_kept revalidated
      rintro rfl
      exact refused (Refresher.exists_of_of_replaced revalidated)

/-- A body under `identity` and then `br` is accepted. -/
theorem second_coding_passes :
    ¬ ∀ fetched, Fetched.of Reference.crates
        (Reference.arrival
          [(CONTENT_ENCODING, Text.bytes "identity".toList),
            (CONTENT_ENCODING, Text.bytes "br".toList),
            (CONTENT_SECURITY_POLICY, Text.bytes "script-src 'sha256-A='".toList)]) =
        .ok fetched →
      ∀ value ∈ (Reference.arrival
          [(CONTENT_ENCODING, Text.bytes "identity".toList),
            (CONTENT_ENCODING, Text.bytes "br".toList),
            (CONTENT_SECURITY_POLICY,
              Text.bytes "script-src 'sha256-A='".toList)]).headers.getAll CONTENT_ENCODING,
        NamesIdentity Reference.crates value := by
  intro identity
  obtain ⟨fetched, accepted⟩ := exists_of_toOption_isSome
    (by decide +kernel : (Fetched.of Reference.crates
      (Reference.arrival
        [(CONTENT_ENCODING, Text.bytes "identity".toList),
          (CONTENT_ENCODING, Text.bytes "br".toList),
          (CONTENT_SECURITY_POLICY,
            Text.bytes "script-src 'sha256-A='".toList)])).toOption.isSome = true)
  obtain ⟨text, readable, named⟩ := identity fetched accepted (Text.bytes "br".toList)
    (by decide +kernel)
  have read : Reference.crates.headerToStr (Text.bytes "br".toList) = some "br".toList := by
    decide +kernel
  rw [read, Option.some.injEq] at readable
  subst readable
  exact absurd named (by decide +kernel)

/-- A field value as a browser reads it, one character a byte. -/
def isomorphicDecode (value : HeaderValue) : Text :=
  value.map fun byte => Char.ofNat byte.toNat

/-- The policies a field value lists. -/
def HeaderValue.policies (value : HeaderValue) : List Text :=
  (isomorphicDecode value).splitOn ','

/-- The policies a response arrived under, all of which a browser enforces. -/
def Arrival.policies (arrival : Arrival) : List Text :=
  (arrival.headers.getAll CONTENT_SECURITY_POLICY).flatMap HeaderValue.policies

/-- The sources of the `script-src` a browser enforces of a policy. -/
def scriptSrc (text : Text) : Option (List Text) :=
  ((directives isAsciiWhitespace text).find? fun directive =>
    directive.1 = "script-src".toList).map Prod.snd

/-- The `script-src` of a policy, where it has one, lists all of these sources. -/
def ListsAll (sources : List Text) (text : Text) : Prop :=
  ∀ listed, scriptSrc text = some listed → ∀ source ∈ sources, source ∈ listed

theorem splitWhitespace_of_readable {text : Text} (readable : ∀ letter ∈ text, IsReadable letter) :
    tokens isAsciiWhitespace text = Text.splitWhitespace text := by
  apply tokens_congr
  intro letter member
  have code : ∀ other : Char, (letter == other) = decide (letter.toNat = other.toNat) := by
    intro other
    rw [Bool.eq_iff_iff, beq_iff_eq, decide_eq_true_eq, Char.toNat_inj]
  have range := readable letter member
  simp only [IsReadable] at range
  rw [Bool.eq_iff_iff]
  simp only [isAsciiWhitespace, Text.isWhitespace, code, Char.reduceToNat, Bool.or_eq_true,
    Bool.and_eq_true, decide_eq_true_eq, beq_iff_eq]
  omega

/-- Of a readable policy a browser takes the sources that retrieval reads. -/
theorem scriptSrc_of_readable {text : Text} (readable : ∀ letter ∈ text, IsReadable letter) :
    scriptSrc text = scriptSources text := by
  have pieces : ∀ piece ∈ text.splitOn ';',
      tokens isAsciiWhitespace piece = Text.splitWhitespace piece := by
    intro piece pieceMem
    apply splitWhitespace_of_readable
    intro letter member
    apply readable
    rw [← @List.intercalate_splitOn _ text _ _ ';']
    exact mem_intercalate_of_mem pieceMem member
  unfold scriptSrc scriptSources directives
  rw [List.map_congr_left pieces]
  induction text.splitOn ';' with
  | nil => rfl
  | cons piece rest ih =>
      rw [List.map_cons, List.filterMap_cons, List.find?_cons]
      cases words : Text.splitWhitespace piece with
      | nil =>
          have unnamed : namesScriptSrc piece = false := by simp [namesScriptSrc, words]
          rw [unnamed]
          exact ih
      | cons name sources =>
          have named : namesScriptSrc piece =
              decide (name.map Char.toLower = "script-src".toList) := by
            have lowered : "script-src".toList.map Char.toLower = "script-src".toList := by decide
            rw [namesScriptSrc, words, List.head?_cons, Option.any_some, Bool.eq_iff_iff,
              Text.eqIgnoreAsciiCase_iff, lowered, decide_eq_true_eq]
          rw [List.find?_cons, named]
          by_cases scripts : name.map Char.toLower = "script-src".toList
          · simp only [scripts, decide_true, Option.map_some, words, List.drop_one, List.tail_cons]
          · simp only [scripts, decide_false]
            exact ih

/-- What retrieval looks at besides the policy: the status, the media type, the
coding and a page with its one marker. -/
structure Arrival.HoldsDocument (crates : Crates) (arrival : Arrival) : Prop where
  status : arrival.status = OK
  media : isHtml ((Fetched.header crates arrival.headers CONTENT_TYPE).getD []) = true
  encoding : ∀ encoding, Fetched.header crates arrival.headers CONTENT_ENCODING =
    some encoding → Text.eqIgnoreAsciiCase (Text.trim encoding) "identity".toList = true
  page : ∃ body html, crates.collect MAX_ARTIFACT_BYTES arrival.body = .ok body ∧
    Text.fromUtf8 body = some html ∧ Matches.count MARKER html = 1

/-- Where the first value names hashes for its script sources, the policies it
lists list them too, if it has a comma and so may list several, and so do the
policies of the other values. -/
def ReadsEveryPolicy (crates : Crates) : List HeaderValue → Prop
  | [] => True
  | first :: rest => ∀ text sources, crates.headerToStr first = some text →
      scriptSources text = some sources → sources ≠ [] →
        (∀ source ∈ sources, isHash source = true) →
          (',' ∈ text → ∀ policy ∈ text.splitOn ',', ListsAll sources policy) ∧
            ∀ value ∈ rest, ∀ policy ∈ value.policies, ListsAll sources policy

/-- What is served under a policy can only run scripts that every policy of the
response let it run. -/
def NeverEscalates (arrival : Arrival) (csp : HeaderValue) : Prop :=
  ∃ carried, scriptSrc (isomorphicDecode csp) = some carried ∧
    ∀ policy ∈ arrival.policies, ListsAll carried policy

theorem exists_offers_iff {arrival : Arrival} {hashes : List Text} :
    (∃ offer, arrival.Offers crates offer ∧ offer.hashes = hashes) ↔
      arrival.HoldsDocument crates ∧ scriptHashes ((Fetched.header crates arrival.headers
        CONTENT_SECURITY_POLICY).getD []) = .ok hashes := by
  constructor
  · rintro ⟨offer, offers, rfl⟩
    obtain ⟨body, collected, decoded⟩ := offers.body
    exact ⟨⟨offers.status, offers.media, offers.encoding,
      body, offer.html, collected, decoded, offers.marker⟩, offers.hashes⟩
  · rintro ⟨⟨status, media, encoding, body, html, collected, decoded, marker⟩, named⟩
    exact ⟨⟨html, hashes, Fetched.header crates arrival.headers ETAG⟩,
      ⟨status, media, encoding, rfl, named, ⟨body, collected, decoded⟩, marker⟩, rfl⟩

theorem isomorphicDecode_bytes {text : Text} (ascii : ∀ letter ∈ text, letter.toNat < 0x80) :
    isomorphicDecode (Text.bytes text) = text := by
  rw [Text.bytes_of_ascii ascii, isomorphicDecode, List.map_map]
  refine (List.map_congr_left fun letter member => ?_).trans (List.map_id text)
  rw [Function.comp_apply, Text.toNat_ofNat_of_ascii (ascii letter member), Char.ofNat_toNat]
  rfl

/-- The `script-src` of a composed policy holds the hashes it was composed
around. -/
theorem scriptSrc_policy {hashes : List Text} (nonempty : hashes ≠ [])
    (valid : ∀ source ∈ hashes, isHash source = true) :
    scriptSrc (isomorphicDecode (Text.bytes (policy hashes))) = some hashes := by
  have ascii : ∀ letter ∈ policy hashes, letter.toNat < 0x80 := by
    intro letter member
    exact (isReadable_of_mem_policy nonempty valid member).ascii
  rw [isomorphicDecode_bytes ascii, scriptSrc,
    directives_policy separatesSources_ascii nonempty valid]
  rfl

/-- A value without a comma lists one policy, and that one is read. -/
theorem listsAll_of_comma_notMem {text : Text} {sources : List Text}
    (readable : ∀ letter ∈ text, IsReadable letter) (single : ',' ∉ text)
    (named : scriptSources text = some sources) :
    ∀ policy ∈ text.splitOn ',', ListsAll sources policy := by
  have whole : text.splitOn ',' = [text] := by
    apply List.splitOnP_eq_singleton
    intro letter member
    simpa using fun same : letter = ',' => single (same ▸ member)
  rw [whole, List.forall_mem_singleton]
  intro listed found source member
  rw [scriptSrc_of_readable readable, named, Option.some.injEq] at found
  rwa [← found]

/-- The sources of the first policy are within every policy exactly where
every policy is read. -/
theorem listsAll_policies_iff (laws : HeaderLaws crates) {arrival : Arrival} :
    (∀ hashes, scriptHashes ((Fetched.header crates arrival.headers
        CONTENT_SECURITY_POLICY).getD []) = .ok hashes →
      ∀ policy ∈ arrival.policies, ListsAll hashes policy) ↔
    ReadsEveryPolicy crates (arrival.headers.getAll CONTENT_SECURITY_POLICY) := by
  have unnamed : ∀ hashes, scriptHashes [] ≠ .ok hashes := by
    intro hashes read
    obtain ⟨named, _⟩ := scriptHashes_eq_ok_iff.mp read
    simp [scriptSources, namesScriptSrc, Text.splitWhitespace] at named
  rw [header_eq_bind, Arrival.policies]
  cases arrival.headers.getAll CONTENT_SECURITY_POLICY with
  | nil => simp [ReadsEveryPolicy, unnamed]
  | cons first rest =>
      rw [List.head?_cons, Option.bind_some]
      cases read : crates.headerToStr first with
      | none => simp [ReadsEveryPolicy, read, unnamed]
      | some text =>
          have decoded : isomorphicDecode first = text :=
            (laws.toStr_eq_some_iff.mp read).2.symm
          have readable := (laws.bytes_of_toStr read).2
          simp only [Option.getD_some, List.mem_flatMap, ReadsEveryPolicy, read]
          constructor
          · rintro listed _ hashes ⟨⟩ named nonempty valid
            have all := listed hashes (scriptHashes_eq_ok_iff.mpr ⟨named, nonempty, valid⟩)
            constructor
            · intro _ policy member
              apply all policy
              exact ⟨first, by simp, by rwa [HeaderValue.policies, decoded]⟩
            · intro value valueMem policy member
              exact all policy ⟨value, List.mem_cons_of_mem first valueMem, member⟩
          · rintro readsAll hashes accepted policy ⟨value, valueMem, member⟩
            obtain ⟨named, nonempty, valid⟩ := scriptHashes_eq_ok_iff.mp accepted
            obtain ⟨own, others⟩ := readsAll text hashes rfl named nonempty valid
            rcases List.mem_cons.mp valueMem with rfl | inRest
            · rw [HeaderValue.policies, decoded] at member
              by_cases several : ',' ∈ text
              · exact own several policy member
              · exact listsAll_of_comma_notMem readable several named policy member
            · exact others value inRest policy member

/-- A document is served under no script source that a policy of its response
left out, whoever retrieves it, exactly where the response holds no document or
every policy of it is read. -/
theorem neverEscalates_iff (laws : HeaderLaws crates) (arrival : Arrival) :
    (∀ (upstream : Upstream) allowedOrigins etag published,
      upstream.retrieve crates allowedOrigins etag (some (.response arrival)) =
        some (.ok (some published)) → NeverEscalates arrival published.document.csp) ↔
    (arrival.HoldsDocument crates →
      ReadsEveryPolicy crates (arrival.headers.getAll CONTENT_SECURITY_POLICY)) := by
  rw [← listsAll_policies_iff laws]
  constructor
  · intro never holds hashes named
    obtain ⟨offer, offers, rfl⟩ := exists_offers_iff.mpr ⟨holds, named⟩
    have found : offered crates (some (.response arrival)) = some offer :=
      offered_eq_some_iff.mpr ⟨arrival, rfl, offers⟩
    obtain ⟨nonempty, valid⟩ := Offer.hashes_valid found
    have requested := @Upstream.request_eq crates laws ⟨⟨[]⟩, []⟩ none (by simp)
    have built : (Upstream.request crates ⟨⟨[]⟩, []⟩ none).isSome := by
      rw [requested]
      rfl
    have retrieved : Upstream.retrieve crates ⟨⟨[]⟩, []⟩ [] none (some (.response arrival)) =
        some (.ok (some (offer.published crates ⟨⟨[]⟩, []⟩))) :=
      (Upstream.retrieve_eq_ok_iff laws built).mpr (Or.inl ⟨offer, found, rfl⟩)
    obtain ⟨carried, script, all⟩ := never _ _ _ _ retrieved
    rw [Offer.published, scriptSrc_policy nonempty valid, Option.some.injEq] at script
    rwa [script]
  · intro readsAll upstream allowedOrigins etag published retrieved
    obtain ⟨offer, found, rfl⟩ := Upstream.exists_offer_of_retrieve laws retrieved
    obtain ⟨nonempty, valid⟩ := Offer.hashes_valid found
    obtain ⟨_, same, offers⟩ := offered_eq_some_iff.mp found
    cases same
    obtain ⟨holds, named⟩ := exists_offers_iff.mp ⟨offer, offers, rfl⟩
    exact ⟨offer.hashes, scriptSrc_policy nonempty valid, readsAll holds offer.hashes named⟩

theorem neverEscalates_iff_single :
    ∃ published, Reference.bridge.refresher.upstream.retrieve Reference.crates
        Reference.deployment.allowedOrigins none
        (some (.response (Reference.arrival
          [(CONTENT_SECURITY_POLICY, Text.bytes "script-src 'sha256-A='".toList)]))) =
          some (.ok (some published)) ∧
      NeverEscalates (Reference.arrival
        [(CONTENT_SECURITY_POLICY, Text.bytes "script-src 'sha256-A='".toList)])
        published.document.csp := by
  obtain ⟨published, retrieved, _⟩ := @Reference.retrieve_arrival
    [(CONTENT_SECURITY_POLICY, Text.bytes "script-src 'sha256-A='".toList)] ["'sha256-A='".toList]
    (by decide +kernel) (by decide +kernel)
  refine ⟨published, retrieved,
    (neverEscalates_iff Reference.headerLaws _).mpr ?_ _ _ _ _ retrieved⟩
  intro _ text sources read _ _ _
  have same : Reference.crates.headerToStr (Text.bytes "script-src 'sha256-A='".toList) =
      some "script-src 'sha256-A='".toList := by decide +kernel
  rw [same, Option.some.injEq] at read
  subst read
  exact ⟨fun comma => absurd comma (by decide), by simp⟩

/-- Under a second policy of another hash, the document is served under the
first policy's hash alone. -/
theorem second_policy_passes :
    ¬ ∀ published, Reference.bridge.refresher.upstream.retrieve Reference.crates
        Reference.deployment.allowedOrigins none
        (some (.response (Reference.arrival
          [(CONTENT_SECURITY_POLICY, Text.bytes "script-src 'sha256-A='".toList),
            (CONTENT_SECURITY_POLICY, Text.bytes "script-src 'sha256-B='".toList)]))) =
          some (.ok (some published)) →
      NeverEscalates (Reference.arrival
        [(CONTENT_SECURITY_POLICY, Text.bytes "script-src 'sha256-A='".toList),
          (CONTENT_SECURITY_POLICY, Text.bytes "script-src 'sha256-B='".toList)])
        published.document.csp := by
  intro never
  obtain ⟨published, retrieved, csp⟩ := @Reference.retrieve_arrival
    [(CONTENT_SECURITY_POLICY, Text.bytes "script-src 'sha256-A='".toList),
      (CONTENT_SECURITY_POLICY, Text.bytes "script-src 'sha256-B='".toList)]
    ["'sha256-A='".toList] (by decide +kernel) (by decide +kernel)
  obtain ⟨carried, script, listed⟩ := never published retrieved
  rw [csp, scriptSrc_policy (by decide) (by decide +kernel), Option.some.injEq] at script
  subst script
  have second := listed "script-src 'sha256-B='".toList (by decide +kernel)
    ["'sha256-B='".toList] (by decide +kernel) "'sha256-A='".toList (by simp)
  exact absurd second (by decide)

end LibidBridge
