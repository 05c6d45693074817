import LibidBridge.Revalidation
import Mathlib.Data.List.Chain

/-!
# How fresh the served pair is

The refresher against the plain machine in which the last accepted response
wins.  The two agree on every run in which no accepted response changes only
the script hashes of the one accepted before it: such a change is taken for
the document already served, and the older policy stays in force.
-/

namespace LibidBridge

variable {crates : Crates}

/-- A request the callback route answers from its document. -/
def Call.ReadsCallback (call : Call) : Prop :=
  call.path = .callback ∧ call.method = .get ∧ carriesBody call.body = false

/-- A response serves a document: its body, under its policy and no other. -/
structure Response.Serves (response : Response) (document : CallbackDocument) : Prop where
  status : response.status = OK
  body : response.body = document.body
  policy : response.headers.getAll CONTENT_SECURITY_POLICY = [document.csp]

theorem answered_callback {state : AppState} {call : Call} (reads : call.ReadsCallback) :
    (answered crates state call).2 = standingHeaders
      (match state.callback with
        | none => unavailable state.failure
        | some published => serving published) := by
  obtain ⟨path, method, body⟩ := reads
  simp only [answered, routed, path, method, callback, body, Bool.false_eq_true, if_false]
  cases state.callback <;> rfl

theorem serves_serving (published : Published) :
    (standingHeaders (serving published)).Serves published.document where
  status := rfl
  body := rfl
  policy := by
    rw [getAll_standingHeaders _ (by decide), serving, respond, HeaderMap.getAll_extend]
    rfl

theorem Response.Serves.unique {response : Response} {first second : CallbackDocument}
    (servesFirst : response.Serves first) (servesSecond : response.Serves second) :
    first = second := by
  obtain ⟨body, csp⟩ := first
  obtain ⟨otherBody, otherCsp⟩ := second
  have sameBody := servesFirst.body.symm.trans servesSecond.body
  have samePolicy := servesFirst.policy.symm.trans servesSecond.policy
  simp_all

/-- The refresher with the document of the last retrieval that gave one
remembered beside it. -/
def Refresher.retrieving (crates : Crates) (refresher : Refresher)
    (state : AppState × Option Published) (tick : Tick) :
    Option (AppState × Option Published) :=
  match refresher.upstream.retrieve crates refresher.allowedOrigins state.1.etag tick.answer with
  | some (.ok (some published)) =>
      (refresher.step crates state.1 tick).map fun next => (next, some published)
  | _ => (refresher.step crates state.1 tick).map fun next => (next, state.2)

/-- The callback route serves the last document retrieved, where there is one. -/
def ServesLatest (crates : Crates) (state : AppState × Option Published) : Prop :=
  ∀ published, state.2 = some published → ∀ call : Call, call.ReadsCallback →
    (answered crates state.1 call).2.Serves published.document

/-- What the answers of a run offer, in order. -/
def offers (crates : Crates) (ticks : List Refresher.Tick) : List Offer :=
  ticks.filterMap fun tick => offered crates tick.answer

/-- The second response changes the script hashes of the first and nothing
else a browser or this bridge compares: the composed body and the validator
are the same. -/
def PolicyOnlyChange (crates : Crates) (inputs : DeploymentInputs) (first second : Offer) :
    Prop :=
  (second.published crates inputs).document.body = (first.published crates inputs).document.body ∧
    second.etag = first.etag ∧ second.hashes ≠ first.hashes

def latest (crates : Crates) (refresher : Refresher) (ticks : List Refresher.Tick) :
    Option Published :=
  (offers crates ticks).getLast?.map (Offer.published crates refresher.inputs)

theorem offers_snoc (ticks : List Refresher.Tick) (tick : Refresher.Tick) :
    offers crates (ticks ++ [tick]) =
      offers crates ticks ++ (offered crates tick.answer).toList := by
  cases found : offered crates tick.answer <;> simp [offers, found]

theorem latest_snoc_of_offered {refresher : Refresher} {ticks : List Refresher.Tick}
    {tick : Refresher.Tick} {offer : Offer} (found : offered crates tick.answer = some offer) :
    latest crates refresher (ticks ++ [tick]) =
      some (offer.published crates refresher.inputs) := by
  simp [latest, offers_snoc, found]

theorem latest_snoc_of_none {refresher : Refresher} {ticks : List Refresher.Tick}
    {tick : Refresher.Tick} (none : offered crates tick.answer = none) :
    latest crates refresher (ticks ++ [tick]) = latest crates refresher ticks := by
  simp [latest, offers_snoc, none]

/-- The suppressed document differs from the served one in its policy at most. -/
theorem serves_eq_true_iff {state : AppState} {published : Published} :
    state.serves published = true ↔
      ∃ current, state.callback = some current ∧ current.etag = published.etag ∧
        current.document.body = published.document.body := by
  simp [AppState.serves, Option.any_eq_true]

theorem published_eq_of_not_policyOnlyChange {inputs : DeploymentInputs} {first second : Offer}
    (change : ¬ PolicyOnlyChange crates inputs first second)
    (sameEtag : first.etag = second.etag)
    (sameBody : (first.published crates inputs).document.body =
      (second.published crates inputs).document.body) :
    first.published crates inputs = second.published crates inputs := by
  have sameHashes : second.hashes = first.hashes := by
    by_contra differ
    exact change ⟨sameBody.symm, sameEtag.symm, differ⟩
  simp only [Offer.published] at sameBody ⊢
  rw [sameBody, sameHashes, sameEtag]

/-- Different hashes are never served under one policy. -/
theorem hashes_eq_of_document_eq {inputs : DeploymentInputs} {first second : Offer}
    {firstAnswer secondAnswer : Answer} (firstFound : offered crates firstAnswer = some first)
    (secondFound : offered crates secondAnswer = some second)
    (same : (first.published crates inputs).document = (second.published crates inputs).document) :
    first.hashes = second.hashes := by
  have samePolicy : policy first.hashes = policy second.hashes :=
    Text.bytes_injective (congrArg CallbackDocument.csp same)
  obtain ⟨firstNonempty, firstValid⟩ := Offer.hashes_valid firstFound
  obtain ⟨secondNonempty, secondValid⟩ := Offer.hashes_valid secondFound
  have read := scriptHashes_policy firstNonempty firstValid
  rw [samePolicy, scriptHashes_policy secondNonempty secondValid] at read
  exact (Except.ok.inj read).symm

theorem exists_answer_of_mem_offers {ticks : List Refresher.Tick} {offer : Offer}
    (member : offer ∈ offers crates ticks) : ∃ answer, offered crates answer = some offer := by
  obtain ⟨tick, _, found⟩ := List.mem_filterMap.mp member
  exact ⟨tick.answer, found⟩

section Runs

variable (laws : HeaderLaws crates) {refresher : Refresher} {start : AppState}
variable (empty : start.callback = none)

include laws empty

theorem run_retrieving {ticks : List Refresher.Tick} {state : AppState}
    (ran : run (refresher.step crates) start ticks = some state) :
    run (refresher.retrieving crates) (start, none) ticks =
      some (state, latest crates refresher ticks) := by
  induction ticks using List.reverseRecOn generalizing state with
  | nil =>
      cases ran
      rfl
  | append_singleton ticks tick ih =>
      obtain ⟨middle, before, stepped⟩ := run_snoc_eq_some.mp ran
      refine run_snoc_eq_some.mpr ⟨_, ih before, ?_⟩
      have built := Refresher.built_of_servesOffer laws
        (Refresher.servesOffer_of_run laws empty before)
      have retrieve_iff := @Upstream.retrieve_eq_ok_iff crates laws refresher.upstream
        refresher.allowedOrigins middle.etag tick.answer
      obtain ⟨outcome, retrieved⟩ :=
        Upstream.exists_retrieve built refresher.allowedOrigins tick.answer
      simp only [Refresher.retrieving, retrieved]
      have noOffer : (∀ published, outcome ≠ .ok (some published)) →
          offered crates tick.answer = none := by
        intro nothing
        cases found : offered crates tick.answer with
        | none => rfl
        | some offer =>
            have given := (retrieve_iff built).mpr (Or.inl ⟨offer, found, rfl⟩)
            rw [retrieved, Option.some.injEq] at given
            exact absurd given (nothing _)
      rcases outcome with error | _ | published
      · rw [latest_snoc_of_none (noOffer nofun), stepped]
        rfl
      · rw [latest_snoc_of_none (noOffer nofun), stepped]
        rfl
      · rcases (retrieve_iff built).mp retrieved with ⟨offer, found, same⟩ | ⟨none, _⟩
        · cases same
          rw [latest_snoc_of_offered found, stepped]
          rfl
        · cases none

/-- Where no offer changes only the policy of the one before it, what is served
is always the document of the last offer. -/
theorem callback_of_chain {ticks : List Refresher.Tick} {state : AppState}
    (ran : run (refresher.step crates) start ticks = some state)
    (chain : (offers crates ticks).IsChain fun first second =>
      ¬ PolicyOnlyChange crates refresher.inputs first second) :
    state.callback = latest crates refresher ticks := by
  induction ticks using List.reverseRecOn generalizing state with
  | nil =>
      cases ran
      exact empty
  | append_singleton ticks tick ih =>
      obtain ⟨middle, before, stepped⟩ := run_snoc_eq_some.mp ran
      have built := Refresher.built_of_servesOffer laws
        (Refresher.servesOffer_of_run laws empty before)
      rw [offers_snoc, List.isChain_append] at chain
      obtain ⟨chainBefore, _, joined⟩ := chain
      have served := ih before chainBefore
      rcases Refresher.callback_step laws built stepped with ⟨offer, found, _, published⟩ |
        ⟨offer, found, current, kept⟩ | ⟨none, kept⟩
      · rw [latest_snoc_of_offered found, published]
      · obtain ⟨served', callback, sameEtag, sameBody⟩ := serves_eq_true_iff.mp current
        rw [served] at callback
        obtain ⟨last, lastOffer, rfl⟩ := Option.map_eq_some_iff.mp callback
        have unchanged : ¬ PolicyOnlyChange crates refresher.inputs last offer :=
          joined last lastOffer offer (by simp [found])
        rw [latest_snoc_of_offered found, kept, served, callback,
          published_eq_of_not_policyOnlyChange unchanged sameEtag sameBody]
      · rw [latest_snoc_of_none none, kept, served]

/-- An offer that changes only the policy is taken for the document served. -/
theorem callback_of_policyOnlyChange {ticks : List Refresher.Tick} {tick : Refresher.Tick}
    {state next : AppState} {last offer : Offer}
    (ran : run (refresher.step crates) start ticks = some state)
    (stepped : refresher.step crates state tick = some next)
    (served : state.callback = some (last.published crates refresher.inputs))
    (found : offered crates tick.answer = some offer)
    (change : PolicyOnlyChange crates refresher.inputs last offer) :
    next.callback = state.callback := by
  have built := Refresher.built_of_servesOffer laws
    (Refresher.servesOffer_of_run laws empty ran)
  have current : state.serves (offer.published crates refresher.inputs) = true :=
    serves_eq_true_iff.mpr ⟨_, served, change.2.1.symm, change.1.symm⟩
  rcases Refresher.callback_step laws built stepped with ⟨other, otherFound, notCurrent, _⟩ |
    ⟨_, _, _, kept⟩ | ⟨_, kept⟩
  · cases found.symm.trans otherFound
    simp [current] at notCurrent
  · exact kept
  · exact kept

/-- Where the property holds of every prefix of a run, no offer changes only the
policy of the one before it. -/
theorem chain_of_servesLatest {ticks : List Refresher.Tick}
    (serves : ∀ fed, fed <+: ticks → ∃ state,
      run (refresher.retrieving crates) (start, none) fed = some state ∧
        ServesLatest crates state) :
    (offers crates ticks).IsChain fun first second =>
      ¬ PolicyOnlyChange crates refresher.inputs first second := by
  induction ticks using List.reverseRecOn with
  | nil => exact List.IsChain.nil
  | append_singleton ticks tick ih =>
      have chainBefore := ih fun fed before =>
        serves fed (before.trans (List.prefix_append _ _))
      rw [offers_snoc, List.isChain_append]
      refine ⟨chainBefore, by cases offered crates tick.answer <;> simp, ?_⟩
      intro last lastOffer offer offerHead change
      have found : offered crates tick.answer = some offer := by simpa using offerHead
      obtain ⟨next, ran⟩ := Refresher.exists_run_step laws empty (ticks ++ [tick])
      obtain ⟨state, before, stepped⟩ := run_snoc_eq_some.mp ran
      have served : state.callback = some (last.published crates refresher.inputs) := by
        rw [callback_of_chain laws empty before chainBefore, latest, lastOffer]
        rfl
      have kept := callback_of_policyOnlyChange laws empty before stepped served found change
      obtain ⟨_, remembered, property⟩ := serves _ (List.prefix_refl _)
      cases (run_retrieving laws empty ran).symm.trans remembered
      have reads : Call.ReadsCallback ⟨.get, .callback, none, [], ⟨true⟩⟩ := ⟨rfl, rfl, rfl⟩
      have answer := property _ (latest_snoc_of_offered found) _ reads
      rw [answered_callback reads, kept, served] at answer
      obtain ⟨lastAnswer, lastFound⟩ :=
        exists_answer_of_mem_offers (List.mem_of_getLast? lastOffer)
      exact change.2.2 (hashes_eq_of_document_eq found lastFound
        (answer.unique (serves_serving _)))

end Runs

/-- The pair the callback route serves is that of the last document retrieved,
at every point of a run, exactly where no accepted response changes only the
script hashes of the accepted response before it. -/
theorem servesLatest_iff (laws : HeaderLaws crates) {settings : Settings} {bridge : Bridge}
    (started : Bridge.start crates settings = .ok bridge) (ticks : List Refresher.Tick) :
    (∀ fed, fed <+: ticks → ∃ state,
      run (bridge.refresher.retrieving crates) (bridge.state, none) fed = some state ∧
        ServesLatest crates state) ↔
      (offers crates ticks).IsChain fun first second =>
        ¬ PolicyOnlyChange crates bridge.refresher.inputs first second := by
  have empty := Bridge.callback_of_start started
  refine ⟨chain_of_servesLatest laws empty, fun chain fed before => ?_⟩
  obtain ⟨state, ran⟩ := @Refresher.exists_run_step crates laws bridge.refresher _ empty fed
  refine ⟨_, run_retrieving laws empty ran, fun published same call reads => ?_⟩
  have chainBefore := chain.prefix (before.filterMap _)
  have served := (callback_of_chain laws empty ran chainBefore).trans same
  rw [answered_callback reads, served]
  exact serves_serving published

namespace Reference

theorem offers_tick (hash : Text) (hashes : List Text)
    (named : scriptHashes ((Fetched.header Reference.crates
      [(CONTENT_SECURITY_POLICY, Text.bytes ("script-src ".toList ++ hash))]
      CONTENT_SECURITY_POLICY).getD []) = .ok hashes) :
    offered Reference.crates (tick hash []).answer = some ⟨page, hashes, none⟩ :=
  offered_arrival rfl named

theorem offers_two :
    offers Reference.crates [tick "'sha256-A='".toList [], tick "'sha256-B='".toList []] =
      [⟨page, ["'sha256-A='".toList], none⟩, ⟨page, ["'sha256-B='".toList], none⟩] := by
  have first := offers_tick "'sha256-A='".toList ["'sha256-A='".toList] (by decide +kernel)
  have second := offers_tick "'sha256-B='".toList ["'sha256-B='".toList] (by decide +kernel)
  simp only [offers, List.filterMap_cons, first, second, List.filterMap_nil]

end Reference

/-- A Distribution that answers the same artifact twice without a validator, the
second time under another script hash: the first policy stays in force. -/
theorem not_servesLatest_of_other_hash :
    ¬ ∀ fed, fed <+: [Reference.tick "'sha256-A='".toList [],
        Reference.tick "'sha256-B='".toList []] → ∃ state,
      run (Reference.bridge.refresher.retrieving Reference.crates)
        (Reference.bridge.state, none) fed = some state ∧
          ServesLatest Reference.crates state := by
  intro serves
  have chain := chain_of_servesLatest Reference.headerLaws rfl serves
  rw [Reference.offers_two, List.isChain_cons_cons] at chain
  refine chain.1 ⟨?_, rfl, by decide⟩
  simp only [Offer.published]

theorem servesLatest_iff_one : ∃ state,
    run (Reference.bridge.refresher.retrieving Reference.crates)
      (Reference.bridge.state, none) [Reference.tick "'sha256-A='".toList []] = some state ∧
        ServesLatest Reference.crates state := by
  have only := Reference.offers_tick "'sha256-A='".toList ["'sha256-A='".toList]
    (by decide +kernel)
  refine (servesLatest_iff Reference.headerLaws Reference.start_settings _).mpr ?_ _
    (List.prefix_refl _)
  simp only [offers, List.filterMap_cons, only, List.filterMap_nil]
  exact List.IsChain.singleton _

end LibidBridge
