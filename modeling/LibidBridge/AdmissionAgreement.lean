import LibidBridge.Revalidation

/-!
# The document and the route agree

What a callback document is told of who is admitted, and what the
configuration route admits, are one list: the list inserted into the document
decodes to the spellings of the admission set, and reading those spellings
again gives the set back.
-/

namespace LibidBridge

variable {crates : Crates}

theorem reads_asStr_of_reads {list : List Text} {members : List Admitted}
    (reads : List.Forall₂ (Admitted.Reads crates) list members) :
    ∀ member ∈ members, Admitted.Reads crates member.asStr member := by
  rw [← map_asStr_of_reads reads, List.forall₂_map_left_iff, List.forall₂_same] at reads
  exact reads

/-- Every member of the admission set is read from its spelling, the CCDP
origin that joined it included. -/
theorem reads_allowedOrigins (urlLaws : UrlLaws crates) {settings : Settings}
    {deployment : Deployment}
    (accepted : Deployment.checked crates settings = .ok deployment) :
    ∀ member ∈ deployment.allowedOrigins, Admitted.Reads crates member.asStr member := by
  obtain ⟨origin, members, listed, reads, _, rfl⟩ :=
    (Deployment.checked_eq_ok_iff urlLaws).mp accepted
  intro member present
  rw [withCcdpOrigin_of_reads reads] at present
  rcases List.mem_append.mp present with inList | joined
  · exact reads_asStr_of_reads reads member inList
  · split_ifs at joined
    · simp at joined
    · obtain rfl := List.mem_singleton.mp joined
      have spelled := Origin.asStr_of_listed listed
      rw [Admitted.reads_iff, Admitted.asStr, spelled]
      exact Admitted.listed_exact_of_origin urlLaws listed

theorem spellings_allowedOrigins (urlLaws : UrlLaws crates) {settings : Settings}
    {deployment : Deployment}
    (accepted : Deployment.checked crates settings = .ok deployment) :
    (deployment.allowedOrigins.map Admitted.asStr).Nodup ∧
      settings.ccdpOrigin ∈ deployment.allowedOrigins.map Admitted.asStr := by
  obtain ⟨_, _, _, _, wellFormed, _⟩ := (Deployment.checked_eq_ok_iff urlLaws).mp accepted
  obtain ⟨_, _, spelled, _⟩ :=
    (Deployment.checked_iff_wellFormed urlLaws settings).2 deployment accepted
  rw [spelled]
  split_ifs with listed
  · simpa using ⟨wellFormed.allowedDistinct, listed⟩
  · refine ⟨List.nodup_append.mpr ⟨wellFormed.allowedDistinct, by simp, ?_⟩, by simp⟩
    rintro spelling inList other otherMem rfl
    exact listed (List.mem_singleton.mp otherMem ▸ inList)

/-- The document and the route agree on who is admitted: what replaces the
marker decodes to the spellings of the admission set and the CCDP origin, each
once, and the spellings read again are the set the configuration route
applies. -/
theorem document_agrees_with_route (urlLaws : UrlLaws crates) (jsonLaws : JsonLaws crates)
    {settings : Settings} {deployment : Deployment}
    (accepted : Deployment.checked crates settings = .ok deployment)
    {html : Text} {hashes : List Text} {document : CallbackDocument}
    (composed : CallbackDocument.compose crates html hashes
      ⟨deployment.ccdpOrigin, deployment.allowedOrigins⟩ = .ok document) :
    ∃ before inserted after, html = before ++ MARKER ++ after ∧
      document.body = Text.bytes (before ++ inserted ++ after) ∧
      ∃ list, list = deployment.allowedOrigins.map Admitted.asStr ∧
        Json.decode inserted =
          some (.arr [.arr (list.map .str), .str settings.ccdpOrigin]) ∧
        list ≠ [] ∧ list.Nodup ∧ list.count settings.ccdpOrigin = 1 ∧
        (∀ field members,
          List.Forall₂ (fun spelling member =>
            Admitted.listed crates field spelling = .ok member) list members ↔
              members = deployment.allowedOrigins) ∧
        ∀ bridge, Bridge.start crates settings = .ok bridge →
          bridge.state.allowedOrigins = deployment.allowedOrigins ∧
          ∀ (headers : HeaderMap) origin, headers.getAll ORIGIN = [origin] →
            (admission crates bridge.state headers = some (.listed origin) ↔
              ∃ text observed, crates.headerToStr origin = some text ∧
                Observed.stamped crates text = some observed ∧
                ∃ spelling ∈ list, ∃ member, Admitted.Reads crates spelling member ∧
                  member.admits observed = true) := by
  obtain ⟨before, after, split, body, _⟩ := CallbackDocument.exists_of_compose composed
  have readsEach := reads_allowedOrigins urlLaws accepted
  have reads : List.Forall₂ (Admitted.Reads crates)
      (deployment.allowedOrigins.map Admitted.asStr) deployment.allowedOrigins := by
    rw [List.forall₂_map_left_iff, List.forall₂_same]
    exact readsEach
  obtain ⟨distinct, present⟩ := spellings_allowedOrigins urlLaws accepted
  obtain ⟨spelled, _⟩ := (Deployment.checked_iff_wellFormed urlLaws settings).2 deployment accepted
  refine ⟨before, _, after, split, body, _, rfl, ?_, List.ne_nil_of_mem present, distinct,
    List.count_eq_one_of_mem distinct present, ?_, ?_⟩
  · rw [decode_json jsonLaws, DeploymentInputs.record, spelled, List.map_map]
    rfl
  · intro field members
    constructor
    · intro reread
      have readsMembers := reread.imp fun spelling member => Admitted.reads_iff.mpr
      exact List.right_unique_forall₂' Admitted.biUnique_reads.2 readsMembers reads
    · rintro rfl
      exact reads.imp fun spelling member read => read field
  · intro bridge started
    obtain ⟨other, upstream, otherAccepted, _, rfl⟩ := Bridge.start_eq_ok_iff.mp started
    cases accepted.symm.trans otherAccepted
    refine ⟨rfl, fun headers origin one => ?_⟩
    rw [admission_eq_listed_iff]
    simp only [IsAdmittedOrigin, one, true_and]
    constructor
    · rintro ⟨text, observed, readable, stamped, member, inSet, admits⟩
      exact ⟨text, observed, readable, stamped, member.asStr, List.mem_map_of_mem inSet, member,
        readsEach member inSet, admits⟩
    · rintro ⟨text, observed, readable, stamped, _, inList, member, read, admits⟩
      obtain ⟨original, inSet, rfl⟩ := List.mem_map.mp inList
      cases Admitted.biUnique_reads.2 read (readsEach original inSet)
      exact ⟨text, observed, readable, stamped, member, inSet, admits⟩

theorem document_agrees_with_route_settings :
    ∃ document, CallbackDocument.compose Reference.crates
        ("<script>".toList ++ MARKER ++ "</script>".toList) ["'sha256-Ab+/='".toList]
        ⟨Reference.deployment.ccdpOrigin, Reference.deployment.allowedOrigins⟩ = .ok document ∧
      (∃ before inserted after,
        document.body = Text.bytes (before ++ inserted ++ after) ∧
        Json.decode inserted = some (.arr
          [.arr [.str "https://app.example.com".toList, .str "*.handles.link".toList,
            .str "https://lib.id".toList], .str "https://lib.id".toList])) ∧
      admission Reference.crates Reference.bridge.state
          [(ORIGIN, Text.bytes "https://me.handles.link".toList)] =
        some (.listed (Text.bytes "https://me.handles.link".toList)) := by
  have composes : (CallbackDocument.compose Reference.crates
      ("<script>".toList ++ MARKER ++ "</script>".toList) ["'sha256-Ab+/='".toList]
      ⟨Reference.deployment.ccdpOrigin, Reference.deployment.allowedOrigins⟩).isOk = true := by
    decide +kernel
  cases composed : CallbackDocument.compose Reference.crates
      ("<script>".toList ++ MARKER ++ "</script>".toList) ["'sha256-Ab+/='".toList]
      ⟨Reference.deployment.ccdpOrigin, Reference.deployment.allowedOrigins⟩ with
  | error refusal =>
      rw [composed] at composes
      cases composes
  | ok document =>
      obtain ⟨before, inserted, after, _, body, _, rfl, decoded, _, _, _, _, route⟩ :=
        document_agrees_with_route Reference.urlLaws Reference.jsonLaws
          Reference.checked_settings composed
      refine ⟨document, rfl, ⟨before, inserted, after, body, decoded⟩, ?_⟩
      have stamps : (Observed.stamped Reference.crates "https://me.handles.link".toList).any
          (Admitted.pattern ⟨"*.handles.link".toList⟩).admits := by
        decide +kernel
      obtain ⟨observed, stamped, admits⟩ := (Option.any_eq_true _ _).mp stamps
      refine ((route Reference.bridge Reference.start_settings).2 _ _ rfl).mpr
        ⟨_, observed, by decide +kernel, stamped, "*.handles.link".toList, ?_, _, ?_, admits⟩
      · decide +kernel
      · exact Admitted.reads_iff.mpr (by decide +kernel : Admitted.listed Reference.crates []
          "*.handles.link".toList = .ok (.pattern ⟨"*.handles.link".toList⟩))

end LibidBridge
