import LibidBridge.DeploymentChecked
import Mathlib.Data.List.Perm.Basic

/-!
# The published record

What a reader of the ceremony configuration recovers from its bytes: the CCDP
origin and every enabled platform with its client, whatever order the tables
stood in and whoever is admitted to read them.
-/

namespace LibidBridge

variable {crates : Crates}

/-- What a reader of published bytes decodes. -/
def publishedValue (published : Bytes) : Option Json :=
  (Text.fromUtf8 published).bind Json.decode

theorem publishedValue_jsonToVec (laws : JsonLaws crates) (value : Json) :
    publishedValue (crates.jsonToVec value) = some value := by
  obtain ⟨text, written, spells⟩ := laws.toVec value
  rw [publishedValue, written, Text.fromUtf8_bytes, Option.bind_some]
  exact Json.decode_of_spells (spells.mono fun _ _ minimal => minimal.1)

namespace PlatformProfile

def entryMembers (profile : PlatformProfile) : List (Text × Json) :=
  match profile.clientCredential with
  | some credential =>
      [("clientCredential".toList, .str credential), ("clientId".toList, .str profile.clientId)]
  | none => [("clientId".toList, .str profile.clientId)]

theorem entry_eq (profile : PlatformProfile) : profile.entry = .obj profile.entryMembers := by
  unfold entry entryMembers
  cases profile.clientCredential with
  | none => rfl
  | some credential => rfl

/-- What an entry says of a platform: its client id, and exactly where it is
GitHub the credential. -/
structure IsRecordedBy (profile : PlatformProfile) (members : List (Text × Json)) : Prop where
  keys : members.map Prod.fst =
    if profile.id = .github then ["clientCredential".toList, "clientId".toList]
    else ["clientId".toList]
  clientId : ("clientId".toList, .str profile.clientId) ∈ members
  credential : ∀ value, profile.clientCredential = some value →
    ("clientCredential".toList, .str value) ∈ members

theorem isRecordedBy_entryMembers {profile : PlatformProfile}
    (wellFormed : profile.WellFormed) : profile.IsRecordedBy profile.entryMembers := by
  have github := wellFormed.credentialIff
  unfold entryMembers
  cases carried : profile.clientCredential with
  | none =>
      have other : profile.id ≠ .github := by simpa [carried] using github
      exact ⟨by simp [other], by simp, by simp [carried]⟩
  | some credential =>
      have isGithub : profile.id = .github := by simpa [carried] using github
      exact ⟨by simp [isGithub], by simp, by simp [carried]⟩

theorem entry_injective {first second : PlatformProfile}
    (sameId : first.id = second.id) (sameEntry : first.entry = second.entry) :
    first = second := by
  rw [entry_eq, entry_eq, Json.obj.injEq] at sameEntry
  obtain ⟨id, clientId, credential⟩ := first
  obtain ⟨otherId, otherClientId, otherCredential⟩ := second
  cases credential <;> cases otherCredential <;> simp_all [entryMembers]

end PlatformProfile

theorem PlatformId.toText_injective : Function.Injective PlatformId.toText := by
  intro first second same
  cases first <;> cases second <;> first | rfl | exact absurd same (by decide)

/-- The entries of a set of platforms, in the order of its tables. -/
def platformEntries (profiles : List PlatformProfile) : List (Text × Json) :=
  profiles.map fun profile => (profile.id.toText, profile.entry)

theorem nodup_keys_platformEntries {profiles : List PlatformProfile}
    (distinct : (profiles.map PlatformProfile.id).Nodup) :
    ((platformEntries profiles).map Prod.fst).Nodup := by
  have keys : (platformEntries profiles).map Prod.fst =
      (profiles.map PlatformProfile.id).map PlatformId.toText := by
    simp [platformEntries, Function.comp_def]
  rw [keys]
  exact distinct.map PlatformId.toText_injective

namespace CeremonyConfig

theorem byId_eq (config : CeremonyConfig) :
    config.byId = SortedMembers.ofEntries (platformEntries config.platforms) := by
  simp [byId, SortedMembers.ofEntries, platformEntries, List.foldl_map]

theorem record_eq (config : CeremonyConfig) :
    config.record = .obj [("ccdpOrigin".toList, .str config.ccdpOrigin.asStr),
      ("platforms".toList, .obj config.byId)] :=
  rfl

theorem byId_perm {config : CeremonyConfig}
    (distinct : (config.platforms.map PlatformProfile.id).Nodup) :
    config.byId.Perm (platformEntries config.platforms) := by
  rw [byId_eq]
  exact SortedMembers.ofEntries_perm (nodup_keys_platformEntries distinct)

end CeremonyConfig

/-- A permutation of entries is one of the platforms they are entries of. -/
theorem perm_of_platformEntries_perm {first second : List PlatformProfile}
    (permuted : (platformEntries first).Perm (platformEntries second)) :
    first.Perm second := by
  refine (List.map_perm_map_iff ?_).mp permuted
  intro one other same
  obtain ⟨sameId, sameEntry⟩ := Prod.mk.inj same
  exact PlatformProfile.entry_injective (PlatformId.toText_injective sameId) sameEntry

/-- Two deployments publish the same bytes exactly where they select one CCDP
origin and enable the same platforms, in whatever order. -/
theorem ceremonyConfig_eq_iff (laws : JsonLaws crates) {first second : Deployment}
    (firstDistinct : (first.platforms.map PlatformProfile.id).Nodup)
    (secondDistinct : (second.platforms.map PlatformProfile.id).Nodup) :
    first.ceremonyConfig crates = second.ceremonyConfig crates ↔
      first.ccdpOrigin = second.ccdpOrigin ∧ first.platforms.Perm second.platforms := by
  constructor
  · intro sameBytes
    have sameRecord := (publishedValue_jsonToVec laws _).symm.trans
      ((congrArg publishedValue sameBytes).trans (publishedValue_jsonToVec laws _))
    simp only [CeremonyConfig.record_eq, Option.some.injEq, Json.obj.injEq, List.cons.injEq,
      Prod.mk.injEq, Json.str.injEq, true_and, and_true] at sameRecord
    obtain ⟨sameOrigin, sameEntries⟩ := sameRecord
    refine ⟨?_, perm_of_platformEntries_perm ?_⟩
    · exact Origin.asStr_inj.mp sameOrigin
    · have firstPerm : (CeremonyConfig.byId ⟨first.ccdpOrigin, first.platforms⟩).Perm
          (platformEntries first.platforms) := CeremonyConfig.byId_perm firstDistinct
      rw [sameEntries] at firstPerm
      exact firstPerm.symm.trans (CeremonyConfig.byId_perm secondDistinct)
  · rintro ⟨sameOrigin, permuted⟩
    have sameEntries : SortedMembers.ofEntries (platformEntries first.platforms) =
        SortedMembers.ofEntries (platformEntries second.platforms) :=
      SortedMembers.ofEntries_eq_of_perm (permuted.map _)
        (nodup_keys_platformEntries firstDistinct)
    simp only [Deployment.ceremonyConfig, CeremonyConfig.serialized, CeremonyConfig.record_eq,
      CeremonyConfig.byId_eq, sameEntries, sameOrigin]

/-- What a value has to say to record settings: the CCDP origin and the
platforms, nothing else, each platform once by its id. -/
structure Settings.IsRecordedBy (settings : Settings) (value : Json) : Prop where
  members : ∃ entries, value = .obj
      [("ccdpOrigin".toList, .str settings.ccdpOrigin), ("platforms".toList, .obj entries)] ∧
    (entries.map Prod.fst).Perm (settings.platforms.map fun profile => profile.id.toText) ∧
    (entries.map Prod.fst).Nodup ∧
    ∀ profile ∈ settings.platforms, ∃ members,
      (profile.id.toText, .obj members) ∈ entries ∧ profile.IsRecordedBy members

theorem Settings.isRecordedBy_record (urlLaws : UrlLaws crates) {settings : Settings}
    {deployment : Deployment}
    (accepted : Deployment.checked crates settings = .ok deployment) :
    settings.IsRecordedBy
      (CeremonyConfig.record ⟨deployment.ccdpOrigin, deployment.platforms⟩) := by
  obtain ⟨origin, members, listed, _, wellFormed, rfl⟩ :=
    (Deployment.checked_eq_ok_iff urlLaws).mp accepted
  have permuted : (CeremonyConfig.byId ⟨origin, settings.platforms⟩).Perm
      (platformEntries settings.platforms) :=
    CeremonyConfig.byId_perm wellFormed.platformsDistinct
  have keys : (platformEntries settings.platforms).map Prod.fst =
      settings.platforms.map fun profile => profile.id.toText := by
    simp [platformEntries, Function.comp_def]
  refine ⟨CeremonyConfig.byId ⟨origin, settings.platforms⟩, ?_, ?_, ?_, ?_⟩
  · rw [CeremonyConfig.record_eq, Origin.asStr_of_listed listed]
  · exact keys ▸ permuted.map Prod.fst
  · exact (permuted.map Prod.fst).nodup_iff.mpr
      (nodup_keys_platformEntries wellFormed.platformsDistinct)
  · intro profile enabled
    refine ⟨profile.entryMembers, permuted.mem_iff.mpr ?_,
      PlatformProfile.isRecordedBy_entryMembers (wellFormed.platformsRead profile enabled)⟩
    exact List.mem_map.mpr ⟨profile, enabled, by rw [PlatformProfile.entry_eq]⟩

/-- Two accepted settings publish the same bytes exactly where they agree on
what is published, in whatever order. -/
theorem ceremonyConfig_eq_iff_of_checked (urlLaws : UrlLaws crates)
    (jsonLaws : JsonLaws crates) {first second : Settings}
    {firstDeployment secondDeployment : Deployment}
    (firstAccepted : Deployment.checked crates first = .ok firstDeployment)
    (secondAccepted : Deployment.checked crates second = .ok secondDeployment) :
    firstDeployment.ceremonyConfig crates = secondDeployment.ceremonyConfig crates ↔
      first.ccdpOrigin = second.ccdpOrigin ∧ first.platforms.Perm second.platforms := by
  obtain ⟨firstOrigin, _, firstListed, _, firstWellFormed, rfl⟩ :=
    (Deployment.checked_eq_ok_iff urlLaws).mp firstAccepted
  obtain ⟨secondOrigin, _, secondListed, _, secondWellFormed, rfl⟩ :=
    (Deployment.checked_eq_ok_iff urlLaws).mp secondAccepted
  rw [ceremonyConfig_eq_iff jsonLaws firstWellFormed.platformsDistinct
    secondWellFormed.platformsDistinct, ← Origin.asStr_of_listed firstListed,
    ← Origin.asStr_of_listed secondListed, Origin.asStr_inj]

theorem Settings.WellFormed.reordered {settings : Settings}
    (wellFormed : settings.WellFormed crates) {tables : List PlatformProfile}
    (permuted : tables.Perm settings.platforms) :
    Settings.WellFormed crates { settings with platforms := tables } where
  ccdpOrigin := wellFormed.ccdpOrigin
  allowedNonempty := wellFormed.allowedNonempty
  allowedRead := wellFormed.allowedRead
  allowedDistinct := wellFormed.allowedDistinct
  platformsNonempty := fun empty =>
    wellFormed.platformsNonempty (permuted.symm.trans (.of_eq empty)).eq_nil
  platformsDistinct := (permuted.map _).nodup_iff.mpr wellFormed.platformsDistinct
  platformsRead := fun profile enabled =>
    wellFormed.platformsRead profile (permuted.mem_iff.mp enabled)

/-- The published record is lossless and knows no order: it records exactly
the settings, two accepted settings publish the same bytes exactly where they
agree on the CCDP origin and enable the same platforms, and so neither the
allowlist nor the order of the tables shows in it. -/
theorem ceremonyConfig_records (urlLaws : UrlLaws crates) (jsonLaws : JsonLaws crates)
    {settings : Settings} {deployment : Deployment}
    (accepted : Deployment.checked crates settings = .ok deployment) :
    (∃ value, publishedValue (deployment.ceremonyConfig crates) = some value ∧
      settings.IsRecordedBy value) ∧
    (∀ other otherDeployment, Deployment.checked crates other = .ok otherDeployment →
      (otherDeployment.ceremonyConfig crates = deployment.ceremonyConfig crates ↔
        other.ccdpOrigin = settings.ccdpOrigin ∧ other.platforms.Perm settings.platforms)) ∧
    (∀ list otherDeployment,
      Deployment.checked crates { settings with allowedAppOrigins := list } =
          .ok otherDeployment →
        otherDeployment.ceremonyConfig crates = deployment.ceremonyConfig crates) ∧
    ∀ tables, tables.Perm settings.platforms →
      ∃ otherDeployment,
        Deployment.checked crates { settings with platforms := tables } =
          .ok otherDeployment ∧
        otherDeployment.ceremonyConfig crates = deployment.ceremonyConfig crates := by
  have sameBytes : ∀ other otherDeployment,
      Deployment.checked crates other = .ok otherDeployment →
        (otherDeployment.ceremonyConfig crates = deployment.ceremonyConfig crates ↔
          other.ccdpOrigin = settings.ccdpOrigin ∧ other.platforms.Perm settings.platforms) :=
    fun other otherDeployment otherAccepted =>
      ceremonyConfig_eq_iff_of_checked urlLaws jsonLaws otherAccepted accepted
  refine ⟨⟨_, publishedValue_jsonToVec jsonLaws _,
    Settings.isRecordedBy_record urlLaws accepted⟩, sameBytes, ?_, ?_⟩
  · intro list otherDeployment otherAccepted
    exact (sameBytes _ otherDeployment otherAccepted).mpr ⟨rfl, .refl _⟩
  · intro tables permuted
    obtain ⟨_, _, _, _, wellFormed, _⟩ := (Deployment.checked_eq_ok_iff urlLaws).mp accepted
    obtain ⟨otherDeployment, otherAccepted⟩ :=
      Deployment.exists_checked urlLaws (wellFormed.reordered permuted)
    exact ⟨otherDeployment, otherAccepted,
      (sameBytes _ otherDeployment otherAccepted).mpr ⟨rfl, permuted⟩⟩

theorem ceremonyConfig_records_settings :
    ∃ value, publishedValue (Reference.deployment.ceremonyConfig Reference.crates) =
      some value ∧ Reference.settings.IsRecordedBy value :=
  (ceremonyConfig_records Reference.urlLaws Reference.jsonLaws Reference.checked_settings).1

end LibidBridge
