import LibidBridge.Deployment
import LibidBridge.ReferenceCrates

/-!
# The deployments that are accepted

The rules of a deployment stated on their own, apart from the order in which
they are checked, and the equivalence of the check with them: what is accepted
is exactly what is well formed, and nothing of it is changed.
-/

namespace LibidBridge

/-- A public client text: nonempty, printable ASCII without whitespace, and at
most `longest` bytes. -/
structure IsClientText (longest : Nat) (value : Text) : Prop where
  nonempty : value ≠ []
  printable : ∀ byte ∈ Text.bytes value, 0x21 ≤ byte ∧ byte ≤ 0x7E
  bounded : (Text.bytes value).length ≤ longest

/-- The rules of one platform table. -/
structure PlatformProfile.WellFormed (profile : PlatformProfile) : Prop where
  clientId : IsClientText 512 profile.clientId
  audience : profile.id = .google →
    (Text.bytes profile.clientId).length ≤ 128 ∧ '"' ∉ profile.clientId
  credentialIff : profile.clientCredential.isSome ↔ profile.id = .github
  credential : ∀ value, profile.clientCredential = some value → IsClientText 512 value

/-- `spelling` is read as `member`, whichever field it stands in. -/
def Admitted.Reads (crates : Crates) (spelling : Text) (member : Admitted) : Prop :=
  ∀ field, Admitted.listed crates field spelling = .ok member

/-- The rules of a deployment. -/
structure Settings.WellFormed (crates : Crates) (settings : Settings) : Prop where
  ccdpOrigin : ∃ origin,
    Origin.listed crates "CCDP_ORIGIN".toList settings.ccdpOrigin = .ok origin
  allowedNonempty : settings.allowedAppOrigins ≠ []
  allowedRead : ∀ spelling ∈ settings.allowedAppOrigins,
    ∃ member, Admitted.Reads crates spelling member
  allowedDistinct : settings.allowedAppOrigins.Nodup
  platformsNonempty : settings.platforms ≠ []
  platformsDistinct : (settings.platforms.map PlatformProfile.id).Nodup
  platformsRead : ∀ profile ∈ settings.platforms, profile.WellFormed

theorem printableWithoutWhitespace_eq_true_iff {value : Text} :
    printableWithoutWhitespace value = true ↔
      ∀ byte ∈ Text.bytes value, 0x21 ≤ byte ∧ byte ≤ 0x7E := by
  simp [printableWithoutWhitespace]

namespace PlatformProfile

private theorem clientId_rules_iff (profile : PlatformProfile) :
    (¬ profile.id.maxClientIdBytes < (Text.bytes profile.clientId).length ∧
        ¬ (profile.id.audienceBytes.isSome ∧ '"' ∈ profile.clientId)) ↔
      (Text.bytes profile.clientId).length ≤ 512 ∧
        (profile.id = .google →
          (Text.bytes profile.clientId).length ≤ 128 ∧ '"' ∉ profile.clientId) := by
  cases profile.id with
  | google =>
      simp only [PlatformId.maxClientIdBytes, PlatformId.audienceBytes, Option.getD_some,
        MAX_GOOGLE_CLIENT_ID_BYTES, Option.isSome_some, true_and, forall_const, not_lt]
      exact ⟨fun both => ⟨by omega, both⟩, fun both => both.2⟩
  | x | github =>
      simp [PlatformId.maxClientIdBytes, PlatformId.audienceBytes, MAX_CLIENT_ID_BYTES]

private theorem credential_rules_iff (value : Text) :
    (¬ value = [] ∧ ¬ printableWithoutWhitespace value = false ∧
        ¬ MAX_CLIENT_CREDENTIAL_BYTES < (Text.bytes value).length) ↔
      IsClientText 512 value := by
  rw [Bool.not_eq_false, printableWithoutWhitespace_eq_true_iff, not_lt]
  exact ⟨fun rules => ⟨rules.1, rules.2.1, rules.2.2⟩,
    fun client => ⟨client.nonempty, client.printable, client.bounded⟩⟩

theorem checked_eq_ok_iff {profile result : PlatformProfile} :
    profile.checked = .ok result ↔ profile.WellFormed ∧ result = profile := by
  have idRules := clientId_rules_iff profile
  unfold checked
  dsimp only
  constructor
  · intro accepted
    split_ifs at accepted with emptyId plainId longId quotedId
    obtain ⟨bounded, audience⟩ := idRules.mp ⟨longId, quotedId⟩
    have clientId : IsClientText 512 profile.clientId :=
      ⟨by simpa using emptyId,
        printableWithoutWhitespace_eq_true_iff.mp (by simpa using plainId), bounded⟩
    cases sends : profile.id.sendsACredential with
    | false =>
        have other : profile.id ≠ .github := by
          rintro isGithub
          simp [isGithub, PlatformId.sendsACredential] at sends
        cases carried : profile.clientCredential with
        | none =>
            simp only [sends, carried, Except.ok.injEq] at accepted
            exact ⟨⟨clientId, audience, by simp [carried, other], by simp [carried]⟩,
              accepted.symm⟩
        | some value => simp [sends, carried] at accepted
    | true =>
        have isGithub : profile.id = .github := by
          cases found : profile.id <;> simp [found, PlatformId.sendsACredential] at sends ⊢
        cases carried : profile.clientCredential with
        | none => simp [sends, carried] at accepted
        | some value =>
            simp only [sends, carried] at accepted
            split_ifs at accepted with emptyValue plainValue longValue
            have client := (credential_rules_iff value).mp ⟨emptyValue, plainValue, longValue⟩
            exact ⟨⟨clientId, audience, by simp [carried, isGithub],
              by simpa [carried] using client⟩, (Except.ok.inj accepted).symm⟩
  · rintro ⟨wellFormed, rfl⟩
    obtain ⟨clientId, audience, credentialIff, credential⟩ := wellFormed
    obtain ⟨short, unquoted⟩ := idRules.mpr ⟨clientId.bounded, audience⟩
    have plain := printableWithoutWhitespace_eq_true_iff.mpr clientId.printable
    rw [if_neg (by simpa using clientId.nonempty), if_neg (by simp [plain]), if_neg short,
      if_neg unquoted]
    cases carried : result.clientCredential with
    | none =>
        have other : result.id ≠ .github := by simpa [carried] using credentialIff
        cases found : result.id <;> simp [found, PlatformId.sendsACredential] at other ⊢
    | some value =>
        have isGithub : result.id = .github := by simpa [carried] using credentialIff
        obtain ⟨full, plainValue, shortValue⟩ :=
          (credential_rules_iff value).mpr (credential value carried)
        simp only [isGithub, PlatformId.sendsACredential, if_neg full, if_neg plainValue,
          if_neg shortValue]

end PlatformProfile

/-- No scan finds a second table of one id exactly where the ids are distinct. -/
theorem find_second_eq_none_iff {profiles : List PlatformProfile} :
    (profiles.find? fun profile =>
        (profiles.filter fun other => other.id = profile.id)[1]?.isSome) = none ↔
      (profiles.map PlatformProfile.id).Nodup := by
  have length_filter : ∀ id : PlatformId,
      (profiles.filter fun other => other.id = id).length =
        (profiles.map PlatformProfile.id).count id := by
    intro id
    rw [← List.countP_eq_length_filter, List.count, List.countP_map]
    rfl
  rw [List.find?_eq_none, List.nodup_iff_count_le_one]
  constructor
  · intro once id
    by_cases present : id ∈ profiles.map PlatformProfile.id
    · obtain ⟨profile, member, rfl⟩ := List.mem_map.mp present
      simpa [← length_filter] using once profile member
    · simp [List.count_eq_zero_of_not_mem present]
  · intro once profile member
    simpa [length_filter] using once profile.id

private theorem mapM_checked_eq_ok_iff {profiles result : List PlatformProfile} :
    profiles.mapM PlatformProfile.checked = .ok result ↔
      (∀ profile ∈ profiles, profile.WellFormed) ∧ result = profiles := by
  induction profiles generalizing result with
  | nil => simp [pure, Except.pure, eq_comm]
  | cons profile profiles ih =>
      simp only [List.mapM_cons, bind_eq_ok_iff, PlatformProfile.checked_eq_ok_iff, ih,
        List.forall_mem_cons]
      constructor
      · rintro ⟨_, ⟨wellFormed, rfl⟩, _, ⟨others, rfl⟩, same⟩
        exact ⟨⟨wellFormed, others⟩, (Except.ok.inj same).symm⟩
      · rintro ⟨⟨wellFormed, others⟩, rfl⟩
        exact ⟨profile, ⟨wellFormed, rfl⟩, profiles, ⟨others, rfl⟩, rfl⟩

theorem platforms_eq_ok_iff {profiles result : List PlatformProfile} :
    platforms profiles = .ok result ↔
      profiles ≠ [] ∧ (profiles.map PlatformProfile.id).Nodup ∧
        (∀ profile ∈ profiles, profile.WellFormed) ∧ result = profiles := by
  unfold platforms
  split_ifs with empty
  · simp [show profiles = [] by simpa using empty]
  · split
    · next profile found =>
        have repeated : ¬ (profiles.map PlatformProfile.id).Nodup := fun distinct => by
          rw [find_second_eq_none_iff.mpr distinct] at found
          cases found
        simp [repeated]
    · next unfound =>
        have distinct := find_second_eq_none_iff.mp unfound
        rw [mapM_checked_eq_ok_iff]
        simp [distinct, show profiles ≠ [] by simpa using empty]

variable {crates : Crates}

theorem Admitted.reads_iff {field spelling : Text} {member : Admitted} :
    Admitted.Reads crates spelling member ↔
      Admitted.listed crates field spelling = .ok member :=
  ⟨fun reads => reads field, fun accepted _ => Admitted.listed_field accepted⟩

theorem Admitted.asStr_of_reads {spelling : Text} {member : Admitted}
    (reads : Admitted.Reads crates spelling member) : member.asStr = spelling :=
  Admitted.asStr_of_listed (reads [])

theorem Admitted.ne_nil_of_reads (laws : UrlLaws crates) {spelling : Text}
    {member : Admitted} (reads : Admitted.Reads crates spelling member) :
    spelling ≠ [] := by
  rintro rfl
  have accepted := reads []
  have blank : Admitted.listed crates [] [] = (Origin.listed crates [] []).map .exact := rfl
  rw [blank] at accepted
  cases read : Origin.listed crates [] [] with
  | error refusal => simp [read, Except.map] at accepted
  | ok origin => exact Origin.ne_nil_of_listed laws read rfl

theorem map_asStr_of_reads {list : List Text} {members : List Admitted}
    (reads : List.Forall₂ (Admitted.Reads crates) list members) :
    members.map Admitted.asStr = list := by
  induction reads with
  | nil => rfl
  | cons head _ ih => rw [List.map_cons, Admitted.asStr_of_reads head, ih]

theorem exists_reads_of_mem {list : List Text} {members : List Admitted}
    (reads : List.Forall₂ (Admitted.Reads crates) list members) {spelling : Text}
    (present : spelling ∈ list) : ∃ member, Admitted.Reads crates spelling member := by
  induction reads with
  | nil => cases present
  | cons head _ ih =>
      rcases List.mem_cons.mp present with rfl | later
      · exact ⟨_, head⟩
      · exact ih later

theorem exists_forall₂_reads {list : List Text}
    (readable : ∀ spelling ∈ list, ∃ member, Admitted.Reads crates spelling member) :
    ∃ members, List.Forall₂ (Admitted.Reads crates) list members := by
  induction list with
  | nil => exact ⟨[], .nil⟩
  | cons spelling list ih =>
      obtain ⟨member, head⟩ := readable spelling (by simp)
      obtain ⟨members, rest⟩ := ih fun other otherMem => readable other (by simp [otherMem])
      exact ⟨member :: members, .cons head rest⟩

theorem Admitted.biUnique_reads : Relator.BiUnique (Admitted.Reads crates) := by
  constructor
  · intro first second member readsFirst readsSecond
    rw [← Admitted.asStr_of_reads readsFirst, Admitted.asStr_of_reads readsSecond]
  · intro spelling first second readsFirst readsSecond
    exact Except.ok.inj ((readsFirst []).symm.trans (readsSecond []))

/-- Distinct items outside a list, met one by one: the first joins the list the
others are outside of. -/
private theorem fresh_cons_iff {α : Type*} {head : α} {tail out : List α} :
    ((head :: tail).Nodup ∧ ∀ item ∈ head :: tail, item ∉ out) ↔
      head ∉ out ∧ tail.Nodup ∧ ∀ item ∈ tail, item ∉ out ++ [head] := by
  simp only [List.nodup_cons, List.forall_mem_cons, List.mem_append, List.mem_singleton,
    not_or]
  constructor
  · rintro ⟨⟨notLater, distinct⟩, headFresh, tailFresh⟩
    refine ⟨headFresh, distinct, fun item later => ⟨tailFresh item later, ?_⟩⟩
    rintro rfl
    exact notLater later
  · rintro ⟨headFresh, distinct, tailFresh⟩
    refine ⟨⟨fun later => ?_, distinct⟩, headFresh, fun item later => (tailFresh item later).1⟩
    exact (tailFresh head later).2 rfl

/-- What the loop over the allowlist accepts, after the members in `out`. -/
theorem allowedAppOriginsFrom_eq_ok_iff (laws : UrlLaws crates) {index : Nat}
    {out result : List Admitted} {list : List Text} :
    allowedAppOriginsFrom crates index out list = .ok result ↔
      ∃ members, List.Forall₂ (Admitted.Reads crates) list members ∧
        (members.Nodup ∧ ∀ member ∈ members, member ∉ out) ∧
        result ≠ [] ∧ result = out ++ members := by
  induction list generalizing index out with
  | nil =>
      unfold allowedAppOriginsFrom
      split_ifs with empty
      · have nothing : out = [] := by simpa using empty
        simp [nothing]
      · have something : out ≠ [] := by simpa using empty
        simp only [Except.ok.injEq, List.forall₂_nil_left_iff]
        constructor
        · rintro rfl
          exact ⟨[], rfl, by simp, something, by simp⟩
        · rintro ⟨_, rfl, _, _, rfl⟩
          simp
  | cons spelling list ih =>
      unfold allowedAppOriginsFrom
      dsimp only
      split_ifs with blank
      · refine ⟨nofun, ?_⟩
        rintro ⟨members, reads, _⟩
        obtain ⟨member, rest, head, _, rfl⟩ := List.forall₂_cons_left_iff.mp reads
        exact absurd (by simpa using blank) (Admitted.ne_nil_of_reads laws head)
      · cases listed : Admitted.listed crates
            ("ALLOWED_APP_ORIGINS[".toList ++ Nat.toDigits 10 index ++ "]".toList)
            spelling with
        | error refusal =>
            refine ⟨nofun, ?_⟩
            rintro ⟨members, reads, _⟩
            obtain ⟨member, rest, head, _, rfl⟩ := List.forall₂_cons_left_iff.mp reads
            rw [head] at listed
            cases listed
        | ok member =>
            have head := Admitted.reads_iff.mpr listed
            dsimp only
            split_ifs with duplicate
            · refine ⟨nofun, ?_⟩
              rintro ⟨members, reads, ⟨_, fresh⟩, _⟩
              obtain ⟨other, rest, otherReads, _, rfl⟩ := List.forall₂_cons_left_iff.mp reads
              cases Admitted.biUnique_reads.2 head otherReads
              exact fresh member (by simp) duplicate
            · rw [ih]
              constructor
              · rintro ⟨rest, reads, fresh, nonempty, rfl⟩
                exact ⟨member :: rest, .cons head reads, fresh_cons_iff.mpr ⟨duplicate, fresh⟩,
                  nonempty, by simp⟩
              · rintro ⟨members, reads, fresh, nonempty, rfl⟩
                obtain ⟨other, rest, otherReads, restReads, rfl⟩ :=
                  List.forall₂_cons_left_iff.mp reads
                cases Admitted.biUnique_reads.2 head otherReads
                exact ⟨rest, restReads, (fresh_cons_iff.mp fresh).2, nonempty, by simp⟩

theorem allowedAppOrigins_eq_ok_iff (laws : UrlLaws crates) {list : List Text}
    {members : List Admitted} :
    allowedAppOrigins crates list = .ok members ↔
      List.Forall₂ (Admitted.Reads crates) list members ∧ list.Nodup ∧ list ≠ [] := by
  rw [allowedAppOrigins, allowedAppOriginsFrom_eq_ok_iff laws]
  constructor
  · rintro ⟨_, reads, ⟨distinct, _⟩, nonempty, rfl⟩
    refine ⟨by simpa using reads, (List.rel_nodup Admitted.biUnique_reads reads).mpr distinct, ?_⟩
    rintro rfl
    cases reads
    exact nonempty rfl
  · rintro ⟨reads, distinct, nonempty⟩
    refine ⟨members, reads,
      ⟨(List.rel_nodup Admitted.biUnique_reads reads).mp distinct, by simp⟩, ?_, by simp⟩
    rintro rfl
    cases reads
    exact nonempty rfl

/-- The check of a deployment, rule by rule. -/
theorem Deployment.checked_eq_ok_iff (laws : UrlLaws crates) {settings : Settings}
    {deployment : Deployment} :
    Deployment.checked crates settings = .ok deployment ↔
      ∃ origin members,
        Origin.listed crates "CCDP_ORIGIN".toList settings.ccdpOrigin = .ok origin ∧
        List.Forall₂ (Admitted.Reads crates) settings.allowedAppOrigins members ∧
        settings.WellFormed crates ∧
        deployment = ⟨origin, withCcdpOrigin members origin, settings.platforms⟩ := by
  simp only [Deployment.checked, bind_eq_ok_iff, allowedAppOrigins_eq_ok_iff laws,
    platforms_eq_ok_iff]
  constructor
  · rintro ⟨origin, listed, members, ⟨reads, distinct, nonempty⟩, _,
      ⟨someEnabled, idsDistinct, enabled, rfl⟩, same⟩
    refine ⟨origin, members, listed, reads, ?_, (Except.ok.inj same).symm⟩
    exact
      { ccdpOrigin := ⟨origin, listed⟩
        allowedNonempty := nonempty
        allowedRead := fun spelling member => exists_reads_of_mem reads member
        allowedDistinct := distinct
        platformsNonempty := someEnabled
        platformsDistinct := idsDistinct
        platformsRead := enabled }
  · rintro ⟨origin, members, listed, reads, wellFormed, rfl⟩
    exact ⟨origin, listed, members,
      ⟨reads, wellFormed.allowedDistinct, wellFormed.allowedNonempty⟩, settings.platforms,
      ⟨wellFormed.platformsNonempty, wellFormed.platformsDistinct, wellFormed.platformsRead,
        rfl⟩, rfl⟩

/-- The literal spelling decides whether the CCDP origin joins the set. -/
theorem withCcdpOrigin_of_reads {list : List Text} {members : List Admitted}
    (reads : List.Forall₂ (Admitted.Reads crates) list members) (origin : Origin) :
    withCcdpOrigin members origin =
      members ++ if origin.asStr ∈ list then [] else [.exact origin] := by
  have spelled : (members.any fun member => member.asStr = origin.asStr) = true ↔
      origin.asStr ∈ list := by
    rw [← map_asStr_of_reads reads]
    simp
  unfold withCcdpOrigin
  simp only [spelled]
  split_ifs with listed
  · rw [List.append_nil]
  · rfl

theorem Deployment.exists_checked (laws : UrlLaws crates) {settings : Settings}
    (wellFormed : settings.WellFormed crates) :
    ∃ deployment, Deployment.checked crates settings = .ok deployment := by
  obtain ⟨origin, listed⟩ := wellFormed.ccdpOrigin
  obtain ⟨members, reads⟩ := exists_forall₂_reads wellFormed.allowedRead
  exact ⟨_, (checked_eq_ok_iff laws).mpr ⟨origin, members, listed, reads, wellFormed, rfl⟩⟩

/-- Exactly the well-formed deployments are accepted, and nothing in them is
changed: the allowlist keeps its order and spelling, the CCDP origin follows
it where no member spells it, and the platforms are the ones given. -/
theorem Deployment.checked_iff_wellFormed (laws : UrlLaws crates) (settings : Settings) :
    ((∃ deployment, Deployment.checked crates settings = .ok deployment) ↔
      settings.WellFormed crates) ∧
    ∀ deployment, Deployment.checked crates settings = .ok deployment →
      deployment.ccdpOrigin.asStr = settings.ccdpOrigin ∧
      (∃ members, List.Forall₂ (Admitted.Reads crates) settings.allowedAppOrigins members ∧
        deployment.allowedOrigins = members ++
          if settings.ccdpOrigin ∈ settings.allowedAppOrigins then []
          else [.exact deployment.ccdpOrigin]) ∧
      deployment.allowedOrigins.map Admitted.asStr = settings.allowedAppOrigins ++
        (if settings.ccdpOrigin ∈ settings.allowedAppOrigins then []
          else [settings.ccdpOrigin]) ∧
      deployment.platforms = settings.platforms := by
  constructor
  · constructor
    · rintro ⟨deployment, accepted⟩
      obtain ⟨_, _, _, _, wellFormed, _⟩ := (checked_eq_ok_iff laws).mp accepted
      exact wellFormed
    · exact exists_checked laws
  · intro deployment accepted
    obtain ⟨origin, members, listed, reads, _, rfl⟩ := (checked_eq_ok_iff laws).mp accepted
    have spelled := Origin.asStr_of_listed listed
    have joined := withCcdpOrigin_of_reads reads origin
    rw [spelled] at joined
    refine ⟨spelled, ⟨members, reads, joined⟩, ?_, rfl⟩
    rw [joined, List.map_append, map_asStr_of_reads reads]
    split_ifs
    · rfl
    · simp [Admitted.asStr, spelled]

namespace Reference

/-- An allowlist of an origin and a pattern, and two platforms. -/
def settings : Settings where
  allowedAppOrigins := ["https://app.example.com".toList, "*.handles.link".toList]
  ccdpOrigin := "https://lib.id".toList
  platforms :=
    [⟨.github, "Iv1.0123".toList, some "secret".toList⟩,
      ⟨.google, "client.apps.example".toList, none⟩]

def deployment : Deployment where
  ccdpOrigin := ⟨"https://lib.id".toList⟩
  allowedOrigins :=
    [.exact ⟨"https://app.example.com".toList⟩, .pattern ⟨"*.handles.link".toList⟩,
      .exact ⟨"https://lib.id".toList⟩]
  platforms := settings.platforms

theorem checked_settings : Deployment.checked Reference.crates settings = .ok deployment := by
  decide +kernel

end Reference

theorem Deployment.wellFormed_of_checked_settings :
    Reference.settings.WellFormed Reference.crates :=
  (Deployment.checked_iff_wellFormed Reference.urlLaws Reference.settings).1.mp
    ⟨Reference.deployment, Reference.checked_settings⟩

end LibidBridge
