import LibidBridge.DeploymentChecked
import LibidBridge.Refresher

/-!
# Refusing to start

A deployment that is not well formed is refused with the first rule it breaks,
in the order of the file.  A refusal tells nothing of a client beyond the rule:
clients that no rule tells apart are refused alike.  A deployment that is
accepted, written back as settings, is accepted again and is the same.
-/

namespace LibidBridge

theorem bind_eq_error_iff {ε α β : Type} {first : Except ε α} {rest : α → Except ε β}
    {refusal : ε} :
    first >>= rest = .error refusal ↔
      first = .error refusal ∨ ∃ value, first = .ok value ∧ rest value = .error refusal := by
  cases first with
  | error other => simp [bind, Except.bind]
  | ok value => simp [bind, Except.bind]

/-- A list of checks is refused by the first that refuses. -/
theorem mapM_eq_error_iff {ε α β : Type} {check : α → Except ε β} {list : List α}
    {refusal : ε} :
    list.mapM check = .error refusal ↔
      ∃ before item after, list = before ++ item :: after ∧
        (∀ earlier ∈ before, ∃ value, check earlier = .ok value) ∧
        check item = .error refusal := by
  induction list with
  | nil => simp [pure, Except.pure]
  | cons head tail ih =>
      rw [List.mapM_cons, bind_eq_error_iff]
      constructor
      · rintro (refused | ⟨value, passed, refused⟩)
        · exact ⟨[], head, tail, rfl, nofun, refused⟩
        · rw [bind_eq_error_iff] at refused
          obtain later | ⟨_, _, impossible⟩ := refused
          · obtain ⟨before, item, after, rfl, passes, refused⟩ := ih.mp later
            refine ⟨head :: before, item, after, rfl, ?_, refused⟩
            exact List.forall_mem_cons.mpr ⟨⟨value, passed⟩, passes⟩
          · cases impossible
      · rintro ⟨before, item, after, split, passes, refused⟩
        cases before with
        | nil =>
            obtain ⟨rfl, rfl⟩ := List.cons.inj split
            exact Or.inl refused
        | cons first before =>
            obtain ⟨rfl, rfl⟩ := List.cons.inj split
            obtain ⟨⟨value, passed⟩, passes⟩ := List.forall_mem_cons.mp passes
            refine Or.inr ⟨value, passed, ?_⟩
            rw [bind_eq_error_iff]
            exact Or.inl (ih.mpr ⟨before, item, after, rfl, passes, refused⟩)

variable {crates : Crates}

/-- How a refusal names the entry after `before`. -/
def entryField (before : List Text) : Text :=
  "ALLOWED_APP_ORIGINS[".toList ++ Nat.toDigits 10 before.length ++ "]".toList

/-- Entries that are read and distinct. -/
structure SoundEntries (crates : Crates) (entries : List Text) : Prop where
  read : ∀ spelling ∈ entries, ∃ member, Admitted.Reads crates spelling member
  distinct : entries.Nodup

/-- The rule that the entry after `before` breaks, and the refusal told of it. -/
inductive EntryFault (crates : Crates) (before : List Text) (spelling : Text) : Error → Prop
  | blank (empty : spelling = []) :
      EntryFault crates before spelling (.config (entryField before ++ " is blank".toList))
  | unread {refusal : Error} (stated : spelling ≠ [])
      (refused : Admitted.listed crates (entryField before) spelling = .error refusal) :
      EntryFault crates before spelling refusal
  | repeated (present : spelling ∈ before) :
      EntryFault crates before spelling (.config ("ALLOWED_APP_ORIGINS names ".toList ++
        spelling ++ " more than once".toList))

/-- The first rule that an allowlist breaks. -/
inductive AllowlistFault (crates : Crates) (list : List Text) : Error → Prop
  | empty (nothing : list = []) :
      AllowlistFault crates list (.config
        ("ALLOWED_APP_ORIGINS is empty, so no application could read ".toList ++
          "the ceremony configuration".toList))
  | entry {before after : List Text} {spelling : Text} {refusal : Error}
      (stated : list = before ++ spelling :: after) (sound : SoundEntries crates before)
      (fault : EntryFault crates before spelling refusal) :
      AllowlistFault crates list refusal

namespace SoundEntries

theorem nil : SoundEntries crates [] :=
  ⟨nofun, .nil⟩

theorem of_append {before after : List Text}
    (sound : SoundEntries crates (before ++ after)) : SoundEntries crates before :=
  ⟨fun spelling present => sound.read spelling (by simp [present]),
    (List.nodup_append.mp sound.distinct).1⟩

theorem append_singleton_iff {before : List Text} {spelling : Text} :
    SoundEntries crates (before ++ [spelling]) ↔
      SoundEntries crates before ∧
        (∃ member, Admitted.Reads crates spelling member) ∧ spelling ∉ before := by
  constructor
  · intro sound
    refine ⟨sound.of_append, sound.read spelling (by simp), ?_⟩
    have distinct := sound.distinct
    rw [← List.concat_eq_append, List.nodup_concat] at distinct
    exact distinct.1
  · rintro ⟨sound, read, fresh⟩
    refine ⟨?_, ?_⟩
    · intro other present
      rcases List.mem_append.mp present with earlier | last
      · exact sound.read other earlier
      · exact List.mem_singleton.mp last ▸ read
    · rw [← List.concat_eq_append, List.nodup_concat]
      exact ⟨fresh, sound.distinct⟩

end SoundEntries

theorem soundEntries_iff {entries : List Text} :
    SoundEntries crates entries ↔
      ∃ members, List.Forall₂ (Admitted.Reads crates) entries members ∧ entries.Nodup := by
  constructor
  · intro sound
    obtain ⟨members, reads⟩ := exists_forall₂_reads sound.read
    exact ⟨members, reads, sound.distinct⟩
  · rintro ⟨members, reads, distinct⟩
    exact ⟨fun spelling present => exists_reads_of_mem reads present, distinct⟩

namespace EntryFault

variable {before : List Text} {spelling : Text}

/-- An entry breaks one rule at most, after sound ones. -/
theorem unique (laws : UrlLaws crates) (sound : SoundEntries crates before)
    {first second : Error} (firstFault : EntryFault crates before spelling first)
    (secondFault : EntryFault crates before spelling second) : first = second := by
  have unread : spelling ∈ before → spelling ≠ [] ∧
      ∀ refusal, Admitted.listed crates (entryField before) spelling ≠ .error refusal := by
    intro present
    obtain ⟨member, read⟩ := sound.read spelling present
    refine ⟨Admitted.ne_nil_of_reads laws read, fun refusal refused => ?_⟩
    rw [read] at refused
    cases refused
  cases firstFault with
  | blank empty =>
      cases secondFault with
      | blank => rfl
      | unread stated => exact absurd empty stated
      | repeated present => exact absurd empty (unread present).1
  | unread stated refused =>
      cases secondFault with
      | blank empty => exact absurd empty stated
      | unread _ again => exact Except.error.inj (refused.symm.trans again)
      | repeated present => exact absurd refused ((unread present).2 _)
  | repeated present =>
      cases secondFault with
      | blank empty => exact absurd empty (unread present).1
      | unread _ refused => exact absurd refused ((unread present).2 _)
      | repeated => rfl

/-- An entry is at fault where it would not be one more sound one. -/
theorem exists_iff (laws : UrlLaws crates) (sound : SoundEntries crates before) :
    (∃ refusal, EntryFault crates before spelling refusal) ↔
      ¬ SoundEntries crates (before ++ [spelling]) := by
  rw [SoundEntries.append_singleton_iff]
  constructor
  · rintro ⟨refusal, fault⟩ ⟨_, ⟨member, read⟩, fresh⟩
    cases fault with
    | blank empty => exact Admitted.ne_nil_of_reads laws read empty
    | unread _ refused =>
        rw [read] at refused
        cases refused
    | repeated present => exact fresh present
  · intro unsound
    by_cases empty : spelling = []
    · exact ⟨_, .blank empty⟩
    · cases listed : Admitted.listed crates (entryField before) spelling with
      | error refusal => exact ⟨refusal, .unread empty listed⟩
      | ok member =>
          have read := Admitted.reads_iff.mpr listed
          by_cases present : spelling ∈ before
          · exact ⟨_, .repeated present⟩
          · exact absurd ⟨sound, ⟨member, read⟩, present⟩ unsound

end EntryFault

section Loop

variable {before list : List Text} {out : List Admitted} {spelling : Text}
variable (laws : UrlLaws crates) (reads : List.Forall₂ (Admitted.Reads crates) before out)

include laws reads

theorem allowedAppOriginsFrom_of_fault {refusal : Error}
    (fault : EntryFault crates before spelling refusal) :
    allowedAppOriginsFrom crates before.length out (spelling :: list) = .error refusal := by
  rw [allowedAppOriginsFrom]
  cases fault with
  | blank empty =>
      rw [if_pos (by simpa using empty)]
      rfl
  | unread stated refused =>
      unfold entryField at refused
      rw [if_neg (by simpa using stated), refused]
  | repeated present =>
      obtain ⟨member, read⟩ := exists_reads_of_mem reads present
      have stated := Admitted.ne_nil_of_reads laws read
      have listed : member ∈ out := (List.rel_mem Admitted.biUnique_reads read reads).mp present
      rw [if_neg (by simpa using stated), read]
      simp [listed, Admitted.asStr_of_reads read]

theorem allowedAppOriginsFrom_of_sound {member : Admitted}
    (read : Admitted.Reads crates spelling member) (fresh : spelling ∉ before) :
    allowedAppOriginsFrom crates before.length out (spelling :: list) =
      allowedAppOriginsFrom crates (before ++ [spelling]).length (out ++ [member]) list := by
  have stated := Admitted.ne_nil_of_reads laws read
  have absent : member ∉ out := fun present =>
    fresh ((List.rel_mem Admitted.biUnique_reads read reads).mpr present)
  rw [allowedAppOriginsFrom, if_neg (by simpa using stated), read]
  simp [absent]

/-- What the loop over the allowlist refuses, after the entries in `before`. -/
theorem allowedAppOriginsFrom_eq_error_iff (distinct : before.Nodup) {refusal : Error} :
    allowedAppOriginsFrom crates before.length out list = .error refusal ↔
      (before ++ list = [] ∧ refusal = .config
        ("ALLOWED_APP_ORIGINS is empty, so no application could read ".toList ++
          "the ceremony configuration".toList)) ∨
        ∃ middle spelling after, list = middle ++ spelling :: after ∧
          SoundEntries crates (before ++ middle) ∧
          EntryFault crates (before ++ middle) spelling refusal := by
  have sound : SoundEntries crates before := soundEntries_iff.mpr ⟨out, reads, distinct⟩
  induction list generalizing before out with
  | nil =>
      rw [allowedAppOriginsFrom]
      cases reads with
      | nil => simp [eq_comm]
      | cons head rest => simp
  | cons spelling list ih =>
      have nonempty : before ++ spelling :: list ≠ [] := by simp
      simp only [nonempty, false_and, false_or]
      by_cases whole : SoundEntries crates (before ++ [spelling])
      · obtain ⟨_, ⟨member, read⟩, fresh⟩ := SoundEntries.append_singleton_iff.mp whole
        have grown : List.Forall₂ (Admitted.Reads crates) (before ++ [spelling])
            (out ++ [member]) :=
          List.rel_append reads (.cons read .nil)
        rw [allowedAppOriginsFrom_of_sound laws reads read fresh]
        refine (ih grown whole.distinct whole).trans ?_
        have some : before ++ [spelling] ++ list ≠ [] := by simp
        simp only [some, false_and, false_or]
        constructor
        · rintro ⟨middle, found, after, rfl, entries, fault⟩
          exact ⟨spelling :: middle, found, after, rfl, by simpa using entries,
            by simpa using fault⟩
        · rintro ⟨middle, found, after, stated, entries, fault⟩
          cases middle with
          | nil =>
              obtain ⟨rfl, rfl⟩ := List.cons.inj stated
              rw [List.append_nil] at fault
              exact absurd whole ((EntryFault.exists_iff laws sound).mp ⟨_, fault⟩)
          | cons first middle =>
              obtain ⟨rfl, rfl⟩ := List.cons.inj stated
              exact ⟨middle, found, after, rfl, by simpa using entries, by simpa using fault⟩
      · obtain ⟨other, fault⟩ := (EntryFault.exists_iff laws sound).mpr whole
        rw [allowedAppOriginsFrom_of_fault laws reads fault]
        constructor
        · intro refused
          cases refused
          exact ⟨[], spelling, list, rfl, by simpa using sound, by simpa using fault⟩
        · rintro ⟨middle, found, after, stated, entries, found_fault⟩
          cases middle with
          | nil =>
              obtain ⟨rfl, rfl⟩ := List.cons.inj stated
              rw [List.append_nil] at found_fault
              rw [EntryFault.unique laws sound fault found_fault]
          | cons first middle =>
              obtain ⟨rfl, rfl⟩ := List.cons.inj stated
              rw [List.append_cons] at entries
              exact absurd entries.of_append whole

end Loop

/-- An allowlist is refused with the first rule it breaks. -/
theorem allowedAppOrigins_eq_error_iff (laws : UrlLaws crates) {list : List Text}
    {refusal : Error} :
    allowedAppOrigins crates list = .error refusal ↔ AllowlistFault crates list refusal := by
  rw [allowedAppOrigins]
  refine (allowedAppOriginsFrom_eq_error_iff laws .nil .nil).trans ?_
  simp only [List.nil_append]
  constructor
  · rintro (⟨nothing, rfl⟩ | ⟨middle, spelling, after, stated, sound, fault⟩)
    · exact .empty nothing
    · exact .entry stated sound fault
  · intro fault
    cases fault with
    | empty nothing => exact Or.inl ⟨nothing, rfl⟩
    | entry stated sound fault => exact Or.inr ⟨_, _, _, stated, sound, fault⟩

/-- The first rule that an enabled set breaks: that there is one, that no
platform comes twice, and then the rules of each table. -/
inductive PlatformsFault (profiles : List PlatformProfile) : Error → Prop
  | empty (nothing : profiles = []) :
      PlatformsFault profiles (.config
        ("platforms: no platform is enabled; add a [[platforms]] table to ".toList ++
          "the configuration file".toList))
  | repeated {before after : List PlatformProfile} {profile : PlatformProfile}
      (stated : profiles = before ++ profile :: after)
      (first : ∀ earlier ∈ before, (profiles.map PlatformProfile.id).count earlier.id = 1)
      (again : profile.id ∈ after.map PlatformProfile.id) :
      PlatformsFault profiles (.config
        ("platforms: ".toList ++ profile.id.toText ++ " appears more than once".toList))
  | table {before after : List PlatformProfile} {profile : PlatformProfile} {refusal : Error}
      (distinct : (profiles.map PlatformProfile.id).Nodup)
      (stated : profiles = before ++ profile :: after)
      (sound : ∀ earlier ∈ before, earlier.WellFormed)
      (refused : profile.checked = .error refusal) :
      PlatformsFault profiles refusal

/-- Another table of an id is found where the id is counted twice. -/
private theorem isSome_second_iff {profiles : List PlatformProfile} {id : PlatformId} :
    (profiles.filter fun other => other.id = id)[1]?.isSome = true ↔
      1 < (profiles.map PlatformProfile.id).count id := by
  have counted : (profiles.filter fun other => other.id = id).length =
      (profiles.map PlatformProfile.id).count id := by
    rw [← List.countP_eq_length_filter, List.count, List.countP_map]
    rfl
  simp [← counted]

/-- The table found to come twice: the first whose id does. -/
private theorem find_second_eq_some_iff {profiles : List PlatformProfile}
    {profile : PlatformProfile} :
    (profiles.find? fun profile =>
        (profiles.filter fun other => other.id = profile.id)[1]?.isSome) = some profile ↔
      ∃ before after, profiles = before ++ profile :: after ∧
        (∀ earlier ∈ before, (profiles.map PlatformProfile.id).count earlier.id = 1) ∧
        profile.id ∈ after.map PlatformProfile.id := by
  rw [List.find?_eq_some_iff_append]
  constructor
  · rintro ⟨twice, before, after, stated, first⟩
    have once : ∀ earlier ∈ before,
        (profiles.map PlatformProfile.id).count earlier.id = 1 := by
      intro earlier member
      have unfound := mt isSome_second_iff.mpr (by simpa using first earlier member)
      have present : 0 < (profiles.map PlatformProfile.id).count earlier.id :=
        List.count_pos_iff.mpr (List.mem_map_of_mem (by simp [stated, member]))
      omega
    refine ⟨before, after, stated, once, ?_⟩
    have more := isSome_second_iff.mp twice
    have unstated : (before.map PlatformProfile.id).count profile.id = 0 := by
      apply List.count_eq_zero_of_not_mem
      intro present
      obtain ⟨earlier, member, same⟩ := List.mem_map.mp present
      have counted := once earlier member
      rw [same] at counted
      omega
    rw [stated, List.map_append, List.map_cons, List.count_append, unstated,
      List.count_cons_self] at more
    exact List.count_pos_iff.mp (by omega)
  · rintro ⟨before, after, stated, first, again⟩
    have more := List.count_pos_iff.mpr again
    refine ⟨isSome_second_iff.mpr ?_, before, after, stated, ?_⟩
    · rw [stated, List.map_append, List.map_cons, List.count_append, List.count_cons_self]
      omega
    · intro earlier member
      have unfound := mt (@isSome_second_iff profiles earlier.id).mp
        (by rw [first earlier member]; omega)
      simpa using unfound

/-- An enabled set is refused with the first rule it breaks. -/
theorem platforms_eq_error_iff {profiles : List PlatformProfile} {refusal : Error} :
    platforms profiles = .error refusal ↔ PlatformsFault profiles refusal := by
  unfold platforms
  split_ifs with empty
  · have nothing : profiles = [] := by simpa using empty
    constructor
    · intro refused
      cases refused
      exact .empty nothing
    · intro fault
      cases fault with
      | empty => rfl
      | repeated stated => simp [nothing] at stated
      | table _ stated => simp [nothing] at stated
  · have some : profiles ≠ [] := by simpa using empty
    split
    · next profile found =>
        have repeated := find_second_eq_some_iff.mp found
        constructor
        · intro refused
          cases refused
          obtain ⟨before, after, stated, first, again⟩ := repeated
          exact .repeated stated first again
        · intro fault
          cases fault with
          | empty nothing => exact absurd nothing some
          | repeated stated first again =>
              have same := find_second_eq_some_iff.mpr ⟨_, _, stated, first, again⟩
              cases found.symm.trans same
              rfl
          | table distinct =>
              rw [find_second_eq_none_iff.mpr distinct] at found
              cases found
    · next unfound =>
        have distinct := find_second_eq_none_iff.mp unfound
        rw [mapM_eq_error_iff]
        constructor
        · rintro ⟨before, profile, after, stated, passes, refused⟩
          refine .table distinct stated (fun earlier member => ?_) refused
          obtain ⟨result, passed⟩ := passes earlier member
          exact (PlatformProfile.checked_eq_ok_iff.mp passed).1
        · intro fault
          cases fault with
          | empty nothing => exact absurd nothing some
          | repeated stated first again =>
              rw [find_second_eq_some_iff.mpr ⟨_, _, stated, first, again⟩] at unfound
              cases unfound
          | table _ stated sound refused =>
              refine ⟨_, _, _, stated, fun earlier member => ⟨earlier, ?_⟩, refused⟩
              exact PlatformProfile.checked_eq_ok_iff.mpr ⟨sound earlier member, rfl⟩

/-- The first thing that was not well formed: the CCDP origin, the allowlist,
the enabled set, or the host of the CCDP origin. -/
inductive StartFault (crates : Crates) (settings : Settings) : Error → Prop
  | ccdpOrigin {refusal : Error}
      (refused : Origin.listed crates "CCDP_ORIGIN".toList settings.ccdpOrigin =
        .error refusal) :
      StartFault crates settings refusal
  | allowlist {origin : Origin} {refusal : Error}
      (listed : Origin.listed crates "CCDP_ORIGIN".toList settings.ccdpOrigin = .ok origin)
      (fault : AllowlistFault crates settings.allowedAppOrigins refusal) :
      StartFault crates settings refusal
  | platforms {origin : Origin} {refusal : Error}
      (listed : Origin.listed crates "CCDP_ORIGIN".toList settings.ccdpOrigin = .ok origin)
      (stated : settings.allowedAppOrigins ≠ [])
      (sound : SoundEntries crates settings.allowedAppOrigins)
      (fault : PlatformsFault settings.platforms refusal) :
      StartFault crates settings refusal
  | upstream {origin : Origin} {refusal : Error}
      (listed : Origin.listed crates "CCDP_ORIGIN".toList settings.ccdpOrigin = .ok origin)
      (wellFormed : settings.WellFormed crates)
      (refused : Upstream.new crates origin = .error refusal) :
      StartFault crates settings refusal

theorem Deployment.checked_eq_error_iff (laws : UrlLaws crates) {settings : Settings}
    {refusal : Error} :
    Deployment.checked crates settings = .error refusal ↔
      Origin.listed crates "CCDP_ORIGIN".toList settings.ccdpOrigin = .error refusal ∨
        ∃ origin,
          Origin.listed crates "CCDP_ORIGIN".toList settings.ccdpOrigin = .ok origin ∧
          (AllowlistFault crates settings.allowedAppOrigins refusal ∨
            settings.allowedAppOrigins ≠ [] ∧
              SoundEntries crates settings.allowedAppOrigins ∧
              PlatformsFault settings.platforms refusal) := by
  simp only [Deployment.checked, bind_eq_error_iff, allowedAppOrigins_eq_error_iff laws,
    allowedAppOrigins_eq_ok_iff laws, platforms_eq_error_iff, soundEntries_iff]
  constructor
  · rintro (refused | ⟨origin, listed, fault | ⟨members, ⟨reads, distinct, some⟩, fault⟩⟩)
    · exact Or.inl refused
    · exact Or.inr ⟨origin, listed, Or.inl fault⟩
    · obtain fault | ⟨_, _, impossible⟩ := fault
      · exact Or.inr ⟨origin, listed, Or.inr ⟨some, ⟨members, reads, distinct⟩, fault⟩⟩
      · cases impossible
  · rintro (refused | ⟨origin, listed, fault | ⟨some, ⟨members, reads, distinct⟩, fault⟩⟩)
    · exact Or.inl refused
    · exact Or.inr ⟨origin, listed, Or.inl fault⟩
    · exact Or.inr ⟨origin, listed, Or.inr ⟨members, ⟨reads, distinct, some⟩, Or.inl fault⟩⟩

/-- A bridge does not start exactly where something is not well formed, and the
refusal is the first thing that was not: the entry or table it names is the
first at fault, and everything before it is sound. -/
theorem Bridge.start_refused_iff (laws : UrlLaws crates) {settings : Settings}
    {refusal : Error} :
    Bridge.start crates settings = .error refusal ↔ StartFault crates settings refusal := by
  rw [Bridge.start, bind_eq_error_iff, Deployment.checked_eq_error_iff laws]
  constructor
  · rintro ((refused | ⟨origin, listed, fault | ⟨some, sound, fault⟩⟩) |
      ⟨deployment, accepted, refused⟩)
    · exact .ccdpOrigin refused
    · exact .allowlist listed fault
    · exact .platforms listed some sound fault
    · obtain ⟨origin, members, listed, _, wellFormed, rfl⟩ :=
        (Deployment.checked_eq_ok_iff laws).mp accepted
      rw [bind_eq_error_iff] at refused
      obtain refused | ⟨_, _, impossible⟩ := refused
      · exact .upstream listed wellFormed refused
      · cases impossible
  · intro fault
    cases fault with
    | ccdpOrigin refused => exact Or.inl (Or.inl refused)
    | allowlist listed fault => exact Or.inl (Or.inr ⟨_, listed, Or.inl fault⟩)
    | platforms listed some sound fault =>
        exact Or.inl (Or.inr ⟨_, listed, Or.inr ⟨some, sound, fault⟩⟩)
    | upstream listed wellFormed refused =>
        obtain ⟨deployment, accepted⟩ := Deployment.exists_checked laws wellFormed
        obtain ⟨other, _, again, _, _, same⟩ := (Deployment.checked_eq_ok_iff laws).mp accepted
        cases listed.symm.trans again
        refine Or.inr ⟨deployment, accepted, bind_eq_error_iff.mpr (Or.inl ?_)⟩
        rw [same]
        exact refused

namespace Reference

/-- Settings whose allowlist names an origin twice. -/
def repeating : Settings :=
  { settings with
    allowedAppOrigins := settings.allowedAppOrigins ++ ["https://app.example.com".toList] }

theorem checked_repeating :
    Deployment.checked Reference.crates repeating = .error
      (.config "ALLOWED_APP_ORIGINS names https://app.example.com more than once".toList) := by
  decide +kernel

end Reference

theorem Bridge.start_refused_repeating :
    StartFault Reference.crates Reference.repeating
      (.config "ALLOWED_APP_ORIGINS names https://app.example.com more than once".toList) :=
  (Bridge.start_refused_iff Reference.urlLaws).mp
    (bind_eq_error_iff.mpr (Or.inl Reference.checked_repeating))

/-- Texts that no rule bounded by `longest` tells apart. -/
structure AlikeTexts (longest : Nat) (first second : Text) : Prop where
  empty : first = [] ↔ second = []
  printable : printableWithoutWhitespace first = printableWithoutWhitespace second
  longer : longest < (Text.bytes first).length ↔ longest < (Text.bytes second).length

/-- Tables of one platform whose clients no rule tells apart. -/
structure PlatformProfile.Alike (first second : PlatformProfile) : Prop where
  id : first.id = second.id
  clientId : AlikeTexts first.id.maxClientIdBytes first.clientId second.clientId
  quoted : '"' ∈ first.clientId ↔ '"' ∈ second.clientId
  credential : Option.Rel (AlikeTexts MAX_CLIENT_CREDENTIAL_BYTES) first.clientCredential
    second.clientCredential

/-- Settings that differ in their clients alone, which no rule tells apart. -/
structure Settings.Alike (first second : Settings) : Prop where
  allowedAppOrigins : first.allowedAppOrigins = second.allowedAppOrigins
  ccdpOrigin : first.ccdpOrigin = second.ccdpOrigin
  platforms : List.Forall₂ PlatformProfile.Alike first.platforms second.platforms

theorem AlikeTexts.symm {longest : Nat} {first second : Text}
    (alike : AlikeTexts longest first second) : AlikeTexts longest second first :=
  ⟨alike.empty.symm, alike.printable.symm, alike.longer.symm⟩

namespace PlatformProfile

variable {first second : PlatformProfile}

theorem Alike.symm (alike : first.Alike second) : second.Alike first := by
  refine ⟨alike.id.symm, alike.id ▸ alike.clientId.symm, alike.quoted.symm, ?_⟩
  have related := alike.credential
  generalize first.clientCredential = carried, second.clientCredential = other at related
  cases related with
  | none => exact .none
  | some texts => exact .some texts.symm

/-- Tables that are alike are refused alike. -/
theorem checked_eq_error_iff_of_alike (alike : first.Alike second) {refusal : Error} :
    first.checked = .error refusal ↔ second.checked = .error refusal := by
  have stated : first.clientId.isEmpty = second.clientId.isEmpty := by
    rw [Bool.eq_iff_iff, List.isEmpty_iff, List.isEmpty_iff, alike.clientId.empty]
  have longer := alike.clientId.longer
  rw [alike.id] at longer
  unfold checked
  simp only [stated, alike.clientId.printable, alike.id, longer, alike.quoted]
  have related := alike.credential
  generalize first.clientCredential = carried, second.clientCredential = other at related
  cases related with
  | none =>
      cases second.id.sendsACredential with
      | true => rfl
      | false => split_ifs <;> simp
  | some texts =>
      cases second.id.sendsACredential with
      | true =>
          simp only [texts.empty, texts.printable, texts.longer]
          split_ifs <;> simp
      | false => rfl

theorem wellFormed_iff_not_refused {profile : PlatformProfile} :
    profile.WellFormed ↔ ∀ refusal, profile.checked ≠ .error refusal := by
  constructor
  · intro wellFormed refusal refused
    rw [checked_eq_ok_iff.mpr ⟨wellFormed, rfl⟩] at refused
    cases refused
  · intro unrefused
    cases checks : profile.checked with
    | error refusal => exact absurd checks (unrefused refusal)
    | ok result => exact (checked_eq_ok_iff.mp checks).1

theorem Alike.wellFormed (alike : first.Alike second) (wellFormed : first.WellFormed) :
    second.WellFormed := by
  rw [wellFormed_iff_not_refused] at wellFormed ⊢
  exact fun refusal refused =>
    wellFormed refusal ((checked_eq_error_iff_of_alike alike).mpr refused)

end PlatformProfile

/-- Lists related entry by entry are split alike. -/
theorem exists_split_of_forall₂ {α β : Type*} {related : α → β → Prop} {before after : List α}
    {item : α} {list : List β} (all : List.Forall₂ related (before ++ item :: after) list) :
    ∃ left other right, list = left ++ other :: right ∧ List.Forall₂ related before left ∧
      related item other ∧ List.Forall₂ related after right := by
  induction before generalizing list with
  | nil =>
      obtain ⟨other, right, head, rest, rfl⟩ := List.forall₂_cons_left_iff.mp all
      exact ⟨[], other, right, rfl, .nil, head, rest⟩
  | cons first before ih =>
      obtain ⟨image, list, head, rest, rfl⟩ := List.forall₂_cons_left_iff.mp all
      obtain ⟨left, other, right, rfl, earlier, same, later⟩ := ih rest
      exact ⟨image :: left, other, right, rfl, .cons head earlier, same, later⟩

section Tables

variable {first second : List PlatformProfile}
variable (alike : List.Forall₂ PlatformProfile.Alike first second)

include alike

theorem ids_of_alike : first.map PlatformProfile.id = second.map PlatformProfile.id := by
  induction alike with
  | nil => rfl
  | cons head _ ih => rw [List.map_cons, List.map_cons, head.id, ih]

theorem wellFormed_of_alike (sound : ∀ profile ∈ first, profile.WellFormed) :
    ∀ profile ∈ second, profile.WellFormed := by
  induction alike with
  | nil => exact nofun
  | cons head _ ih =>
      obtain ⟨one, rest⟩ := List.forall_mem_cons.mp sound
      exact List.forall_mem_cons.mpr ⟨head.wellFormed one, ih rest⟩

theorem PlatformsFault.of_alike {refusal : Error} (fault : PlatformsFault first refusal) :
    PlatformsFault second refusal := by
  have ids := ids_of_alike alike
  cases fault with
  | empty nothing =>
      subst nothing
      cases alike
      exact .empty rfl
  | @repeated before after profile stated earlier again =>
      subst stated
      obtain ⟨left, other, right, rfl, leftAlike, same, rightAlike⟩ :=
        exists_split_of_forall₂ alike
      rw [same.id]
      refine .repeated rfl (fun table member => ?_) ?_
      · have mapped : table.id ∈ before.map PlatformProfile.id := by
          rw [ids_of_alike leftAlike]
          exact List.mem_map_of_mem member
        obtain ⟨matching, present, matched⟩ := List.mem_map.mp mapped
        rw [← ids, ← matched]
        exact earlier matching present
      · rw [← ids_of_alike rightAlike, ← same.id]
        exact again
  | table distinct stated sound refused =>
      subst stated
      obtain ⟨left, other, right, rfl, leftAlike, same, _⟩ := exists_split_of_forall₂ alike
      refine .table (ids ▸ distinct) rfl (wellFormed_of_alike leftAlike sound) ?_
      exact (PlatformProfile.checked_eq_error_iff_of_alike same).mp refused

end Tables

namespace Settings

variable {first second : Settings}

theorem Alike.symm (alike : first.Alike second) : second.Alike first where
  allowedAppOrigins := alike.allowedAppOrigins.symm
  ccdpOrigin := alike.ccdpOrigin.symm
  platforms := List.Forall₂.flip (alike.platforms.imp fun _ _ same => same.symm)

theorem Alike.wellFormed (alike : first.Alike second) (wellFormed : first.WellFormed crates) :
    second.WellFormed crates where
  ccdpOrigin := alike.ccdpOrigin ▸ wellFormed.ccdpOrigin
  allowedNonempty := alike.allowedAppOrigins ▸ wellFormed.allowedNonempty
  allowedRead := alike.allowedAppOrigins ▸ wellFormed.allowedRead
  allowedDistinct := alike.allowedAppOrigins ▸ wellFormed.allowedDistinct
  platformsNonempty := by
    intro nothing
    have related := alike.platforms
    rw [nothing, List.forall₂_nil_right_iff] at related
    exact wellFormed.platformsNonempty related
  platformsDistinct := ids_of_alike alike.platforms ▸ wellFormed.platformsDistinct
  platformsRead := wellFormed_of_alike alike.platforms wellFormed.platformsRead

end Settings

theorem StartFault.of_alike {first second : Settings} (alike : first.Alike second)
    {refusal : Error} (fault : StartFault crates first refusal) :
    StartFault crates second refusal := by
  cases fault with
  | ccdpOrigin refused => exact .ccdpOrigin (alike.ccdpOrigin ▸ refused)
  | allowlist listed fault =>
      exact .allowlist (alike.ccdpOrigin ▸ listed) (alike.allowedAppOrigins ▸ fault)
  | platforms listed stated sound fault =>
      exact .platforms (alike.ccdpOrigin ▸ listed) (alike.allowedAppOrigins ▸ stated)
        (alike.allowedAppOrigins ▸ sound) (fault.of_alike alike.platforms)
  | upstream listed wellFormed refused =>
      exact .upstream (alike.ccdpOrigin ▸ listed) (alike.wellFormed wellFormed) refused

/-- A refusal never tells a client id or a credential: settings whose clients
no rule tells apart are refused alike, or both start. -/
theorem Bridge.refusal_tells_no_client (laws : UrlLaws crates) {first second : Settings}
    (alike : first.Alike second) (refusal : Error) :
    Bridge.start crates first = .error refusal ↔
      Bridge.start crates second = .error refusal := by
  rw [Bridge.start_refused_iff laws, Bridge.start_refused_iff laws]
  exact ⟨StartFault.of_alike alike, StartFault.of_alike alike.symm⟩

namespace Reference

/-- Settings with one platform, run by one client. -/
def enabling (clientId : Text) : Settings :=
  { settings with platforms := [⟨.google, clientId, none⟩] }

end Reference

theorem Bridge.refusal_tells_no_client_spaced :
    Bridge.start Reference.crates (Reference.enabling "one client".toList) =
        .error (.config ("platforms: google's client_id is not printable ASCII ".toList ++
          "without whitespace".toList)) ↔
      Bridge.start Reference.crates (Reference.enabling "the other one".toList) =
        .error (.config ("platforms: google's client_id is not printable ASCII ".toList ++
          "without whitespace".toList)) :=
  Bridge.refusal_tells_no_client Reference.urlLaws
    ⟨rfl, rfl, .cons ⟨rfl, ⟨by decide, by decide, by decide⟩, by decide, .none⟩ .nil⟩ _

/-- The settings that state a deployment as it is. -/
def Deployment.settings (deployment : Deployment) : Settings where
  allowedAppOrigins := deployment.allowedOrigins.map Admitted.asStr
  ccdpOrigin := deployment.ccdpOrigin.asStr
  platforms := deployment.platforms

/-- What an accepted deployment admits, spelled out, is read as it was. -/
theorem Deployment.reads_of_checked (laws : UrlLaws crates) {settings : Settings}
    {deployment : Deployment} (accepted : Deployment.checked crates settings = .ok deployment) :
    Origin.listed crates "CCDP_ORIGIN".toList deployment.ccdpOrigin.asStr =
        .ok deployment.ccdpOrigin ∧
      List.Forall₂ (Admitted.Reads crates)
        (deployment.allowedOrigins.map Admitted.asStr) deployment.allowedOrigins ∧
      deployment.ccdpOrigin.asStr ∈ deployment.allowedOrigins.map Admitted.asStr ∧
      (deployment.allowedOrigins.map Admitted.asStr).Nodup := by
  obtain ⟨origin, members, listed, reads, wellFormed, rfl⟩ := (checked_eq_ok_iff laws).mp accepted
  have spelled := Origin.asStr_of_listed listed
  have exact : Admitted.Reads crates origin.asStr (.exact origin) := by
    rw [spelled]
    exact Admitted.reads_iff.mpr (Admitted.listed_exact_of_origin laws listed)
  have spellings := map_asStr_of_reads reads
  dsimp only
  rw [withCcdpOrigin_of_reads reads origin]
  refine ⟨by rwa [spelled], ?_⟩
  split_ifs with present
  · rw [List.append_nil, spellings]
    exact ⟨reads, present, wellFormed.allowedDistinct⟩
  · rw [List.map_append, spellings]
    refine ⟨List.rel_append reads (.cons exact .nil), by simp [Admitted.asStr], ?_⟩
    rw [List.map_singleton, ← List.concat_eq_append, List.nodup_concat]
    exact ⟨present, wellFormed.allowedDistinct⟩

/-- An accepted deployment written back as settings is accepted as it is, and
starts the same bridge. -/
theorem Bridge.start_settings_of_checked (laws : UrlLaws crates) {settings : Settings}
    {deployment : Deployment} (accepted : Deployment.checked crates settings = .ok deployment) :
    Deployment.checked crates deployment.settings = .ok deployment ∧
      Bridge.start crates deployment.settings = Bridge.start crates settings := by
  obtain ⟨listed, reads, joined, distinct⟩ := Deployment.reads_of_checked laws accepted
  obtain ⟨_, _, _, _, wellFormed, given⟩ := (Deployment.checked_eq_ok_iff laws).mp accepted
  have platforms : deployment.settings.platforms = settings.platforms := by
    rw [given]
    rfl
  have again : Deployment.checked crates deployment.settings = .ok deployment := by
    refine (Deployment.checked_eq_ok_iff laws).mpr
      ⟨deployment.ccdpOrigin, deployment.allowedOrigins, listed, reads, ?_, ?_⟩
    · exact
        { ccdpOrigin := ⟨_, listed⟩
          allowedNonempty := List.ne_nil_of_mem joined
          allowedRead := fun spelling present => exists_reads_of_mem reads present
          allowedDistinct := distinct
          platformsNonempty := platforms ▸ wellFormed.platformsNonempty
          platformsDistinct := platforms ▸ wellFormed.platformsDistinct
          platformsRead := platforms ▸ wellFormed.platformsRead }
    · rw [withCcdpOrigin_of_reads reads, if_pos joined, List.append_nil]
      rfl
  exact ⟨again, by rw [Bridge.start, Bridge.start, again, accepted]⟩

theorem Bridge.start_settings_of_checked_reference :
    Deployment.checked Reference.crates Reference.deployment.settings =
        .ok Reference.deployment ∧
      Bridge.start Reference.crates Reference.deployment.settings =
        Bridge.start Reference.crates Reference.settings :=
  Bridge.start_settings_of_checked Reference.urlLaws Reference.checked_settings

end LibidBridge
