import LibidBridge.CallbackDocument
import LibidBridge.PatternAdmission

/-!
# Substituting for the marker

How often the marker is counted and how often it occurs, and what a document
holds once its marker is replaced.  Two occurrences of the marker can share one
or two underscores, and only such a pair is counted once.
-/

namespace LibidBridge

open Matches

/-- The marker ends as it begins in one way only: in its last two underscores,
or the last one of them. -/
theorem marker_borders {shift : Nat} (positive : 0 < shift) (inside : shift < MARKER.length)
    (border : MARKER.drop shift <+: MARKER) : shift = 23 ∨ shift = 24 := by
  have borders : ∀ shift < MARKER.length, 0 < shift → MARKER.drop shift <+: MARKER →
      shift = 23 ∨ shift = 24 := by decide +kernel
  exact borders shift inside positive border

/-- The marker occurs twice, and the second occurrence begins before the first
one ends. -/
def IsOverlappingPair (html : Text) : Prop :=
  ∃ first second, first < second ∧ second < first + MARKER.length ∧
    ∀ position, OccursAt MARKER html position ↔ position = first ∨ position = second

theorem marker_ne_nil : MARKER ≠ [] := by
  decide

theorem count_marker_of_existsUnique {html : Text}
    (unique : ∃! position, OccursAt MARKER html position) : count MARKER html = 1 := by
  obtain ⟨first, occurs, only⟩ := unique
  refine (count_eq_one_iff marker_ne_nil).mpr ⟨first, occurs, fun position later => ?_⟩
  have : 0 < MARKER.length := by decide
  rw [only position later]
  omega

theorem count_marker_of_isOverlappingPair {html : Text} (pair : IsOverlappingPair html) :
    count MARKER html = 1 ∧ ¬ ∃! position, OccursAt MARKER html position := by
  obtain ⟨first, second, before, overlap, occurs⟩ := pair
  constructor
  · refine (count_eq_one_iff marker_ne_nil).mpr
      ⟨first, (occurs first).mpr (Or.inl rfl), fun position later => ?_⟩
    rcases (occurs position).mp later with rfl | rfl <;> omega
  · rintro ⟨only, _, unique⟩
    have atFirst := unique first ((occurs first).mpr (Or.inl rfl))
    have atSecond := unique second ((occurs second).mpr (Or.inr rfl))
    omega

/-- A marker that is counted once occurs once, or twice with an overlap: a
third occurrence would stand one letter from the second. -/
theorem existsUnique_or_isOverlappingPair {html : Text} (once : count MARKER html = 1) :
    (∃! position, OccursAt MARKER html position) ∨ IsOverlappingPair html := by
  obtain ⟨first, occurs, overlapping⟩ := (count_eq_one_iff marker_ne_nil).mp once
  have shifts : ∀ position, OccursAt MARKER html position →
      position = first ∨ position = first + 23 ∨ position = first + 24 := by
    intro position later
    obtain ⟨after, within⟩ := overlapping position later
    by_cases same : position = first
    · exact Or.inl same
    · right
      have again : OccursAt MARKER html (first + (position - first)) := by
        rwa [Nat.add_sub_of_le after]
      have shift := marker_borders (by omega) (by omega) (drop_prefix_of_occursAt occurs again)
      omega
  by_cases second : ∃ position, OccursAt MARKER html position ∧ position ≠ first
  · right
    obtain ⟨position, later, distinct⟩ := second
    have place := shifts position later
    have within := overlapping position later
    refine ⟨first, position, by omega, within.2, fun other => ?_⟩
    constructor
    · intro found
      have otherPlace := shifts other found
      by_contra neither
      have adjacent : (other = first + 23 ∧ position = first + 23 + 1) ∨
          (position = first + 23 ∧ other = first + 23 + 1) := by omega
      have unbordered : ¬ MARKER.drop 1 <+: MARKER := by decide
      rcases adjacent with ⟨rfl, rfl⟩ | ⟨rfl, rfl⟩
      · exact unbordered (drop_prefix_of_occursAt found later)
      · exact unbordered (drop_prefix_of_occursAt later found)
    · rintro (rfl | rfl)
      · exact occurs
      · exact later
  · left
    refine ⟨first, occurs, fun position later => ?_⟩
    by_contra distinct
    exact second ⟨position, later, distinct⟩

namespace CallbackDocument

theorem compose_ne_markers_iff {crates : Crates} {html : Text} {hashes : List Text}
    {inputs : DeploymentInputs} :
    (∀ markers, compose crates html hashes inputs ≠ .error (.markers markers)) ↔
      count MARKER html = 1 := by
  unfold compose
  dsimp only
  split_ifs with several
  · simp [several]
  · simp only [not_not.mp several, iff_true]
    intro markers
    cases crates.headerFromStr (LibidBridge.policy hashes) <;> simp

/-- The marker check passes exactly the documents with one occurrence, except
that it also passes those whose two occurrences overlap. -/
theorem one_marker_iff_not_overlapping (crates : Crates) (html : Text) (hashes : List Text)
    (inputs : DeploymentInputs) :
    ((∀ markers, compose crates html hashes inputs ≠ .error (.markers markers)) ↔
      ∃! position, OccursAt MARKER html position) ↔ ¬ IsOverlappingPair html := by
  rw [compose_ne_markers_iff]
  constructor
  · intro agrees pair
    obtain ⟨once, notUnique⟩ := count_marker_of_isOverlappingPair pair
    exact notUnique (agrees.mp once)
  · intro apart
    constructor
    · intro once
      exact (existsUnique_or_isOverlappingPair once).resolve_right apart
    · exact count_marker_of_existsUnique

/-- Two markers that share two underscores are filled in as one. -/
theorem shared_underscores_pass :
    ¬ ((∀ markers, compose Reference.crates
        "__LIBID_CALLBACK_CONFIG__LIBID_CALLBACK_CONFIG__".toList ["'sha256-AAAA'".toList]
        ⟨⟨"https://ccdp.example".toList⟩, [.exact ⟨"https://ccdp.example".toList⟩]⟩ ≠
          .error (.markers markers)) ↔
      ∃! position, OccursAt MARKER
        "__LIBID_CALLBACK_CONFIG__LIBID_CALLBACK_CONFIG__".toList position) := by
  rw [compose_ne_markers_iff]
  intro agrees
  obtain ⟨only, _, unique⟩ := agrees.mp (by decide +kernel)
  have atStart := unique 0 (by decide +kernel)
  have atEnd := unique 23 (by decide +kernel)
  omega

end CallbackDocument

/-- A letter that no escape and no structure of a JSON text is written with. -/
def IsBeyondHex (letter : Char) : Prop :=
  0x47 ≤ letter.toNat ∧ letter.toNat ≤ 0x5A

instance (letter : Char) : Decidable (IsBeyondHex letter) :=
  inferInstanceAs (Decidable (_ ∧ _))

theorem not_isBeyondHex_of_shortEscape {marker letter : Char}
    (escapes : Json.shortEscape marker = some letter) : ¬ IsBeyondHex marker := by
  unfold Json.shortEscape at escapes
  split_ifs at escapes with h h h h h h h h <;> subst h <;> decide

section Letters

variable {letter : Char} (beyond : IsBeyondHex letter)

include beyond

theorem ne_of_isBeyondHex {other : Char} (outside : ¬ IsBeyondHex other) : letter ≠ other := by
  rintro rfl
  exact outside beyond

theorem notMem_spelling {other : Char} {written : Text} (spelled : Json.Spelling other written)
    (distinct : letter ≠ other) : letter ∉ written := by
  have notHex : ∀ {digits value}, Json.readHex digits = some (value, []) → letter ∉ digits := by
    intro digits value read member
    have ranges := Json.hexValue_isSome_iff.mp
      (Json.hexValue_isSome_of_readHex read letter member)
    unfold IsBeyondHex at beyond
    omega
  have notBackslash : letter ≠ '\\' := ne_of_isBeyondHex beyond (by decide)
  have notUnit : letter ≠ 'u' := ne_of_isBeyondHex beyond (by decide)
  cases spelled with
  | plain => simpa using distinct
  | @short marker escapes =>
      have notMarker : letter ≠ marker :=
        ne_of_isBeyondHex beyond (not_isBeyondHex_of_shortEscape escapes)
      simp [notBackslash, notMarker]
  | unit value => simp [notBackslash, notUnit, notHex value]
  | pair firstValue secondValue =>
      simp [notBackslash, notUnit, notHex firstValue, notHex secondValue]

theorem notMem_letters {value text : Text} (letters : Json.Letters Json.Spelling value text)
    (missing : letter ∉ value) : letter ∉ text := by
  induction letters with
  | nil => simp
  | cons head _ ih =>
      rw [List.mem_cons, not_or] at missing
      rw [List.mem_append, not_or]
      exact ⟨notMem_spelling beyond head missing.1, ih missing.2⟩

theorem notMem_str {value text : Text}
    (spells : Json.Spells Json.Spelling (.value (.str value)) text)
    (missing : letter ∉ value) : letter ∉ text := by
  have notQuote : letter ≠ '"' := ne_of_isBeyondHex beyond (by decide)
  cases spells with
  | str letters => simp [notQuote, notMem_letters beyond letters missing]

theorem notMem_items {values : List Text} {text : Text}
    (spells : Json.Spells Json.Spelling (.items (values.map Json.str)) text)
    (missing : ∀ value ∈ values, letter ∉ value) : letter ∉ text := by
  have notComma : letter ≠ ',' := ne_of_isBeyondHex beyond (by decide)
  induction values generalizing text with
  | nil => cases spells
  | cons value values ih =>
      rw [List.forall_mem_cons] at missing
      rw [List.map_cons] at spells
      generalize itemsEq : values.map Json.str = items at spells
      cases spells with
      | lastItem head => exact notMem_str beyond head missing.1
      | item head tail =>
          subst itemsEq
          simp [notComma, notMem_str beyond head missing.1, ih tail missing.2]

theorem notMem_arr {values : List Text} {text : Text}
    (spells : Json.Spells Json.Spelling (.value (.arr (values.map Json.str))) text)
    (missing : ∀ value ∈ values, letter ∉ value) : letter ∉ text := by
  have notOpen : letter ≠ '[' := ne_of_isBeyondHex beyond (by decide)
  have notClose : letter ≠ ']' := ne_of_isBeyondHex beyond (by decide)
  generalize itemsEq : values.map Json.str = items at spells
  cases spells with
  | emptyArr => simp [notOpen, notClose]
  | arr inner =>
      subst itemsEq
      simp [notOpen, notClose, notMem_items beyond inner missing]

/-- The inserted list is written in brackets, and holds the letter between
them only where a member or the Distribution's origin does. -/
theorem exists_inner_of_spells_record {inputs : DeploymentInputs} {text : Text}
    (spells : Json.Spells Json.Spelling (.value inputs.record) text)
    (membersMissing : ∀ member ∈ inputs.allowedOrigins, letter ∉ member.asStr)
    (originMissing : letter ∉ inputs.ccdpOrigin.asStr) :
    ∃ inner, text = '[' :: inner ++ [']'] ∧ letter ∉ inner := by
  have notComma : letter ≠ ',' := ne_of_isBeyondHex beyond (by decide)
  have record : inputs.record = .arr [.arr ((inputs.allowedOrigins.map Admitted.asStr).map
      Json.str), .str inputs.ccdpOrigin.asStr] := by
    simp [DeploymentInputs.record, Function.comp_def]
  rw [record] at spells
  cases spells with
  | @arr _ inner items =>
      refine ⟨inner, rfl, ?_⟩
      cases items with
      | item first rest =>
          have members := notMem_arr beyond first (by simpa using membersMissing)
          cases rest with
          | lastItem last => simp [notComma, members, notMem_str beyond last originMissing]
          | item _ none => cases none

end Letters

/-- Deployment data whose origin and members were read from spellings. -/
def DeploymentInputs.IsListed (crates : Crates) (inputs : DeploymentInputs) : Prop :=
  (∃ field spelling, Origin.listed crates field spelling = .ok inputs.ccdpOrigin) ∧
    ∀ member ∈ inputs.allowedOrigins,
      ∃ field spelling, Admitted.listed crates field spelling = .ok member

/-- The inserted list is fenced by brackets and holds no capital L. -/
theorem exists_inner_of_isListed {crates : Crates} (urlLaws : UrlLaws crates)
    (hostLaws : HostLaws crates) (jsonLaws : JsonLaws crates) {inputs : DeploymentInputs}
    (listed : inputs.IsListed crates) :
    ∃ inner, json crates inputs.record = '[' :: inner ++ [']'] ∧ 'L' ∉ inner := by
  have capital : ∀ {text : Text}, (∀ letter ∈ text, letter.isUpper = false) → 'L' ∉ text :=
    fun lower member => absurd (lower 'L' member) (by decide)
  have spells := (spells_json jsonLaws inputs.record).mono fun _ _ spelled => spelled.1
  refine exists_inner_of_spells_record (by decide) spells ?_ ?_
  · intro member inMembers
    obtain ⟨field, spelling, accepted⟩ := listed.2 member inMembers
    rw [Admitted.asStr_of_listed accepted]
    exact capital (Admitted.lowercase_of_listed urlLaws hostLaws accepted)
  · obtain ⟨field, spelling, accepted⟩ := listed.1
    obtain ⟨_, _, _, parts⟩ := Origin.exists_isOriginSpelling urlLaws hostLaws accepted
    rw [Origin.asStr_of_listed accepted]
    exact capital parts.lowercase

/-- Composing replaces the marker by the deployment's list, leaves every other
letter of the artifact in place, and leaves no marker in the served bytes:
neither in the list nor across its ends. -/
theorem marker_substituted_and_absent {crates : Crates} (urlLaws : UrlLaws crates)
    (hostLaws : HostLaws crates) (jsonLaws : JsonLaws crates) {html : Text}
    {hashes : List Text} {inputs : DeploymentInputs} {document : CallbackDocument}
    (listed : inputs.IsListed crates)
    (composed : CallbackDocument.compose crates html hashes inputs = .ok document) :
    ∃ before after, html = before ++ MARKER ++ after ∧
      document.body = Text.bytes (before ++ json crates inputs.record ++ after) ∧
        ∀ position, ¬ OccursAt (Text.bytes MARKER) document.body position := by
  obtain ⟨before, after, split, beforeFree, afterFree, body, _⟩ :=
    CallbackDocument.exists_free_of_compose composed
  refine ⟨before, after, split, body, fun position occurs => ?_⟩
  obtain ⟨inner, fenced, missing⟩ :=
    exists_inner_of_isListed urlLaws hostLaws jsonLaws listed
  have innerFree : ∀ place, ¬ OccursAt MARKER inner place :=
    not_occursAt_of_notMem (by decide : 'L' ∈ MARKER) missing
  rw [body, fenced] at occurs
  obtain ⟨place, found⟩ := exists_occursAt_of_bytes (by decide) marker_ne_nil occurs
  exact not_occursAt_fenced (by decide) (by decide) beforeFree innerFree afterFree place found

def Reference.inputs : DeploymentInputs where
  ccdpOrigin := ⟨"https://ccdp.example".toList⟩
  allowedOrigins := [.exact ⟨"https://ccdp.example".toList⟩,
    .pattern ⟨"*.handles.link".toList⟩, .every]

theorem Reference.isListed_inputs : Reference.inputs.IsListed Reference.crates := by
  have distribution : Origin.listed Reference.crates [] "https://ccdp.example".toList =
      .ok ⟨"https://ccdp.example".toList⟩ := by decide +kernel
  have exact : Admitted.listed Reference.crates [] "https://ccdp.example".toList =
      .ok (.exact ⟨"https://ccdp.example".toList⟩) := by decide +kernel
  have suffixed : Admitted.listed Reference.crates [] "*.handles.link".toList =
      .ok (.pattern ⟨"*.handles.link".toList⟩) := by decide +kernel
  refine ⟨⟨_, _, distribution⟩, fun member inMembers => ?_⟩
  rcases List.mem_cons.mp inMembers with rfl | inMembers
  · exact ⟨_, _, exact⟩
  rcases List.mem_cons.mp inMembers with rfl | inMembers
  · exact ⟨_, _, suffixed⟩
  · obtain rfl := List.mem_singleton.mp inMembers
    exact ⟨[], _, if_pos rfl⟩

theorem marker_substituted_and_absent_members :
    ∃ document, CallbackDocument.compose Reference.crates ("<p>".toList ++ MARKER)
        ["'sha256-AAAA'".toList] Reference.inputs = .ok document ∧
      ∃ before after, "<p>".toList ++ MARKER = before ++ MARKER ++ after ∧
        document.body =
          Text.bytes (before ++ json Reference.crates Reference.inputs.record ++ after) ∧
        ∀ position, ¬ OccursAt (Text.bytes MARKER) document.body position := by
  obtain ⟨document, composed⟩ := exists_of_toOption_isSome
    (by decide +kernel : (CallbackDocument.compose Reference.crates ("<p>".toList ++ MARKER)
      ["'sha256-AAAA'".toList] Reference.inputs).toOption.isSome = true)
  exact ⟨document, composed, marker_substituted_and_absent Reference.urlLaws
    Reference.hostLaws Reference.jsonLaws Reference.isListed_inputs composed⟩

end LibidBridge
