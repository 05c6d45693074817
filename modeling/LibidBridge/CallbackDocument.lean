import LibidBridge.JsonIsland
import LibidBridge.PolicyReading
import LibidBridge.TextMatches

/-!
# The callback document

One artifact configured with the deployment's data, and the response it is
served as: the marker is replaced by an escaped JSON list, and the policy is
composed around the script hashes the artifact arrived with.
-/

namespace LibidBridge

structure DeploymentInputs where
  ccdpOrigin : Origin
  allowedOrigins : List Admitted

/-- The finished document: the exact bytes, and the policy they are served
under. -/
structure CallbackDocument where
  body : Bytes
  csp : HeaderValue
  deriving DecidableEq

/-- A composed document and the validator it was retrieved under, published as
one unit. -/
structure Published where
  document : CallbackDocument
  etag : Option Text
  deriving DecidableEq

variable (crates : Crates)

/-- The list that goes in place of the marker: `[allowedOrigins, ccdpOrigin]`. -/
def DeploymentInputs.record (inputs : DeploymentInputs) : Json :=
  .arr [.arr (inputs.allowedOrigins.map fun member => .str member.asStr),
    .str inputs.ccdpOrigin.asStr]

namespace CallbackDocument

/-- Configure one artifact and compose the response it is served as. -/
def compose (html : Text) (hashes : List Text) (inputs : DeploymentInputs) :
    Except ArtifactError CallbackDocument :=
  let markers := Matches.count MARKER html
  if markers ≠ 1 then .error (.markers markers)
  else
    let body := Matches.replace MARKER (json crates inputs.record) html
    let csp := LibidBridge.policy hashes
    match crates.headerFromStr csp with
    | .error detail => .error (.policy (crates.debug csp ++ ": ".toList ++ detail))
    | .ok value => .ok ⟨Text.bytes body, value⟩

variable {crates}

/-- What a composed document is: the artifact with its one marker replaced,
and no marker on either side of it, under the policy composed around the
hashes. -/
theorem exists_free_of_compose {html : Text} {hashes : List Text} {inputs : DeploymentInputs}
    {document : CallbackDocument}
    (composed : compose crates html hashes inputs = .ok document) :
    ∃ before after, html = before ++ MARKER ++ after ∧
      (∀ position, ¬ Matches.OccursAt MARKER before position) ∧
      (∀ position, ¬ Matches.OccursAt MARKER after position) ∧
      document.body = Text.bytes (before ++ json crates inputs.record ++ after) ∧
      crates.headerFromStr (LibidBridge.policy hashes) = .ok document.csp := by
  unfold compose at composed
  dsimp only at composed
  split_ifs at composed with once
  have nonempty : MARKER ≠ [] := by decide
  obtain ⟨before, after, split, beforeFree, afterFree, replaced⟩ :=
    Matches.exists_free_split_of_count_one nonempty (not_not.mp once)
  cases header : crates.headerFromStr (LibidBridge.policy hashes) with
  | error detail => simp [header] at composed
  | ok value =>
      rw [header] at composed
      cases composed
      exact ⟨before, after, split, beforeFree, afterFree, by rw [replaced], rfl⟩

theorem exists_of_compose {html : Text} {hashes : List Text} {inputs : DeploymentInputs}
    {document : CallbackDocument}
    (composed : compose crates html hashes inputs = .ok document) :
    ∃ before after, html = before ++ MARKER ++ after ∧
      document.body = Text.bytes (before ++ json crates inputs.record ++ after) ∧
      crates.headerFromStr (LibidBridge.policy hashes) = .ok document.csp := by
  obtain ⟨before, after, split, -, -, body, csp⟩ := exists_free_of_compose composed
  exact ⟨before, after, split, body, csp⟩

/-- Where the hashes are hashes, composing never fails for its policy. -/
theorem compose_ne_policy (laws : HeaderLaws crates) {html : Text} {hashes : List Text}
    {inputs : DeploymentInputs} (nonempty : hashes ≠ [])
    (valid : ∀ source ∈ hashes, isHash source = true) (why : Text) :
    compose crates html hashes inputs ≠ .error (.policy why) := by
  have header := headerFromStr_policy laws nonempty valid
  unfold compose
  dsimp only
  split_ifs with markers
  · simp
  · simp [header]

end CallbackDocument

end LibidBridge
