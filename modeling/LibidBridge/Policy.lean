import LibidBridge.Crates
import LibidBridge.Origin

/-!
# The response policy of a callback document

The script hashes an artifact's own policy names, and the policy this bridge
composes around them.
-/

namespace LibidBridge

/-- The marker the build leaves for deployment data. -/
def MARKER : Text :=
  "__LIBID_CALLBACK_CONFIG__".toList

def MAX_ARTIFACT_BYTES : Nat :=
  4 * 1024 * 1024

/-- Why an artifact was refused. -/
inductive ArtifactError
  | markers (count : Nat)
  | upstreamPolicy (why : Text)
  | policy (why : Text)
  deriving DecidableEq

def isAsciiAlphanumeric (byte : UInt8) : Bool :=
  isAsciiLowercase byte || (0x41 ≤ byte && byte ≤ 0x5A) || isAsciiDigit byte

/-- A byte of a digest in base64 or base64url, padding included. -/
def isDigestByte (byte : UInt8) : Bool :=
  isAsciiAlphanumeric byte || (Text.bytes "+/=-_".toList).contains byte

/-- Whether `source` is a CSP hash source expression. -/
def isHash (source : Text) : Bool :=
  match "'".toList.isPrefixOf? source with
  | none => false
  | some rest =>
      match "'".toList.isSuffixOf? rest with
      | none => false
      | some digest =>
          match Text.splitOnce '-' digest with
          | none => false
          | some (algorithm, digest) =>
              if ["sha256".toList, "sha384".toList, "sha512".toList].any
                  (Text.eqIgnoreAsciiCase algorithm) = false then false
              else !digest.isEmpty && (Text.bytes digest).all isDigestByte

/-- The script hashes an artifact's own policy names. -/
def scriptHashes (policy : Text) : Except ArtifactError (List Text) :=
  let refuse (why : Text) : Except ArtifactError (List Text) :=
    .error (.upstreamPolicy why)
  let named (directive : Text) : Bool :=
    (Text.splitWhitespace directive).head?.any
      (Text.eqIgnoreAsciiCase · "script-src".toList)
  match (policy.splitOn ';').find? named with
  | none => refuse "names no script-src".toList
  | some directive =>
      let hashes := (Text.splitWhitespace directive).drop 1
      if hashes.isEmpty then refuse "names a script-src with no source".toList
      else
        match hashes.find? fun source => !isHash source with
        | some source =>
            refuse ("names the script source ".toList ++ source ++ ", and not a hash".toList)
        | none => .ok hashes

/-- The response policy: the same directives for every deployment, with the
script hashes the artifact arrived with as its only script sources. -/
def policy (hashes : List Text) : Text :=
  "; ".toList.intercalate
    ["default-src 'none'".toList,
      "object-src 'none'".toList,
      "base-uri 'none'".toList,
      "form-action 'none'".toList,
      "frame-ancestors 'none'".toList,
      "script-src ".toList ++ " ".toList.intercalate hashes,
      "style-src 'unsafe-inline'".toList,
      "frame-src 'none'".toList,
      "connect-src 'none'".toList]

/-- A letter a hash source can hold: no whitespace, no `;` and no `,`. -/
def isSourceLetter (letter : Char) : Bool :=
  letter.isAlphanum || "'+/=-_".toList.contains letter

/-- A letter of base64 or base64url, padding apart. -/
def isBase64Letter (letter : Char) : Bool :=
  letter.isAlphanum || "+/_-".toList.contains letter

/-- `sha256`, `sha384` or `sha512`, in any ASCII case. -/
def IsDigestAlgorithm (algorithm : Text) : Prop :=
  ∃ name ∈ ["sha256".toList, "sha384".toList, "sha512".toList],
    Text.eqIgnoreAsciiCase algorithm name = true

def quotedDigest (algorithm digest : Text) : Text :=
  '\'' :: (algorithm ++ '-' :: digest) ++ ['\'']

theorem toNat_of_isSourceLetter {letter : Char} (source : isSourceLetter letter = true) :
    0x21 ≤ letter.toNat ∧ letter.toNat ≤ 0x7E := by
  have code : letter.val.toNat = letter.toNat := rfl
  simp only [isSourceLetter, Bool.or_eq_true, List.contains_iff_mem] at source
  rcases source with alphanumeric | mark
  · delta Char.isAlphanum Char.isAlpha Char.isUpper Char.isLower Char.isDigit at alphanumeric
    simp only [Bool.or_eq_true, Bool.and_eq_true, decide_eq_true_eq,
      UInt32.le_iff_toNat_le, ge_iff_le, Char.reduceVal, UInt32.reduceToNat,
      code] at alphanumeric
    omega
  · have marks : ∀ other ∈ "'+/=-_".toList,
        0x21 ≤ other.toNat ∧ other.toNat ≤ 0x7E := by decide
    exact marks letter mark

theorem isAlphanum_of_toLower {letter : Char}
    (lowered : letter.toLower.isAlphanum = true) : letter.isAlphanum = true := by
  cases upper : letter.isUpper with
  | true =>
      delta Char.isAlphanum Char.isAlpha
      simp [upper]
  | false => rwa [Text.toLower_of_isUpper_eq_false upper] at lowered

theorem isAlphanum_of_algorithm {algorithm name : Text}
    (named : name ∈ ["sha256".toList, "sha384".toList, "sha512".toList])
    (same : Text.eqIgnoreAsciiCase algorithm name = true) :
    ∀ letter ∈ algorithm, letter.isAlphanum = true := by
  intro letter member
  have lowered := Text.eqIgnoreAsciiCase_iff.mp same
  have nameLowered : ∀ other ∈ name.map Char.toLower, other.isAlphanum = true := by
    simp only [List.mem_cons, List.not_mem_nil, or_false] at named
    rcases named with rfl | rfl | rfl <;> decide
  exact isAlphanum_of_toLower
    (nameLowered _ (lowered ▸ List.mem_map_of_mem (f := Char.toLower) member))

theorem isAscii_of_isDigestByte {byte : UInt8} (digest : isDigestByte byte = true) :
    byte.toNat < 0x80 := by
  revert digest
  exact Text.byte_cases byte (by decide +kernel)

theorem isDigestByte_ofNat {letter : Char} (small : letter.toNat < 0x80) :
    isDigestByte (UInt8.ofNat letter.toNat) = true ↔
      isBase64Letter letter = true ∨ letter = '=' := by
  exact Text.ascii_cases letter small (by decide +kernel)

theorem isSourceLetter_of_isBase64Letter {letter : Char}
    (inDigest : isBase64Letter letter = true ∨ letter = '=') : isSourceLetter letter = true := by
  rcases inDigest with base | rfl
  · simp only [isBase64Letter, Bool.or_eq_true, List.contains_iff_mem] at base
    rcases base with alphanumeric | mark
    · simp [isSourceLetter, alphanumeric]
    · have marks : ∀ other ∈ "+/_-".toList, isSourceLetter other = true := by decide
      exact marks letter mark
  · decide

theorem toNat_of_isBase64Letter {letter : Char}
    (inDigest : isBase64Letter letter = true ∨ letter = '=') : letter.toNat < 0x80 := by
  have range := toNat_of_isSourceLetter (isSourceLetter_of_isBase64Letter inDigest)
  omega

theorem all_isDigestByte_iff {digest : Text} :
    (Text.bytes digest).all isDigestByte = true ↔
      ∀ letter ∈ digest, isBase64Letter letter = true ∨ letter = '=' := by
  rw [List.all_eq_true,
    Text.forall_mem_bytes_iff (fun byte found => isAscii_of_isDigestByte found)]
  constructor
  · intro all letter member
    exact (isDigestByte_ofNat (all letter member).1).mp (all letter member).2
  · intro all letter member
    have small := toNat_of_isBase64Letter (all letter member)
    exact ⟨small, (isDigestByte_ofNat small).mpr (all letter member)⟩

theorem hyphen_notMem_of_isDigestAlgorithm {algorithm : Text}
    (known : IsDigestAlgorithm algorithm) : '-' ∉ algorithm := by
  obtain ⟨name, named, same⟩ := known
  intro member
  exact absurd (isAlphanum_of_algorithm named same '-' member) (by decide)

/-- `is_hash` is the quoted algorithms over nonempty digests in which a padding
sign is a letter like any other. -/
theorem isHash_iff {source : Text} :
    isHash source = true ↔ ∃ algorithm digest, IsDigestAlgorithm algorithm ∧ digest ≠ [] ∧
      (∀ letter ∈ digest, isBase64Letter letter = true ∨ letter = '=') ∧
        source = quotedDigest algorithm digest := by
  have quote : "'".toList = ['\''] := rfl
  unfold isHash
  constructor
  · intro hash
    split at hash
    · simp at hash
    next rest opened =>
    split at hash
    · simp at hash
    next inner closed =>
    split at hash
    · simp at hash
    next algorithm digest split =>
    split_ifs at hash with known
    simp only [Bool.not_eq_false, List.any_eq_true] at known
    simp only [Bool.and_eq_true, Bool.not_eq_true', List.isEmpty_eq_false_iff,
      all_isDigestByte_iff] at hash
    obtain rfl := List.isPrefixOf?_eq_some_iff_append_eq.mp opened
    obtain rfl := List.isSuffixOf?_eq_some_iff_append_eq.mp closed
    obtain rfl := Text.splitOnce_eq_some split
    exact ⟨algorithm, digest, known, hash.1, hash.2, by simp [quotedDigest, quote]⟩
  · rintro ⟨algorithm, digest, known, nonempty, letters, rfl⟩
    have opened : "'".toList.isPrefixOf? (quotedDigest algorithm digest) =
        some (algorithm ++ '-' :: digest ++ ['\'']) :=
      List.isPrefixOf?_eq_some_iff_append_eq.mpr rfl
    have closed : "'".toList.isSuffixOf? (algorithm ++ '-' :: digest ++ ['\'']) =
        some (algorithm ++ '-' :: digest) :=
      List.isSuffixOf?_eq_some_iff_append_eq.mpr rfl
    have split := Text.splitOnce_append (hyphen_notMem_of_isDigestAlgorithm known) digest
    obtain ⟨name, named, same⟩ := known
    have some : ["sha256".toList, "sha384".toList, "sha512".toList].any
        (Text.eqIgnoreAsciiCase algorithm) = true := List.any_eq_true.mpr ⟨name, named, same⟩
    simp only [opened, closed, split, some, Bool.true_eq_false, if_false, Bool.and_eq_true,
      Bool.not_eq_true', List.isEmpty_eq_false_iff, all_isDigestByte_iff]
    exact ⟨nonempty, letters⟩

/-- Every letter of a hash source is one that neither ends a token nor a
directive. -/
theorem isSourceLetter_of_isHash {source : Text} (hash : isHash source = true) :
    source ≠ [] ∧ ∀ letter ∈ source, isSourceLetter letter = true := by
  obtain ⟨algorithm, digest, known, _, digestLetters, rfl⟩ := isHash_iff.mp hash
  obtain ⟨name, named, same⟩ := known
  have algorithmLetters := isAlphanum_of_algorithm named same
  refine ⟨by simp [quotedDigest], fun letter member => ?_⟩
  have places : letter = '\'' ∨ letter ∈ algorithm ∨ letter = '-' ∨ letter ∈ digest := by
    simp only [quotedDigest, List.mem_append, List.mem_cons, List.not_mem_nil, or_false] at member
    tauto
  rcases places with rfl | inAlgorithm | rfl | inDigest
  · decide
  · simp [isSourceLetter, algorithmLetters letter inAlgorithm]
  · decide
  · exact isSourceLetter_of_isBase64Letter (digestLetters letter inDigest)

def namesScriptSrc (directive : Text) : Bool :=
  (Text.splitWhitespace directive).head?.any (Text.eqIgnoreAsciiCase · "script-src".toList)

/-- The sources of the first `script-src` of a policy. -/
def scriptSources (text : Text) : Option (List Text) :=
  ((text.splitOn ';').find? namesScriptSrc).map fun directive =>
    (Text.splitWhitespace directive).drop 1

theorem scriptHashes_eq_ok_iff {text : Text} {hashes : List Text} :
    scriptHashes text = .ok hashes ↔
      scriptSources text = some hashes ∧ hashes ≠ [] ∧
        ∀ source ∈ hashes, isHash source = true := by
  have named : (fun directive => (Text.splitWhitespace directive).head?.any
      (Text.eqIgnoreAsciiCase · "script-src".toList)) = namesScriptSrc := rfl
  unfold scriptHashes scriptSources
  dsimp only
  rw [named]
  cases found : (text.splitOn ';').find? namesScriptSrc with
  | none => simp
  | some directive =>
      simp only [Option.map_some, Option.some.injEq]
      generalize (Text.splitWhitespace directive).drop 1 = sources
      by_cases empty : sources = []
      · subst empty
        simp only [List.isEmpty_nil, if_true, reduceCtorEq, false_iff, not_and]
        rintro rfl nonempty
        exact absurd rfl nonempty
      · cases refused : sources.find? (fun source => !isHash source) with
        | none =>
            have valid : ∀ source ∈ sources, isHash source = true := by
              simpa using refused
            simp only [List.isEmpty_iff, empty, if_false, Except.ok.injEq]
            constructor
            · rintro rfl
              exact ⟨rfl, empty, valid⟩
            · exact fun both => both.1
        | some source =>
            have invalid : isHash source = false := by
              simpa using List.find?_some refused
            have member := List.mem_of_find?_eq_some refused
            simp only [List.isEmpty_iff, empty, if_false, reduceCtorEq, false_iff, not_and]
            rintro rfl _ valid
            simp [valid source member] at invalid

/-- What `script_hashes` accepts: at least one source, and hashes only. -/
theorem hashes_of_scriptHashes {text : Text} {hashes : List Text}
    (read : scriptHashes text = .ok hashes) :
    hashes ≠ [] ∧ ∀ source ∈ hashes, isHash source = true :=
  (scriptHashes_eq_ok_iff.mp read).2

end LibidBridge
