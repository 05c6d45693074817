import LibidBridge.Policy

/-!
# Reading a composed policy back

A Content-Security-Policy is read by splitting it at `;`, each piece into
whitespace-separated words, and keeping the first directive of each name.
Every word of a composed policy is made of letters that none of these steps
look for, so the policy composed around the hashes of any accepted policy is
read back as the nine directives it was composed from.
-/

namespace LibidBridge

/-- The whitespace a browser splits a policy at. -/
def isAsciiWhitespace (letter : Char) : Bool :=
  letter == ' ' || letter == '\t' || letter == '\n' || letter == '\x0C' || letter == '\r'

/-- The directives of a policy in order: a lowercase name, and its sources. -/
def directives (isSpace : Char → Bool) (text : Text) : List (Text × List Text) :=
  ((text.splitOn ';').map (tokens isSpace)).filterMap fun row =>
    match row with
    | [] => none
    | name :: sources => some (name.map Char.toLower, sources)

def firstOfEachName : List (Text × List Text) → List (Text × List Text)
  | [] => []
  | directive :: rest =>
      directive :: (firstOfEachName rest).filter fun other => other.1 ≠ directive.1

/-- A policy as a browser enforces it. -/
def enforced (isSpace : Char → Bool) (text : Text) : List (Text × List Text) :=
  firstOfEachName (directives isSpace text)

/-- The nine directives this bridge composes, each a name and its sources. -/
def composedDirectives (hashes : List Text) : List (Text × List Text) :=
  [("default-src".toList, ["'none'".toList]),
    ("object-src".toList, ["'none'".toList]),
    ("base-uri".toList, ["'none'".toList]),
    ("form-action".toList, ["'none'".toList]),
    ("frame-ancestors".toList, ["'none'".toList]),
    ("script-src".toList, hashes),
    ("style-src".toList, ["'unsafe-inline'".toList]),
    ("frame-src".toList, ["'none'".toList]),
    ("connect-src".toList, ["'none'".toList])]

def composedRows (hashes : List Text) : List (List Text) :=
  (composedDirectives hashes).map fun directive => directive.1 :: directive.2

theorem policy_eq_rows {hashes : List Text} (nonempty : hashes ≠ []) :
    policy hashes =
      [';', ' '].intercalate ((composedRows hashes).map ([' '].intercalate)) := by
  obtain ⟨hash, hashes, rfl⟩ := List.exists_cons_of_ne_nil nonempty
  have scripts : [' '].intercalate ("script-src".toList :: hash :: hashes) =
      "script-src ".toList ++ " ".toList.intercalate (hash :: hashes) := by
    rw [List.intercalate_cons_cons]
    rfl
  simp only [composedRows, composedDirectives, List.map_cons, List.map_nil, scripts]
  rfl

def IsSourceWord (word : Text) : Prop :=
  word ≠ [] ∧ ∀ letter ∈ word, isSourceLetter letter = true

instance (word : Text) : Decidable (IsSourceWord word) :=
  inferInstanceAs (Decidable (_ ∧ _))

theorem isSourceWord_of_mem_composedRows {hashes : List Text}
    (valid : ∀ source ∈ hashes, isHash source = true) {row : List Text}
    (rowMem : row ∈ composedRows hashes) {word : Text} (wordMem : word ∈ row) :
    IsSourceWord word := by
  have allowed : ∀ source ∈ hashes, IsSourceWord source :=
    fun source member => isSourceLetter_of_isHash (valid source member)
  have allWords : ∀ directive ∈ composedDirectives hashes,
      IsSourceWord directive.1 ∧ ∀ source ∈ directive.2, IsSourceWord source := by
    simp only [composedDirectives, List.forall_mem_cons]
    exact ⟨by decide, by decide, by decide, by decide, by decide, ⟨by decide, allowed⟩,
      by decide, by decide, by decide⟩
  obtain ⟨directive, directiveMem, rfl⟩ := List.mem_map.mp rowMem
  rcases List.mem_cons.mp wordMem with rfl | source
  · exact (allWords directive directiveMem).1
  · exact (allWords directive directiveMem).2 word source

/-- A way to split a policy into words: at the space this bridge writes, and
at no letter of a source. -/
structure SeparatesSources (isSpace : Char → Bool) : Prop where
  space : isSpace ' ' = true
  letter : ∀ letter, isSourceLetter letter = true → isSpace letter = false

theorem separatesSources_ascii : SeparatesSources isAsciiWhitespace where
  space := rfl
  letter letter source := by
    have range := toNat_of_isSourceLetter source
    have differs : ∀ other : Char, other.toNat ≤ 0x20 → letter ≠ other := by
      rintro other low rfl
      omega
    simp [isAsciiWhitespace, differs]

theorem separatesSources_unicode : SeparatesSources Text.isWhitespace where
  space := rfl
  letter letter source := by
    have range := toNat_of_isSourceLetter source
    simp only [Text.isWhitespace, Bool.or_eq_false_iff, Bool.and_eq_false_imp,
      decide_eq_true_eq, decide_eq_false_iff_not, beq_eq_false_iff_ne]
    omega

section ReadBack

variable {isSpace : Char → Bool} (separates : SeparatesSources isSpace)
variable {hashes : List Text} (nonempty : hashes ≠ [])
variable (valid : ∀ source ∈ hashes, isHash source = true)

include separates nonempty valid

/-- Splitting a composed policy gives the rows it was composed from. -/
theorem map_tokens_policy :
    ((policy hashes).splitOn ';').map (tokens isSpace) = composedRows hashes := by
  rw [policy_eq_rows nonempty]
  refine map_tokens_splitOn_intercalate separates.space (by decide)
    (by simp [composedRows, composedDirectives]) ?_
  intro row rowMem word wordMem
  have source := isSourceWord_of_mem_composedRows valid rowMem wordMem
  refine ⟨⟨source.1, fun letter member => separates.letter letter (source.2 letter member)⟩,
    fun delimiter => ?_⟩
  exact absurd (source.2 ';' delimiter) (by decide)

/-- A composed policy holds the nine directives and no other. -/
theorem directives_policy :
    directives isSpace (policy hashes) = composedDirectives hashes := by
  rw [directives, map_tokens_policy separates nonempty valid]
  rfl

/-- Enforcing the first directive of each name enforces all nine. -/
theorem enforced_policy :
    enforced isSpace (policy hashes) = composedDirectives hashes := by
  rw [enforced, directives_policy separates nonempty valid]
  simp [composedDirectives, firstOfEachName]

end ReadBack

theorem scriptSources_of_rows {text : Text} {rows : List (List Text)} {name : Text}
    {hashes : List Text}
    (split : (text.splitOn ';').map Text.splitWhitespace = rows)
    (found : rows.find? (fun row => row.head?.any
      (Text.eqIgnoreAsciiCase · "script-src".toList)) = some (name :: hashes)) :
    scriptSources text = some hashes := by
  rw [← split, List.find?_map] at found
  obtain ⟨directive, directiveFound, words⟩ := Option.map_eq_some_iff.mp found
  have named : (text.splitOn ';').find? namesScriptSrc = some directive := directiveFound
  rw [scriptSources, named, Option.map_some, words, List.drop_one, List.tail_cons]

/-- Composing a policy and reading its hashes are inverse. -/
theorem scriptHashes_policy {hashes : List Text} (nonempty : hashes ≠ [])
    (valid : ∀ source ∈ hashes, isHash source = true) :
    scriptHashes (policy hashes) = .ok hashes := by
  refine scriptHashes_eq_ok_iff.mpr ⟨?_, nonempty, valid⟩
  apply @scriptSources_of_rows _ _ "script-src".toList _
    (map_tokens_policy separatesSources_unicode nonempty valid)
  simp [composedRows, composedDirectives, List.find?, Text.eqIgnoreAsciiCase]

theorem mem_policy {hashes : List Text} (nonempty : hashes ≠ [])
    (valid : ∀ source ∈ hashes, isHash source = true) {letter : Char}
    (member : letter ∈ policy hashes) :
    isSourceLetter letter = true ∨ letter = ' ' ∨ letter = ';' := by
  rw [policy_eq_rows nonempty] at member
  rcases mem_intercalate member with inSeparator | ⟨part, partMem, inPart⟩
  · simp only [List.mem_cons, List.not_mem_nil, or_false] at inSeparator
    tauto
  · obtain ⟨row, rowMem, rfl⟩ := List.mem_map.mp partMem
    rcases mem_intercalate inPart with inSeparator | ⟨word, wordMem, inWord⟩
    · exact Or.inr (Or.inl (by simpa using inSeparator))
    · exact Or.inl
        ((isSourceWord_of_mem_composedRows valid rowMem wordMem).2 letter inWord)

theorem comma_notMem_policy {hashes : List Text} (nonempty : hashes ≠ [])
    (valid : ∀ source ∈ hashes, isHash source = true) : ',' ∉ policy hashes := by
  intro member
  have places := mem_policy nonempty valid member
  revert places
  decide

theorem isReadable_of_mem_policy {hashes : List Text} (nonempty : hashes ≠ [])
    (valid : ∀ source ∈ hashes, isHash source = true) {letter : Char}
    (member : letter ∈ policy hashes) : IsReadable letter := by
  left
  rcases mem_policy nonempty valid member with source | rfl | rfl
  · have range := toNat_of_isSourceLetter source
    exact ⟨by omega, range.2⟩
  · decide
  · decide

theorem headerFromStr_policy {crates : Crates} (laws : HeaderLaws crates)
    {hashes : List Text} (nonempty : hashes ≠ [])
    (valid : ∀ source ∈ hashes, isHash source = true) :
    crates.headerFromStr (policy hashes) = .ok (Text.bytes (policy hashes)) := by
  apply laws.fromStr_of_readable
  intro letter member
  exact isReadable_of_mem_policy nonempty valid member

end LibidBridge
