import LibidBridge.MemberGrammar
import LibidBridge.ReferenceCrates

/-!
# What an origin pattern admits

A pattern compares the end of an origin with its suffix and never takes the
origin apart.  The main result takes it apart: with the shapes a host and a
port can have, the comparison admits exactly the subdomains of the suffix, over
`https` and without a port.
-/

namespace LibidBridge

/-- An IPv6 address in brackets. -/
def IsIpv6 (host : Text) : Prop :=
  ∃ address : Text, (∀ letter ∈ address,
    letter.isLower = true ∨ letter.isDigit = true ∨ letter = ':') ∧
      host = '[' :: address ++ [']']

/-- Four decimal numbers of one byte each. -/
def IsIpv4 (host : Text) : Prop :=
  ∃ numbers : List Nat, numbers.length = 4 ∧ (∀ number ∈ numbers, number < 256) ∧
    host = ".".toList.intercalate (numbers.map (Nat.toDigits 10))

/-- A label a URL parser reads as a decimal or a hexadecimal number. -/
def IsNumber (label : Text) : Prop :=
  (label ≠ [] ∧ ∀ letter ∈ label, letter.isDigit = true) ∨
    ∃ digits : Text, (∀ letter ∈ digits, (Json.hexValue letter).isSome = true) ∧
      (label = "0x".toList ++ digits ∨ label = "0X".toList ++ digits)

/-- The last label of a host, or the one before it where that is empty. -/
def lastLabel (host : Text) : Text :=
  match (host.splitOn '.').reverse with
  | [] :: label :: _ => label
  | label :: _ => label
  | [] => []

/-- A registered name, in lowercase and in punycode. -/
structure IsDomain (host : Text) : Prop where
  lowercase : ∀ letter ∈ host, letter.isUpper = false
  plain : ∀ letter ∈ host, letter ∉ ":/?#@[]".toList
  unnumbered : ¬ IsNumber (lastLabel host)

def IsHost (host : Text) : Prop :=
  IsIpv6 host ∨ IsIpv4 host ∨ IsDomain host

/-- The `url` crate gives the host of an `http` or `https` URL as an address or
a domain of these shapes. -/
structure HostLaws (crates : Crates) : Prop where
  shape : ∀ {spelling : Text} {url : Url} {host : Text},
    crates.urlParse spelling = .ok url → IsWebScheme url.scheme →
      url.hostStr = some host → IsHost host

theorem mem_of_mem_lastLabel {host : Text} {letter : Char}
    (member : letter ∈ lastLabel host) : letter ∈ host := by
  have inPiece : ∀ piece ∈ host.splitOn '.', letter ∈ piece → letter ∈ host := by
    intro piece pieceMem inPiece
    have whole : ['.'].intercalate (host.splitOn '.') = host := List.intercalate_splitOn '.'
    exact whole ▸ mem_intercalate_of_mem pieceMem inPiece
  unfold lastLabel at member
  split at member
  next label _ reversed =>
    exact inPiece label (List.mem_reverse.mp (by simp [reversed])) member
  next label _ _ reversed =>
    exact inPiece label (List.mem_reverse.mp (by simp [reversed])) member
  next => simp at member

namespace Reference

theorem isDomain_of_isKnownHost {host : Text} (known : isKnownHost host = true) :
    IsDomain host := by
  simp only [isKnownHost, Bool.and_eq_true, List.all_eq_true, Bool.or_eq_true,
    beq_iff_eq] at known
  have notDigit : ∀ letter ∈ host, letter.isDigit ≠ true := by
    intro letter member digit
    simp only [Char.isDigit_iff_toNat, Char.reduceToNat] at digit
    rcases known.2 letter member with lower | rfl
    · rw [isLower_iff] at lower
      omega
    · exact absurd digit (by decide)
  constructor
  · intro letter member
    rcases known.2 letter member with lower | rfl
    · exact isUpper_of_isLower lower
    · decide
  · intro letter member
    have outside : ∀ other ∈ ":/?#@[]".toList, ¬ (other.isLower = true ∨ other = '.') := by
      decide
    exact fun forbidden => outside letter forbidden (known.2 letter member)
  · rintro (⟨nonempty, digits⟩ | ⟨digits, _, prefixed⟩)
    · obtain ⟨letter, member⟩ := List.exists_mem_of_ne_nil _ nonempty
      exact notDigit letter (mem_of_mem_lastLabel member) (digits letter member)
    · have zero : '0' ∈ lastLabel host := by
        rcases prefixed with spelled | spelled <;> simp [spelled]
      exact notDigit '0' (mem_of_mem_lastLabel zero) (by decide)

theorem hostLaws : HostLaws crates where
  shape := by
    intro spelling url host parsed _ hostEq
    simp only [crates, urlParse] at parsed
    split at parsed
    · split_ifs at parsed with known
      cases parsed
      cases hostEq
      exact Or.inr (Or.inr (isDomain_of_isKnownHost known))
    · simp at parsed

end Reference

/-- A canonical origin is its scheme, its host and its port. -/
structure IsOriginSpelling (scheme host port spelling : Text) : Prop where
  webScheme : IsWebScheme scheme
  hostShape : IsHost host
  portSuffix : IsPortSuffix port
  spelled : spelling = scheme ++ "://".toList ++ host ++ port

theorem Origin.exists_isOriginSpelling {crates : Crates} (urlLaws : UrlLaws crates)
    (hostLaws : HostLaws crates) {field spelling : Text} {origin : Origin}
    (accepted : listed crates field spelling = .ok origin) :
    ∃ scheme host port, IsOriginSpelling scheme host port spelling := by
  obtain ⟨url, host, port, parsed, bare, portSuffix, spelled⟩ :=
    exists_url_of_listed urlLaws accepted
  exact ⟨url.scheme, host, port,
    { webScheme := bare.webScheme
      hostShape := hostLaws.shape parsed bare.webScheme bare.hostStr
      portSuffix := portSuffix
      spelled := spelled }⟩

theorem IsHost.lowercase {host : Text} (shape : IsHost host) :
    ∀ letter ∈ host, letter.isUpper = false := by
  intro letter member
  rcases shape with ⟨address, letters, rfl⟩ | ⟨numbers, _, _, rfl⟩ | domain
  · simp only [List.mem_append, List.mem_cons, List.not_mem_nil, or_false] at member
    rcases member with (rfl | inside) | rfl
    · decide
    · rcases letters letter inside with lower | digit | rfl
      · exact isUpper_of_isLower lower
      · exact isUpper_of_isDigit digit
      · decide
    · decide
  · rcases mem_intercalate member with inDot | ⟨part, partMem, inPart⟩
    · obtain rfl : letter = '.' := by simpa using inDot
      decide
    · obtain ⟨number, _, rfl⟩ := List.mem_map.mp partMem
      exact isUpper_of_isDigit (Nat.isDigit_of_mem_toDigits (by omega) (by omega) inPart)
  · exact domain.lowercase letter member

theorem IsOriginSpelling.lowercase {scheme host port spelling : Text}
    (parts : IsOriginSpelling scheme host port spelling) :
    ∀ letter ∈ spelling, letter.isUpper = false := by
  have schemeLower : ∀ letter ∈ scheme, letter.isUpper = false := by
    rcases parts.webScheme with rfl | rfl <;> decide
  have separatorLower : ∀ letter ∈ "://".toList, letter.isUpper = false := by decide
  have portLower : ∀ letter ∈ port, letter.isUpper = false := by
    rcases parts.portSuffix with rfl | ⟨digits, _, allDigits, rfl⟩
    · simp
    · rw [List.forall_mem_cons]
      exact ⟨by decide, fun letter member => isUpper_of_isDigit (allDigits letter member)⟩
  rw [parts.spelled]
  simp only [List.forall_mem_append]
  exact ⟨⟨⟨schemeLower, separatorLower⟩, parts.hostShape.lowercase⟩, portLower⟩

section Suffix

variable {suffix : Text} (valid : IsPatternSuffix suffix)

include valid

theorem IsPatternSuffix.letters {letter : Char} (member : letter ∈ suffix) :
    isLabelLetter letter = true ∨ letter = '.' := by
  obtain ⟨labels, last, labelsValid, _, rfl⟩ := valid
  rcases mem_intercalate member with inDot | ⟨label, labelMem, inLabel⟩
  · exact Or.inr (by simpa using inDot)
  · exact Or.inl ((labelsValid label labelMem).isLabelLetter inLabel)

theorem IsPatternSuffix.exists_isLower : ∃ letter ∈ suffix, letter.isLower = true := by
  obtain ⟨labels, last, _, starts, rfl⟩ := valid
  cases last with
  | nil => simp at starts
  | cons letter rest =>
      have lastMem : letter :: rest ∈ labels ++ [letter :: rest] := by simp
      exact ⟨letter, mem_intercalate_of_mem lastMem (by simp), by simpa using starts⟩

omit valid in
/-- A text does not end in the suffix where it ends in a letter the suffix has
not, followed by no dot. -/
theorem not_anchored_of_foreign {text tail : Text} {opening : Char}
    (ends : opening :: tail <:+ text) (foreign : opening ∉ '.' :: suffix)
    (dotless : '.' ∉ opening :: tail) : ¬ '.' :: suffix <:+ text := by
  intro anchored
  rcases List.suffix_or_suffix_of_suffix ends anchored with tailIn | suffixIn
  · exact foreign (tailIn.subset (by simp))
  · exact dotless (suffixIn.subset (by simp))

theorem IsPatternSuffix.notMem {letter : Char} (outside : isLabelLetter letter = false)
    (notDot : letter ≠ '.') : letter ∉ '.' :: suffix := by
  intro member
  rcases List.mem_cons.mp member with rfl | inSuffix
  · exact notDot rfl
  · rcases valid.letters inSuffix with inLabel | dot
    · simp [outside] at inLabel
    · exact notDot dot

theorem IsPatternSuffix.not_anchored_port {host port : Text} (portSuffix : IsPortSuffix port)
    (ported : port ≠ []) : ¬ '.' :: suffix <:+ host ++ port := by
  rcases portSuffix with rfl | ⟨digits, _, allDigits, rfl⟩
  · exact absurd rfl ported
  · refine not_anchored_of_foreign (List.suffix_append _ _)
      (valid.notMem (by decide) (by decide)) ?_
    intro dot
    rcases List.mem_cons.mp dot with equal | inDigits
    · exact absurd equal (by decide)
    · exact absurd (allDigits '.' inDigits) (by decide)

theorem IsPatternSuffix.not_anchored_ipv6 {host : Text} (address : IsIpv6 host) :
    ¬ '.' :: suffix <:+ host := by
  obtain ⟨inner, _, rfl⟩ := address
  exact not_anchored_of_foreign (List.suffix_append ('[' :: inner) [']'])
    (valid.notMem (by decide) (by decide)) (by decide)

theorem IsPatternSuffix.not_anchored_ipv4 {host : Text} (address : IsIpv4 host) :
    ¬ '.' :: suffix <:+ host := by
  intro anchored
  obtain ⟨letter, inSuffix, lower⟩ := valid.exists_isLower
  obtain ⟨numbers, _, _, rfl⟩ := address
  rcases mem_intercalate (anchored.subset (List.mem_cons_of_mem _ inSuffix)) with
    inDot | ⟨part, partMem, inPart⟩
  · have dot : letter = '.' := by simpa using inDot
    rw [dot] at lower
    exact absurd lower (by decide)
  · obtain ⟨number, _, rfl⟩ := List.mem_map.mp partMem
    have digit := Nat.isDigit_of_mem_toDigits (by omega) (by omega) inPart
    rw [isLower_iff] at lower
    rw [Char.isDigit_iff_toNat] at digit
    simp only [Char.reduceToNat] at digit
    omega

end Suffix

theorem Admitted.lowercase_of_listed {crates : Crates} (urlLaws : UrlLaws crates)
    (hostLaws : HostLaws crates) {field spelling : Text} {member : Admitted}
    (accepted : listed crates field spelling = .ok member) :
    ∀ letter ∈ spelling, letter.isUpper = false := by
  rcases listed_eq_ok_iff.mp accepted with
    ⟨rfl, _⟩ | ⟨pattern, isPattern, _⟩ | ⟨_, origin, isOrigin, _⟩
  · decide
  · obtain ⟨_, suffix, valid, rfl⟩ := Pattern.listed_eq_ok_iff.mp isPattern
    intro letter found
    rcases List.mem_append.mp found with inPrefix | inSuffix
    · have prefixLower : ∀ letter ∈ "*.".toList, letter.isUpper = false := by decide
      exact prefixLower letter inPrefix
    · rcases valid.letters inSuffix with inLabel | rfl
      · exact isUpper_of_isLabelLetter inLabel
      · decide
  · obtain ⟨_, _, _, parts⟩ := Origin.exists_isOriginSpelling urlLaws hostLaws isOrigin
    exact parts.lowercase

theorem Pattern.admits_iff {suffix origin : Text} :
    Pattern.admits ⟨"*.".toList ++ suffix⟩ origin = true ↔
      ∃ rest, origin = "https://".toList ++ rest ∧ '.' :: suffix <:+ rest := by
  have anchored : Pattern.anchoredSuffix ⟨"*.".toList ++ suffix⟩ = '.' :: suffix := rfl
  unfold Pattern.admits
  rw [anchored]
  split
  next unprefixed =>
    constructor
    · intro admitted
      simp at admitted
    · rintro ⟨rest, rfl, _⟩
      have stripped : "https://".toList.isPrefixOf? ("https://".toList ++ rest) = some rest :=
        List.isPrefixOf?_eq_some_iff_append_eq.mpr rfl
      rw [stripped] at unprefixed
      simp at unprefixed
  next host stripped =>
    obtain rfl := List.isPrefixOf?_eq_some_iff_append_eq.mp stripped
    simp only [List.append_cancel_left_eq, exists_eq_left', List.isSuffixOf_iff_suffix]

/-- On a canonical origin the comparison is with the end of the host, over
`https` and without a port. -/
theorem Pattern.admits_spelling_iff {suffix scheme host port spelling : Text}
    (valid : IsPatternSuffix suffix) (parts : IsOriginSpelling scheme host port spelling) :
    Pattern.admits ⟨"*.".toList ++ suffix⟩ spelling = true ↔
      scheme = "https".toList ∧ port = [] ∧ '.' :: suffix <:+ host := by
  rw [Pattern.admits_iff, parts.spelled]
  rcases parts.webScheme with rfl | rfl
  · constructor
    · rintro ⟨rest, same, _⟩
      have fifth : some ':' = some 's' := congrArg (fun text : Text => text[4]?) same
      exact absurd fifth (by decide)
    · intro https
      exact absurd https.1 (by decide)
  · have schemed : "https".toList ++ "://".toList = "https://".toList := rfl
    simp only [schemed, List.append_assoc, List.append_cancel_left_eq, exists_eq_left',
      true_and]
    by_cases ported : port = []
    · simp [ported]
    · simp [ported, valid.not_anchored_port parts.portSuffix ported]

/-- A pattern admits exactly the subdomains of its suffix, over `https` and
without a port: not the suffix itself, no plaintext origin, no port, no host
that merely ends in the letters of the suffix, and no address. -/
theorem pattern_admits_iff_subdomain {crates : Crates} (urlLaws : UrlLaws crates)
    (hostLaws : HostLaws crates) {field suffix : Text} {pattern : Pattern}
    (accepted : Pattern.listed field ("*.".toList ++ suffix) = .ok pattern)
    (observed : Observed crates) :
    (∃ scheme host port, IsOriginSpelling scheme host port observed.asStr) ∧
    ∀ scheme host port, IsOriginSpelling scheme host port observed.asStr →
      ((Admitted.pattern pattern).admits observed = true ↔
        scheme = "https".toList ∧ port = [] ∧ IsDomain host ∧
          ∃ sub, host = sub ++ ".".toList ++ suffix) ∧
      (host = suffix → (Admitted.pattern pattern).admits observed = false) ∧
      (scheme = "http".toList → (Admitted.pattern pattern).admits observed = false) ∧
      (port ≠ [] → (Admitted.pattern pattern).admits observed = false) ∧
      ((¬ ∃ sub, host = sub ++ ".".toList ++ suffix) →
        (Admitted.pattern pattern).admits observed = false) ∧
      (IsIpv4 host → (Admitted.pattern pattern).admits observed = false) ∧
      (IsIpv6 host → (Admitted.pattern pattern).admits observed = false) := by
  obtain ⟨rfl, other, valid, sameSuffix⟩ := Pattern.listed_eq_ok_iff.mp accepted
  obtain rfl := List.append_cancel_left sameSuffix
  obtain ⟨origin, listed⟩ := observed.canonical
  refine ⟨Origin.exists_isOriginSpelling urlLaws hostLaws listed, ?_⟩
  intro scheme host port parts
  have admitsIff : (Admitted.pattern ⟨"*.".toList ++ suffix⟩).admits observed = true ↔
      scheme = "https".toList ∧ port = [] ∧ '.' :: suffix <:+ host :=
    Pattern.admits_spelling_iff valid parts
  have subdomain : '.' :: suffix <:+ host ↔ ∃ sub, host = sub ++ ".".toList ++ suffix := by
    constructor
    · rintro ⟨sub, rfl⟩
      exact ⟨sub, by simp⟩
    · rintro ⟨sub, rfl⟩
      exact ⟨sub, by simp⟩
  have refused : ¬ (scheme = "https".toList ∧ port = [] ∧ '.' :: suffix <:+ host) →
      (Admitted.pattern ⟨"*.".toList ++ suffix⟩).admits observed = false :=
    fun outside => Bool.eq_false_iff.mpr (mt admitsIff.mp outside)
  refine ⟨?_, ?_, ?_, ?_, ?_, ?_, ?_⟩
  · rw [admitsIff, ← subdomain]
    constructor
    · rintro ⟨https, portless, anchored⟩
      refine ⟨https, portless, ?_, anchored⟩
      rcases parts.hostShape with ipv6 | ipv4 | domain
      · exact absurd anchored (valid.not_anchored_ipv6 ipv6)
      · exact absurd anchored (valid.not_anchored_ipv4 ipv4)
      · exact domain
    · rintro ⟨https, portless, _, anchored⟩
      exact ⟨https, portless, anchored⟩
  · rintro rfl
    refine refused fun both => ?_
    have longer := both.2.2.length_le
    rw [List.length_cons] at longer
    omega
  · rintro rfl
    exact refused fun both => absurd both.1 (by decide)
  · exact fun ported => refused fun both => ported both.2.1
  · exact fun outside => refused fun both => outside (subdomain.mp both.2.2)
  · exact fun ipv4 => refused fun both => valid.not_anchored_ipv4 ipv4 both.2.2
  · exact fun ipv6 => refused fun both => valid.not_anchored_ipv6 ipv6 both.2.2

/-- A subdomain as a browser stamps it. -/
def Reference.subdomain : Observed Reference.crates where
  text := "https://app.handles.link".toList
  canonical := ⟨⟨"https://app.handles.link".toList⟩, by decide +kernel⟩

theorem pattern_admits_iff_subdomain_handles :
    (Admitted.pattern ⟨"*.handles.link".toList⟩).admits Reference.subdomain = true ↔
      "https".toList = "https".toList ∧ ([] : Text) = [] ∧ IsDomain "app.handles.link".toList ∧
        ∃ sub, "app.handles.link".toList = sub ++ ".".toList ++ "handles.link".toList :=
  ((pattern_admits_iff_subdomain Reference.urlLaws Reference.hostLaws
    (by decide +kernel : Pattern.listed "ORIGINS".toList ("*.".toList ++ "handles.link".toList) =
      .ok ⟨"*.handles.link".toList⟩) Reference.subdomain).2 _ _ _
    { webScheme := Or.inr rfl
      hostShape := Or.inr (Or.inr (Reference.isDomain_of_isKnownHost (by decide +kernel)))
      portSuffix := Or.inl rfl
      spelled := by decide +kernel }).1

end LibidBridge
