import LibidBridge.Origin

/-!
# The grammar of allowlist members

The three kinds of member, each as the set of its spellings, and the theorem
that `Admitted::listed` reads every text by this grammar and keeps it as it
is written.
-/

namespace LibidBridge

/-- `[a-z0-9]` -/
def isLabelEnd (letter : Char) : Bool :=
  letter.isLower || letter.isDigit

/-- `[a-z0-9-]` -/
def isLabelLetter (letter : Char) : Bool :=
  isLabelEnd letter || letter == '-'

/-- `[a-z0-9]([a-z0-9-]*[a-z0-9])?` -/
inductive IsLabel : Text → Prop
  | single {letter : Char} (ends : isLabelEnd letter = true) : IsLabel [letter]
  | spanning {first final : Char} {middle : Text} (starts : isLabelEnd first = true)
      (inside : ∀ letter ∈ middle, isLabelLetter letter = true)
      (ends : isLabelEnd final = true) : IsLabel (first :: middle ++ [final])

theorem isLabel_iff {label : Text} :
    IsLabel label ↔ ∃ first final, label.head? = some first ∧ label.getLast? = some final ∧
      isLabelEnd first = true ∧ isLabelEnd final = true ∧
        ∀ letter ∈ label, isLabelLetter letter = true := by
  have inner : ∀ {letter : Char}, isLabelEnd letter = true → isLabelLetter letter = true :=
    fun ends => by simp [isLabelLetter, ends]
  constructor
  · intro valid
    cases valid with
    | @single letter ends =>
        exact ⟨letter, letter, rfl, rfl, ends, ends, by simpa using inner ends⟩
    | @spanning first final middle starts inside ends =>
        refine ⟨first, final, rfl, List.getLast?_concat, starts, ends, ?_⟩
        simp only [List.mem_append, List.mem_cons, List.not_mem_nil, or_false]
        rintro letter ((rfl | member) | rfl)
        · exact inner starts
        · exact inside letter member
        · exact inner ends
  · rintro ⟨first, final, headEq, lastEq, starts, ends, inside⟩
    obtain ⟨rest, rfl⟩ := List.head?_eq_some_iff.mp headEq
    rcases List.eq_nil_or_concat' rest with rfl | ⟨middle, last, rfl⟩
    · exact IsLabel.single starts
    · rw [← List.cons_append, List.getLast?_concat, Option.some.injEq] at lastEq
      subst lastEq
      exact IsLabel.spanning starts (fun letter member => inside letter (by simp [member])) ends

theorem isLower_iff {letter : Char} :
    letter.isLower = true ↔ 0x61 ≤ letter.toNat ∧ letter.toNat ≤ 0x7A := by
  have code : letter.val.toNat = letter.toNat := rfl
  delta Char.isLower
  simp only [Bool.and_eq_true, decide_eq_true_eq, ge_iff_le, UInt32.le_iff_toNat_le, code,
    Char.reduceVal, UInt32.reduceToNat]

theorem isUpper_iff {letter : Char} :
    letter.isUpper = true ↔ 0x41 ≤ letter.toNat ∧ letter.toNat ≤ 0x5A := by
  have code : letter.val.toNat = letter.toNat := rfl
  delta Char.isUpper
  simp only [decide_eq_true_eq, ge_iff_le, UInt32.le_iff_toNat_le, code,
    Char.reduceVal, UInt32.reduceToNat]

theorem isUpper_of_isLower {letter : Char} (lower : letter.isLower = true) :
    letter.isUpper = false := by
  rw [isLower_iff] at lower
  rw [Bool.eq_false_iff, ne_eq, isUpper_iff]
  omega

theorem isUpper_of_isDigit {letter : Char} (digit : letter.isDigit = true) :
    letter.isUpper = false := by
  simp only [Char.isDigit_iff_toNat, Char.reduceToNat] at digit
  rw [Bool.eq_false_iff, ne_eq, isUpper_iff]
  omega

theorem toNat_of_isLabelLetter {letter : Char} (inLabel : isLabelLetter letter = true) :
    letter.toNat < 0x80 := by
  simp only [isLabelLetter, isLabelEnd, Bool.or_eq_true, isLower_iff, Char.isDigit_iff_toNat,
    Char.reduceToNat, beq_iff_eq] at inLabel
  rcases inLabel with (lower | digit) | rfl
  · omega
  · omega
  · decide

theorem isUpper_of_isLabelLetter {letter : Char} (inLabel : isLabelLetter letter = true) :
    letter.isUpper = false := by
  simp only [isLabelLetter, isLabelEnd, Bool.or_eq_true, beq_iff_eq] at inLabel
  rcases inLabel with (lower | digit) | rfl
  · exact isUpper_of_isLower lower
  · exact isUpper_of_isDigit digit
  · decide

/-- A byte of a label of a pattern suffix. -/
def isLabelByte (byte : UInt8) : Bool :=
  isAsciiLowercase byte || isAsciiDigit byte || byte == 0x2D

theorem isLabelByte_ofNat {letter : Char} (small : letter.toNat < 0x80) :
    isLabelByte (UInt8.ofNat letter.toNat) = isLabelLetter letter ∧
      (UInt8.ofNat letter.toNat = 0x2D ↔ letter = '-') ∧
        isAsciiLowercase (UInt8.ofNat letter.toNat) = letter.isLower := by
  exact Text.ascii_cases letter small (by decide +kernel)

theorem all_isLabelByte_iff {label : Text} :
    (Text.bytes label).all isLabelByte = true ↔
      ∀ letter ∈ label, isLabelLetter letter = true := by
  have ascii : ∀ byte, isLabelByte byte = true → byte.toNat < 0x80 := by
    intro byte
    exact Text.byte_cases byte (by decide +kernel)
  rw [List.all_eq_true, Text.forall_mem_bytes_iff ascii]
  constructor
  · intro all letter member
    rw [← (isLabelByte_ofNat (all letter member).1).1]
    exact (all letter member).2
  · intro all letter member
    have small := toNat_of_isLabelLetter (all letter member)
    exact ⟨small, (isLabelByte_ofNat small).1.trans (all letter member)⟩

theorem labelFault_bytes {label : Text} {last : Bool} :
    labelFault label last = none ↔
      ∃ first final, (Text.bytes label).head? = some first ∧
        (Text.bytes label).getLast? = some final ∧
          (Text.bytes label).all isLabelByte = true ∧ first ≠ 0x2D ∧ final ≠ 0x2D ∧
            (last = true → isAsciiLowercase first = true) := by
  have letters : (fun byte => isAsciiLowercase byte || isAsciiDigit byte || byte == 0x2D) =
      isLabelByte := rfl
  unfold labelFault
  dsimp only
  rw [letters]
  split
  next first final headEq lastEq =>
    constructor
    · intro accepted
      split_ifs at accepted with alphabet hyphen address
      refine ⟨first, final, headEq, lastEq, by simpa using alphabet, ?_⟩
      simpa [not_or, and_assoc] using And.intro hyphen address
    · rintro ⟨other, otherFinal, headSame, lastSame, alphabet, start, finish, address⟩
      obtain rfl := Option.some.inj (headEq.symm.trans headSame)
      obtain rfl := Option.some.inj (lastEq.symm.trans lastSame)
      rw [if_neg (by simp [alphabet]), if_neg (by simp [start, finish]),
        if_neg (by simpa using address)]
  next missing =>
    constructor
    · intro accepted
      simp at accepted
    · rintro ⟨first, final, headEq, lastEq, _⟩
      exact absurd lastEq (missing first final headEq)

/-- `label_fault` finds no fault exactly in the labels of the grammar, and in
a last label exactly where it also begins with a letter. -/
theorem labelFault_eq_none_iff {label : Text} {last : Bool} :
    labelFault label last = none ↔
      IsLabel label ∧ (last = true → label.head?.any Char.isLower = true) := by
  rw [labelFault_bytes, isLabel_iff]
  by_cases letters : ∀ letter ∈ label, isLabelLetter letter = true
  · have ascii : ∀ letter ∈ label, letter.toNat < 0x80 :=
      fun letter member => toNat_of_isLabelLetter (letters letter member)
    have allBytes := all_isLabelByte_iff.mpr letters
    have ends : ∀ letter ∈ label,
        UInt8.ofNat letter.toNat ≠ 0x2D ↔ isLabelEnd letter = true := by
      intro letter member
      have inLabel := letters letter member
      rw [ne_eq, (isLabelByte_ofNat (ascii letter member)).2.1]
      simp only [isLabelLetter, Bool.or_eq_true, beq_iff_eq] at inLabel
      constructor
      · tauto
      · rintro ended rfl
        exact absurd ended (by decide)
    rw [Text.bytes_of_ascii ascii] at allBytes ⊢
    rw [List.head?_map, List.getLast?_map]
    simp only [allBytes, true_and, Option.map_eq_some_iff]
    constructor
    · rintro ⟨_, _, ⟨first, headEq, rfl⟩, ⟨final, lastEq, rfl⟩, starts, finish, address⟩
      have firstMem := List.mem_of_head? headEq
      have finalMem := List.mem_of_getLast? lastEq
      refine ⟨⟨first, final, headEq, lastEq, (ends first firstMem).mp starts,
        (ends final finalMem).mp finish, letters⟩, fun isLast => ?_⟩
      rw [headEq, Option.any_some, ← (isLabelByte_ofNat (ascii first firstMem)).2.2]
      exact address isLast
    · rintro ⟨⟨first, final, headEq, lastEq, starts, finish, _⟩, address⟩
      have firstMem := List.mem_of_head? headEq
      have finalMem := List.mem_of_getLast? lastEq
      refine ⟨_, _, ⟨first, headEq, rfl⟩, ⟨final, lastEq, rfl⟩,
        (ends first firstMem).mpr starts, (ends final finalMem).mpr finish, fun isLast => ?_⟩
      rw [(isLabelByte_ofNat (ascii first firstMem)).2.2]
      simpa [headEq] using address isLast
  · have refused := mt all_isLabelByte_iff.mp letters
    simp [refused, letters]

/-- One or more labels separated by dots, the last of them beginning with a
letter. -/
def IsPatternSuffix (suffix : Text) : Prop :=
  ∃ labels last, (∀ label ∈ labels ++ [last], IsLabel label) ∧
    last.head?.any Char.isLower = true ∧ suffix = ".".toList.intercalate (labels ++ [last])

/-- `*.` and the host suffix whose subdomains a pattern admits. -/
def IsPatternSpelling (spelling : Text) : Prop :=
  ∃ suffix, IsPatternSuffix suffix ∧ spelling = "*.".toList ++ suffix

theorem IsLabel.isLabelLetter {label : Text} (valid : IsLabel label) {letter : Char}
    (member : letter ∈ label) : isLabelLetter letter = true := by
  obtain ⟨_, _, _, _, _, _, inside⟩ := isLabel_iff.mp valid
  exact inside letter member

namespace Pattern

theorem labelsFault_cons {label : Text} {labels : List Text} :
    labelsFault (label :: labels) = none ↔
      labelFault label labels.isEmpty = none ∧ labelsFault labels = none := by
  cases fault : labelFault label labels.isEmpty with
  | none => simp [labelsFault, fault]
  | some text => simp [labelsFault, fault]

/-- The walk over the labels holds the last one to more than the others. -/
theorem labelsFault_eq_none_iff (labels : List Text) (last : Text) :
    labelsFault (labels ++ [last]) = none ↔
      (∀ label ∈ labels ++ [last], IsLabel label) ∧ last.head?.any Char.isLower = true := by
  induction labels with
  | nil =>
      rw [List.nil_append, labelsFault_cons, labelFault_eq_none_iff]
      simp [labelsFault]
  | cons label labels ih =>
      have notLast : (labels ++ [last]).isEmpty = false := by simp
      rw [List.cons_append, labelsFault_cons, notLast, labelFault_eq_none_iff, ih,
        List.forall_mem_cons]
      simp [and_assoc]

theorem dot_notMem_of_isLabel {label : Text} (valid : IsLabel label) : '.' ∉ label :=
  fun member => absurd (valid.isLabelLetter member) (by decide)

theorem isPatternSuffix_iff {suffix : Text} :
    IsPatternSuffix suffix ↔ labelsFault (suffix.splitOn '.') = none := by
  have dot : ".".toList = ['.'] := rfl
  constructor
  · rintro ⟨labels, last, valid, letter, rfl⟩
    rw [dot, List.splitOn_intercalate '.'
      (fun label member => dot_notMem_of_isLabel (valid label member)) (by simp)]
    exact (labelsFault_eq_none_iff labels last).mpr ⟨valid, letter⟩
  · intro accepted
    rcases List.eq_nil_or_concat' (suffix.splitOn '.') with empty | ⟨labels, last, split⟩
    · exact absurd empty (List.splitOn_ne_nil '.' suffix)
    · rw [split] at accepted
      obtain ⟨valid, letter⟩ := (labelsFault_eq_none_iff labels last).mp accepted
      refine ⟨labels, last, valid, letter, ?_⟩
      rw [dot, ← split, List.intercalate_splitOn]

/-- `Pattern::listed` accepts exactly the prefix and a suffix of the grammar. -/
theorem listed_eq_ok_iff {field spelling : Text} {pattern : Pattern} :
    listed field spelling = .ok pattern ↔
      pattern = ⟨spelling⟩ ∧ IsPatternSpelling spelling := by
  have prefixText : "*.".toList = PREFIX := rfl
  unfold listed IsPatternSpelling
  rw [prefixText]
  dsimp only
  split
  next unprefixed =>
    constructor
    · intro accepted
      simp at accepted
    · rintro ⟨_, suffix, _, rfl⟩
      have stripped : PREFIX.isPrefixOf? (PREFIX ++ suffix) = some suffix :=
        List.isPrefixOf?_eq_some_iff_append_eq.mpr rfl
      simp [stripped] at unprefixed
  next suffix stripped =>
    obtain rfl := List.isPrefixOf?_eq_some_iff_append_eq.mp stripped
    have same : ∀ other, PREFIX ++ suffix = PREFIX ++ other ↔ other = suffix :=
      fun other => by rw [List.append_cancel_left_eq, eq_comm]
    simp only [same, exists_eq_right, isPatternSuffix_iff]
    cases fault : labelsFault (suffix.splitOn '.') with
    | none => simp [eq_comm]
    | some text => simp

end Pattern

namespace Admitted

variable {crates : Crates} {field spelling : Text}

/-- What `Admitted::listed` accepts, by the kind it accepts it as. -/
theorem listed_eq_ok_iff {member : Admitted} :
    listed crates field spelling = .ok member ↔
      (spelling = "*".toList ∧ member = .every) ∨
      (∃ pattern, Pattern.listed field spelling = .ok pattern ∧ member = .pattern pattern) ∨
      ('*' ∉ spelling ∧ ∃ origin, Origin.listed crates field spelling = .ok origin ∧
        member = .exact origin) := by
  have prefixed : ∀ pattern, Pattern.listed field spelling = .ok pattern →
      Pattern.PREFIX <+: spelling := by
    intro pattern accepted
    obtain ⟨_, suffix, _, rfl⟩ := Pattern.listed_eq_ok_iff.mp accepted
    exact List.prefix_append _ _
  have everySpelling : "*".toList = ['*'] := rfl
  unfold listed
  rw [everySpelling]
  split_ifs with isEvery isPattern hasStar
  · subst isEvery
    constructor
    · intro same
      exact Or.inl ⟨rfl, (Except.ok.inj same).symm⟩
    · rintro (⟨_, rfl⟩ | ⟨pattern, accepted, _⟩ | ⟨starless, _⟩)
      · rfl
      · exact absurd (prefixed pattern accepted) (by decide)
      · exact absurd starless (by decide)
  · have star : '*' ∈ spelling :=
      (List.isPrefixOf_iff_prefix.mp isPattern).subset (by decide)
    rw [map_eq_ok_iff]
    simp [isEvery, star, eq_comm]
  · have unprefixed : ∀ pattern, Pattern.listed field spelling ≠ .ok pattern :=
      fun pattern accepted =>
        isPattern (List.isPrefixOf_iff_prefix.mpr (prefixed pattern accepted))
    have star : '*' ∈ spelling := by simpa using hasStar
    simp [isEvery, unprefixed, star]
  · have unprefixed : ∀ pattern, Pattern.listed field spelling ≠ .ok pattern :=
      fun pattern accepted =>
        isPattern (List.isPrefixOf_iff_prefix.mpr (prefixed pattern accepted))
    have starless : '*' ∉ spelling := by simpa using hasStar
    rw [map_eq_ok_iff]
    simp [isEvery, unprefixed, starless, eq_comm]

/-- `Admitted::listed` reads a text as the kind of member it is a spelling of,
refuses every other text, and keeps the spelling. -/
theorem listed_member_grammar (crates : Crates) (field spelling : Text) :
    (listed crates field spelling = .ok .every ↔ spelling = "*".toList) ∧
    ((∃ suffixed, listed crates field spelling = .ok (.pattern suffixed)) ↔
      IsPatternSpelling spelling) ∧
    ((∃ origin, listed crates field spelling = .ok (.exact origin)) ↔
      '*' ∉ spelling ∧ ∃ origin, Origin.listed crates field spelling = .ok origin) ∧
    ((∃ refusal, listed crates field spelling = .error refusal) ↔
      spelling ≠ "*".toList ∧ ¬ IsPatternSpelling spelling ∧
        ¬ ('*' ∉ spelling ∧ ∃ origin, Origin.listed crates field spelling = .ok origin)) ∧
    (∀ member, listed crates field spelling = .ok member → member.asStr = spelling) ∧
    ∀ otherField other first second, listed crates field spelling = .ok first →
      listed crates otherField other = .ok second → (first = second ↔ spelling = other) := by
  have asEvery : listed crates field spelling = .ok .every ↔ spelling = "*".toList := by
    rw [listed_eq_ok_iff]
    simp
  have asPattern : (∃ suffixed, listed crates field spelling = .ok (.pattern suffixed)) ↔
      IsPatternSpelling spelling := by
    simp [listed_eq_ok_iff, Pattern.listed_eq_ok_iff]
  have asExact : (∃ origin, listed crates field spelling = .ok (.exact origin)) ↔
      '*' ∉ spelling ∧ ∃ origin, Origin.listed crates field spelling = .ok origin := by
    simp [listed_eq_ok_iff]
  refine ⟨asEvery, asPattern, asExact, ?_, fun member => asStr_of_listed, ?_⟩
  · rw [ne_eq, ← asEvery, ← asPattern, ← asExact]
    cases read : listed crates field spelling with
    | error refusal => simp
    | ok member => cases member <;> simp
  · intro otherField other first second read readOther
    constructor
    · rintro rfl
      rw [← asStr_of_listed read, asStr_of_listed readOther]
    · rintro rfl
      exact Except.ok.inj (read.symm.trans (listed_field readOther))

end Admitted

end LibidBridge
