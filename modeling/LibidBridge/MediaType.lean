import LibidBridge.MemberGrammar
import LibidBridge.Revalidation

/-!
# The media type of an artifact

`is_html` against the values that name `text/html`.  It looks at one byte after
the name, so it also takes a value whose name is followed by a blank and then
by something that begins no parameter.
-/

namespace LibidBridge

def isBlank (letter : Char) : Bool :=
  letter == ' ' || letter == '\t'

/-- A value begins with whitespace and `text/html` in any ASCII case, and goes
on with the rest. -/
def NamesHtml (media rest : Text) : Prop :=
  ∃ leading name, (∀ letter ∈ leading, Text.isWhitespace letter = true) ∧
    Text.eqIgnoreAsciiCase name "text/html".toList = true ∧ media = leading ++ name ++ rest

/-- The name, optional blanks, and then nothing or parameters after a `;`. -/
def IsHtmlType (media : Text) : Prop :=
  ∃ blanks rest, (∀ letter ∈ blanks, isBlank letter = true) ∧
    (rest = [] ∨ rest.head? = some ';') ∧ NamesHtml media (blanks ++ rest)

/-- The name, at least one blank, and then something other than a `;`. -/
def HasTrailer (media : Text) : Prop :=
  ∃ blanks letter rest, blanks ≠ [] ∧ (∀ blank ∈ blanks, isBlank blank = true) ∧
    isBlank letter = false ∧ letter ≠ ';' ∧ NamesHtml media (blanks ++ letter :: rest)

theorem toAsciiLowercase_ofNat {letter : Char} (small : letter.toNat < 0x80) :
    toAsciiLowercase (UInt8.ofNat letter.toNat) = UInt8.ofNat letter.toLower.toNat ∧
      letter.toLower.toNat < 0x80 := by
  exact Text.ascii_cases letter small (by decide +kernel)

theorem toAsciiLowercase_of_high {byte : UInt8} (high : 0x80 ≤ byte.toNat) :
    toAsciiLowercase byte = byte := by
  unfold toAsciiLowercase
  rw [if_neg]
  rintro ⟨_, below⟩
  have : byte.toNat ≤ 0x5A := UInt8.le_iff_toNat_le.mp below
  omega

theorem toLower_of_not_ascii {letter : Char} (large : 0x80 ≤ letter.toNat) :
    letter.toLower = letter := by
  apply Text.toLower_of_isUpper_eq_false
  rw [Bool.eq_false_iff, ne_eq, isUpper_iff]
  omega

theorem toLower_eq_iff {letter other : Char} (small : letter.toNat < 0x80)
    (otherSmall : other.toNat < 0x80) :
    toAsciiLowercase (UInt8.ofNat letter.toNat) = toAsciiLowercase (UInt8.ofNat other.toNat) ↔
      letter.toLower = other.toLower := by
  obtain ⟨lowered, bounded⟩ := toAsciiLowercase_ofNat small
  obtain ⟨otherLowered, otherBounded⟩ := toAsciiLowercase_ofNat otherSmall
  rw [lowered, otherLowered]
  constructor
  · intro same
    have codes := congrArg UInt8.toNat same
    rw [Text.toNat_ofNat_of_ascii bounded, Text.toNat_ofNat_of_ascii otherBounded] at codes
    exact Char.toNat_inj.mp codes
  · intro same
    rw [same]

theorem exists_spelled_cons {letter other : Char} {name text : Text} :
    (∃ spelled rest, other :: text = spelled ++ rest ∧
      Text.eqIgnoreAsciiCase spelled (letter :: name) = true) ↔
    letter.toLower = other.toLower ∧ ∃ spelled rest, text = spelled ++ rest ∧
      Text.eqIgnoreAsciiCase spelled name = true := by
  simp only [Text.eqIgnoreAsciiCase_iff, List.map_cons]
  constructor
  · rintro ⟨spelled, rest, split, same⟩
    cases spelled with
    | nil => simp at same
    | cons first spelled =>
        obtain ⟨rfl, rfl⟩ := List.cons.inj split
        obtain ⟨head, tail⟩ := List.cons.inj same
        exact ⟨head.symm, spelled, rest, rfl, tail⟩
  · rintro ⟨head, spelled, rest, rfl, tail⟩
    exact ⟨other :: spelled, rest, rfl, by rw [List.map_cons, head, tail]⟩

/-- An ASCII name begins the bytes of a text, up to the case of its letters,
exactly where it begins the text. -/
theorem lowercase_prefix_iff {name text : Text} (ascii : ∀ letter ∈ name, letter.toNat < 0x80) :
    (Text.bytes name).map toAsciiLowercase <+: (Text.bytes text).map toAsciiLowercase ↔
      ∃ spelled rest, text = spelled ++ rest ∧
        Text.eqIgnoreAsciiCase spelled name = true := by
  induction name generalizing text with
  | nil =>
      constructor
      · intro _
        exact ⟨[], text, rfl, rfl⟩
      · intro _
        exact List.nil_prefix
  | cons letter name ih =>
      have small := ascii letter (by simp)
      have nameAscii : ∀ other ∈ name, other.toNat < 0x80 :=
        fun other member => ascii other (by simp [member])
      rw [Text.bytes_cons_of_ascii small, List.map_cons]
      cases text with
      | nil =>
          constructor
          · intro standing
            simp at standing
          · rintro ⟨spelled, rest, split, same⟩
            obtain ⟨rfl, _⟩ := List.append_eq_nil_iff.mp split.symm
            simp [Text.eqIgnoreAsciiCase] at same
      | cons other text =>
          rw [exists_spelled_cons, ← ih nameAscii]
          rcases Text.bytes_cons_cases other text with
            ⟨otherSmall, split⟩ | ⟨large, lead, rest, leadHigh, split⟩
          · rw [split, List.map_cons, List.cons_prefix_cons, toLower_eq_iff small otherSmall]
          · have lowered := toAsciiLowercase_ofNat small
            rw [split, List.map_cons, List.cons_prefix_cons, lowered.1,
              toAsciiLowercase_of_high leadHigh, toLower_of_not_ascii large]
            have distinct : UInt8.ofNat letter.toLower.toNat ≠ lead := by
              rintro rfl
              rw [Text.toNat_ofNat_of_ascii lowered.2] at leadHigh
              omega
            have otherDistinct : letter.toLower ≠ other := by
              rintro rfl
              omega
            simp [distinct, otherDistinct]

theorem trimStart_append {leading text : Text}
    (spaces : ∀ letter ∈ leading, Text.isWhitespace letter = true)
    (starts : text.head?.all fun letter => !Text.isWhitespace letter) :
    Text.trimStart (leading ++ text) = text := by
  unfold Text.trimStart
  rw [List.dropWhile_append_of_pos spaces]
  cases text with
  | nil => rfl
  | cons letter text => simpa using starts

theorem length_of_eqIgnoreAsciiCase {first second : Text}
    (same : Text.eqIgnoreAsciiCase first second = true) : first.length = second.length := by
  simpa using congrArg List.length (Text.eqIgnoreAsciiCase_iff.mp same)

theorem ascii_of_eqIgnoreAsciiCase {first second : Text}
    (same : Text.eqIgnoreAsciiCase first second = true)
    (ascii : ∀ letter ∈ second, letter.toNat < 0x80) :
    ∀ letter ∈ first, letter.toNat < 0x80 := by
  have mapped := Text.eqIgnoreAsciiCase_iff.mp same
  intro letter member
  by_contra large
  have inSecond : letter.toLower ∈ second.map Char.toLower :=
    mapped ▸ List.mem_map_of_mem (f := Char.toLower) member
  obtain ⟨other, otherMem, lowered⟩ := List.mem_map.mp inSecond
  have small := (toAsciiLowercase_ofNat (ascii other otherMem)).2
  rw [lowered, toLower_of_not_ascii (by omega)] at small
  omega

/-- `text/html`, however it is cased, begins with no whitespace. -/
theorem head_of_html {name rest : Text}
    (html : Text.eqIgnoreAsciiCase name "text/html".toList = true) :
    ((name ++ rest).head?.all fun letter => !Text.isWhitespace letter) = true := by
  have ascii := ascii_of_eqIgnoreAsciiCase html (by decide)
  have solid : ∀ letter : Char, letter.toNat < 0x80 → letter.toLower = 't' →
      Text.isWhitespace letter = false :=
    fun letter small => Text.ascii_cases letter small (by decide +kernel)
  cases name with
  | nil => exact absurd html (by decide)
  | cons letter name =>
      have lowered : letter.toLower = 't' :=
        (List.cons.inj (Text.eqIgnoreAsciiCase_iff.mp html)).1
      simp [solid letter (ascii letter (by simp)) lowered]

theorem namesHtml_iff {media rest : Text} :
    NamesHtml media rest ↔ ∃ name, Text.eqIgnoreAsciiCase name "text/html".toList = true ∧
      Text.trimStart media = name ++ rest := by
  constructor
  · rintro ⟨leading, name, spaces, html, rfl⟩
    rw [List.append_assoc]
    exact ⟨name, html, trimStart_append spaces (head_of_html html)⟩
  · rintro ⟨name, html, trimmed⟩
    refine ⟨media.takeWhile Text.isWhitespace, name,
      fun letter member => List.mem_takeWhile_imp member, html, ?_⟩
    rw [List.append_assoc, ← trimmed]
    exact List.takeWhile_append_dropWhile.symm

theorem NamesHtml.unique {media first second : Text} (firstNames : NamesHtml media first)
    (secondNames : NamesHtml media second) : first = second := by
  obtain ⟨name, html, trimmed⟩ := namesHtml_iff.mp firstNames
  obtain ⟨other, otherHtml, otherTrimmed⟩ := namesHtml_iff.mp secondNames
  have sameLength : name.length = other.length :=
    (length_of_eqIgnoreAsciiCase html).trans (length_of_eqIgnoreAsciiCase otherHtml).symm
  exact (List.append_inj (trimmed.symm.trans otherTrimmed) sameLength).2

/-- What may stand right after the name. -/
def isNameEnd (letter : Char) : Bool :=
  isBlank letter || letter == ';'

theorem head_bytes_iff {rest : Text} :
    ((Text.bytes rest).head?.all fun byte => byte == 0x3B || byte == 0x20 || byte == 0x09) =
      rest.head?.all isNameEnd := by
  cases rest with
  | nil => rfl
  | cons letter rest =>
      rcases Text.bytes_cons_cases letter rest with
        ⟨small, split⟩ | ⟨large, lead, others, leadHigh, split⟩
      · rw [split, List.head?_cons, Option.all_some, List.head?_cons, Option.all_some]
        exact Text.ascii_cases letter small (by decide +kernel)
      · have byteOther : ∀ byte : UInt8, byte.toNat < 0x80 → (lead == byte) = false := by
          intro byte low
          rw [beq_eq_false_iff_ne]
          rintro rfl
          omega
        have letterOther : ∀ other : Char, other.toNat < 0x80 → (letter == other) = false := by
          intro other low
          rw [beq_eq_false_iff_ne]
          rintro rfl
          omega
        simp [split, isNameEnd, isBlank, byteOther, letterOther]

theorem getElem?_after_name {name rest : Text}
    (html : Text.eqIgnoreAsciiCase name "text/html".toList = true) :
    (Text.bytes (name ++ rest))[(Text.bytes "text/html".toList).length]? =
      (Text.bytes rest).head? := by
  have sameLength : (Text.bytes name).length = (Text.bytes "text/html".toList).length := by
    rw [Text.bytes_of_ascii (ascii_of_eqIgnoreAsciiCase html (by decide)),
      Text.bytes_of_ascii (by decide), List.length_map, List.length_map,
      length_of_eqIgnoreAsciiCase html]
  rw [Text.bytes_append, List.getElem?_append_right sameLength.le, ← sameLength, Nat.sub_self,
    List.head?_eq_getElem?]

/-- `is_html` takes the name and looks at one letter after it. -/
theorem isHtml_iff {media : Text} :
    isHtml media = true ↔ ∃ rest, NamesHtml media rest ∧ rest.head?.all isNameEnd = true := by
  have standing : ∀ named : Bytes,
      (Text.bytes "text/html".toList).length ≤ named.length ∧
        (named.take (Text.bytes "text/html".toList).length).map toAsciiLowercase =
          (Text.bytes "text/html".toList).map toAsciiLowercase ↔
      (Text.bytes "text/html".toList).map toAsciiLowercase <+: named.map toAsciiLowercase := by
    intro named
    rw [List.prefix_iff_eq_take, List.length_map, ← List.map_take]
    constructor
    · rintro ⟨_, same⟩
      exact same.symm
    · intro same
      have lengths := congrArg List.length same
      rw [List.length_map, List.length_map, List.length_take] at lengths
      exact ⟨by omega, same.symm⟩
  unfold isHtml
  dsimp only
  rw [Bool.and_eq_true, Bool.and_eq_true, decide_eq_true_eq, beq_iff_eq, standing,
    lowercase_prefix_iff (by decide)]
  constructor
  · rintro ⟨⟨name, rest, trimmed, html⟩, next⟩
    rw [trimmed, getElem?_after_name html, head_bytes_iff] at next
    exact ⟨rest, namesHtml_iff.mpr ⟨name, html, trimmed⟩, next⟩
  · rintro ⟨rest, names, next⟩
    obtain ⟨name, html, trimmed⟩ := namesHtml_iff.mp names
    rw [trimmed, getElem?_after_name html, head_bytes_iff]
    exact ⟨⟨name, rest, rfl, html⟩, next⟩

/-- What follows a name that may end there: nothing or parameters, after any
blanks, or at least one blank and a trailer. -/
theorem isHtml_iff_or {media : Text} :
    isHtml media = true ↔ IsHtmlType media ∨ HasTrailer media := by
  rw [isHtml_iff]
  constructor
  · rintro ⟨rest, names, next⟩
    have blanks : ∀ letter ∈ rest.takeWhile isBlank, isBlank letter = true :=
      fun letter member => List.mem_takeWhile_imp member
    have split : rest.takeWhile isBlank ++ rest.dropWhile isBlank = rest :=
      List.takeWhile_append_dropWhile
    cases after : rest.dropWhile isBlank with
    | nil =>
        rw [after] at split
        exact Or.inl ⟨_, [], blanks, Or.inl rfl, by rwa [split]⟩
    | cons letter others =>
        have notBlank : isBlank letter = false := by
          have stopped := List.head?_dropWhile_not isBlank rest
          rw [after] at stopped
          simpa using stopped
        rw [after] at split
        by_cases parameters : letter = ';'
        · subst parameters
          exact Or.inl ⟨_, _, blanks, Or.inr rfl, by rwa [split]⟩
        · refine Or.inr ⟨_, letter, others, ?_, blanks, notBlank, parameters, by rwa [split]⟩
          intro none
          rw [none, List.nil_append] at split
          rw [← split] at next
          simp [isNameEnd, notBlank, parameters] at next
  · rintro (⟨blanks, rest, areBlanks, ends, names⟩ |
      ⟨blanks, letter, rest, nonempty, areBlanks, _, _, names⟩)
    · refine ⟨_, names, ?_⟩
      cases blanks with
      | nil =>
          rcases ends with rfl | parameters
          · rfl
          · rw [List.nil_append, parameters]
            decide
      | cons blank blanks => simp [isNameEnd, areBlanks blank (by simp)]
    · obtain ⟨blank, blanks, rfl⟩ := List.exists_cons_of_ne_nil nonempty
      exact ⟨_, names, by simp [isNameEnd, areBlanks blank (by simp)]⟩

theorem not_hasTrailer_of_isHtmlType {media : Text} (html : IsHtmlType media) :
    ¬ HasTrailer media := by
  rintro ⟨blanks, letter, rest, _, areBlanks, notBlank, notParameters, names⟩
  obtain ⟨otherBlanks, otherRest, areOther, ends, otherNames⟩ := html
  have same := names.unique otherNames
  have dropped := congrArg (List.dropWhile isBlank) same
  rw [List.dropWhile_append_of_pos areBlanks, List.dropWhile_append_of_pos areOther,
    List.dropWhile_cons_of_neg (by simp [notBlank])] at dropped
  rcases ends with rfl | parameters
  · simp at dropped
  · obtain ⟨others, rfl⟩ := List.head?_eq_some_iff.mp parameters
    rw [List.dropWhile_cons_of_neg (by decide)] at dropped
    exact notParameters (List.cons.inj dropped).1

/-- `is_html` is exactly the values that name `text/html`, and a value with a
trailer is refused for its media type, except for the values with a trailer. -/
theorem isHtml_iff_grammar_iff (crates : Crates) (media : Text) :
    ((isHtml media = true ↔ IsHtmlType media) ∧
      (HasTrailer media → ∀ arrival,
        Fetched.header crates arrival.headers CONTENT_TYPE = some media →
          Fetched.of crates arrival = .error (.media media))) ↔
    ¬ HasTrailer media := by
  constructor
  · rintro ⟨grammar, _⟩ trailer
    have html := grammar.mp (isHtml_iff_or.mpr (Or.inr trailer))
    exact not_hasTrailer_of_isHtmlType html trailer
  · intro trailerless
    refine ⟨?_, fun trailer => absurd trailer trailerless⟩
    rw [isHtml_iff_or]
    tauto

/-- A value that leaves out the `;` before its parameters is taken for HTML, and
the response that carries it is accepted. -/
theorem unseparated_parameter_is_html :
    ¬ (isHtml "text/html charset=utf-8".toList = true ↔
        IsHtmlType "text/html charset=utf-8".toList) ∧
      HasTrailer "text/html charset=utf-8".toList ∧
      ∃ fetched, Fetched.of Reference.crates
        ⟨OK, [(CONTENT_TYPE, Text.bytes "text/html charset=utf-8".toList),
          (CONTENT_SECURITY_POLICY, Text.bytes "script-src 'sha256-A='".toList)],
          ⟨[Text.bytes Reference.page], none⟩⟩ = .ok fetched := by
  have trailer : HasTrailer "text/html charset=utf-8".toList :=
    ⟨" ".toList, 'c', "harset=utf-8".toList, by decide, by decide, by decide, by decide,
      [], "text/html".toList, by simp, by decide +kernel, rfl⟩
  refine ⟨fun agrees => ?_, trailer, exists_of_toOption_isSome (by decide +kernel)⟩
  exact not_hasTrailer_of_isHtmlType (agrees.mp (isHtml_iff_or.mpr (Or.inr trailer))) trailer

end LibidBridge
