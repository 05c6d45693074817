import LibidBridge.ReferenceCrates

/-!
# The JSON island

The deployment's data as it goes into a script element: rendered JSON with
every character a parser could read as markup, and every character that is not
ASCII, written as `\u` escapes.  The escaper runs over rendered text and does
not know whether it is inside a string; the induction below is over how the
text is built, and shows that whatever it rewrites sits in one.
-/

namespace LibidBridge

def encodeUtf16 (letter : Char) : List Nat :=
  if letter.toNat < 0x10000 then [letter.toNat]
  else
    [0xD800 + (letter.toNat - 0x10000) / 0x400,
      0xDC00 + (letter.toNat - 0x10000) % 0x400]

/-- `\u` and the four hexadecimal digits of a code unit. -/
def unicodeEscape (unit : Nat) : Text :=
  '\\' :: 'u' :: Json.hexText unit

/-- One character of rendered JSON as the island writes it. -/
def escapeLetter (letter : Char) : Text :=
  if letter = '<' ∨ letter = '>' ∨ letter = '&' ∨ letter = '\u2028' ∨ letter = '\u2029' then
    unicodeEscape letter.toNat
  else if letter.toNat < 0x80 then [letter]
  else (encodeUtf16 letter).flatMap unicodeEscape

variable (crates : Crates)

/-- A JSON island, escaped so it cannot end the script element that carries
it. -/
def json (value : Json) : Text :=
  (crates.jsonToString value).flatMap escapeLetter

/-- A text the island can hold: ASCII, and no character a parser reads as
markup. -/
def IsInert (text : Text) : Prop :=
  ∀ letter ∈ text, letter.toNat < 0x80 ∧ letter ≠ '<' ∧ letter ≠ '>' ∧ letter ≠ '&'

instance (text : Text) : Decidable (IsInert text) :=
  inferInstanceAs (Decidable (∀ letter ∈ text, _))

/-- The spellings the island writes a string in. -/
def InertSpelling (letter : Char) (written : Text) : Prop :=
  Json.Spelling letter written ∧ IsInert written

theorem IsInert.append {first second : Text} (firstInert : IsInert first)
    (secondInert : IsInert second) : IsInert (first ++ second) := by
  intro letter member
  rcases List.mem_append.mp member with inFirst | inSecond
  · exact firstInert letter inFirst
  · exact secondInert letter inSecond

theorem isInert_cons {letter : Char} {text : Text}
    (plain : letter.toNat < 0x80 ∧ letter ≠ '<' ∧ letter ≠ '>' ∧ letter ≠ '&')
    (inert : IsInert text) : IsInert (letter :: text) := by
  intro other member
  rcases List.mem_cons.mp member with rfl | inText
  · exact plain
  · exact inert other inText

theorem isInert_unicodeEscape (unit : Nat) : IsInert (unicodeEscape unit) := by
  have digits : ∀ digit < 16, (Nat.digitChar digit).toNat < 0x80 ∧
      Nat.digitChar digit ≠ '<' ∧ Nat.digitChar digit ≠ '>' ∧
        Nat.digitChar digit ≠ '&' := by decide
  intro letter member
  simp only [unicodeEscape, Json.hexText, List.mem_cons, List.not_mem_nil, or_false]
    at member
  rcases member with rfl | rfl | rfl | rfl | rfl | rfl
  · decide
  · decide
  all_goals exact digits _ (Nat.mod_lt _ (by omega))

theorem flatMap_escapeLetter_of_isInert {text : Text} (inert : IsInert text) :
    text.flatMap escapeLetter = text := by
  induction text with
  | nil => rfl
  | cons letter text ih =>
      obtain ⟨ascii, notLess, notGreater, notAmp⟩ := inert letter (by simp)
      have notLine : letter ≠ '\u2028' ∧ letter ≠ '\u2029' := by
        constructor <;> rintro rfl <;> revert ascii <;> decide
      have kept : escapeLetter letter = [letter] := by
        simp [escapeLetter, notLess, notGreater, notAmp, notLine, ascii]
      rw [List.flatMap_cons, kept, ih fun other member => inert other (by simp [member])]
      rfl

theorem isInert_of_readHex {digits : Text} {value : Nat}
    (read : Json.readHex digits = some (value, [])) : IsInert digits := by
  intro digit member
  have ranges := Json.hexValue_isSome_iff.mp (Json.hexValue_isSome_of_readHex read digit member)
  refine ⟨by omega, ?_, ?_, ?_⟩ <;> rintro rfl <;> revert ranges <;> decide

theorem isInert_of_escape {letter : Char} {written : Text}
    (spelled : Json.Spelling letter written) (escaped : written ≠ [letter]) :
    IsInert written := by
  have openUnit : ∀ {digits : Text}, IsInert digits → IsInert ('\\' :: 'u' :: digits) :=
    fun inert => isInert_cons (by decide) (isInert_cons (by decide) inert)
  cases spelled with
  | plain => exact absurd rfl escaped
  | @short marker escapes =>
      refine isInert_cons (by decide) (isInert_cons ?_ (by simp [IsInert]))
      unfold Json.shortEscape at escapes
      split_ifs at escapes with h h h h h h h h <;> subst h <;> decide
  | unit value => exact openUnit (isInert_of_readHex value)
  | pair firstValue secondValue =>
      exact (openUnit (isInert_of_readHex firstValue)).append
        (openUnit (isInert_of_readHex secondValue))

/-- A character written as itself is written by the island in an inert
spelling of the same character. -/
theorem inertSpelling_escapeLetter {letter : Char} (printable : 0x20 ≤ letter.toNat)
    (unquoted : letter ≠ '"') (unescaped : letter ≠ '\\') :
    InertSpelling letter (escapeLetter letter) := by
  have unit : letter.toNat < 0x10000 →
      Json.Spelling letter (unicodeEscape letter.toNat) :=
    fun bounded => Json.Spelling.unit (Json.readHex_hexText bounded)
  unfold escapeLetter
  split_ifs with markup ascii
  · have bounded : letter.toNat < 0x10000 := by
      rcases markup with rfl | rfl | rfl | rfl | rfl <;> decide
    exact ⟨unit bounded, isInert_unicodeEscape _⟩
  · simp only [not_or] at markup
    exact ⟨Json.Spelling.plain printable unquoted unescaped,
      isInert_cons ⟨ascii, markup.1, markup.2.1, markup.2.2.1⟩ (by simp [IsInert])⟩
  · unfold encodeUtf16
    split_ifs with bounded
    · exact ⟨by simpa using unit bounded, by simpa using isInert_unicodeEscape _⟩
    · have limit : letter.toNat < 0x110000 := by
        rcases letter.valid with low | high
        · have : letter.toNat < 0xD800 := low
          omega
        · exact high.2
      have paired : Json.Spelling letter
          (unicodeEscape (0xD800 + (letter.toNat - 0x10000) / 0x400) ++
            unicodeEscape (0xDC00 + (letter.toNat - 0x10000) % 0x400)) := by
        refine Json.Spelling.pair (Json.readHex_hexText (by omega))
          (Json.readHex_hexText (by omega)) (by omega) (by omega) ?_
        unfold Json.pairValue
        omega
      refine ⟨by simpa using paired, ?_⟩
      simpa using (isInert_unicodeEscape _).append (isInert_unicodeEscape _)

/-- Whatever a minimal encoder wrote for a character, the island writes an
inert spelling of it. -/
theorem inertSpelling_of_minimal {letter : Char} {written : Text}
    (minimal : Json.MinimalSpelling letter written) :
    InertSpelling letter (written.flatMap escapeLetter) := by
  obtain ⟨spelled, itself⟩ := minimal
  by_cases plain : written = [letter]
  · subst plain
    cases spelled with
    | plain printable unquoted unescaped =>
        simpa using inertSpelling_escapeLetter printable unquoted unescaped
  · have inert := isInert_of_escape spelled plain
    rw [flatMap_escapeLetter_of_isInert inert]
    exact ⟨spelled, inert⟩

theorem Json.Letters.escape {value text : Text}
    (letters : Json.Letters Json.MinimalSpelling value text) :
    Json.Letters InertSpelling value (text.flatMap escapeLetter) := by
  induction letters with
  | nil => exact Json.Letters.nil
  | cons head _ ih =>
      rw [List.flatMap_append]
      exact Json.Letters.cons (inertSpelling_of_minimal head) ih

theorem Json.Letters.isInert {value text : Text}
    (letters : Json.Letters InertSpelling value text) : IsInert text := by
  induction letters with
  | nil => simp [IsInert]
  | cons head _ ih => exact head.2.append ih

theorem isInert_intText (value : Int) : IsInert (Json.intText value) := by
  have digits : ∀ number : Nat, IsInert (Nat.toDigits 10 number) := by
    intro number letter member
    have digit : letter.isDigit = true :=
      Nat.isDigit_of_mem_toDigits (by omega) (by omega) member
    have code : letter.val.toNat = letter.toNat := rfl
    refine ⟨?_, Json.ne_of_isDigit digit rfl, Json.ne_of_isDigit digit rfl,
      Json.ne_of_isDigit digit rfl⟩
    simp only [Char.isDigit, Bool.and_eq_true, decide_eq_true_eq,
      UInt32.le_iff_toNat_le, ge_iff_le, code, Char.reduceVal, UInt32.reduceToNat] at digit
    omega
  unfold Json.intText
  split_ifs
  · exact isInert_cons (by decide) (digits _)
  · exact digits _

/-- Escaping a rendered text gives another text of the same value, by
induction on how the text is built: structure is inert, and every rewritten
character sits in a string. -/
theorem Json.Spells.escape {fragment : Json.Fragment} {text : Text}
    (spells : Json.Spells Json.MinimalSpelling fragment text) :
    Json.Spells InertSpelling fragment (text.flatMap escapeLetter) := by
  have kept : ∀ letter ∈ ['"', '[', ']', '{', '}', ',', ':'],
      escapeLetter letter = [letter] := by decide
  simp only [List.forall_mem_cons] at kept
  obtain ⟨quote, openArr, closeArr, openObj, closeObj, comma, colon, -⟩ := kept
  induction spells with
  | null => exact Json.Spells.null
  | true => exact Json.Spells.true
  | false => exact Json.Spells.false
  | int value =>
      rw [flatMap_escapeLetter_of_isInert (isInert_intText value)]
      exact Json.Spells.int value
  | str letters =>
      simpa [quote] using Json.Spells.str letters.escape
  | emptyArr => exact Json.Spells.emptyArr
  | arr _ ih => simpa [openArr, closeArr] using Json.Spells.arr ih
  | emptyObj => exact Json.Spells.emptyObj
  | obj _ ih => simpa [openObj, closeObj] using Json.Spells.obj ih
  | lastItem _ ih => exact Json.Spells.lastItem ih
  | item _ _ ihHead ihTail => simpa [comma] using Json.Spells.item ihHead ihTail
  | lastMember key _ ih =>
      simpa [quote, colon] using Json.Spells.lastMember key.escape ih
  | member key _ _ ihHead ihTail =>
      simpa [quote, colon, comma] using Json.Spells.member key.escape ihHead ihTail

theorem Json.Spells.isInert {fragment : Json.Fragment} {text : Text}
    (spells : Json.Spells InertSpelling fragment text) : IsInert text := by
  have closed : ∀ {letter : Char},
      (letter.toNat < 0x80 ∧ letter ≠ '<' ∧ letter ≠ '>' ∧ letter ≠ '&') →
        IsInert [letter] :=
    fun plain => isInert_cons plain (by simp [IsInert])
  induction spells with
  | null | true | false | emptyArr | emptyObj => decide
  | int value => exact isInert_intText value
  | str letters =>
      exact (isInert_cons (by decide) letters.isInert).append (closed (by decide))
  | arr _ ih | obj _ ih => exact (isInert_cons (by decide) ih).append (closed (by decide))
  | lastItem _ ih => exact ih
  | item _ _ ihHead ihTail => exact ihHead.append (isInert_cons (by decide) ihTail)
  | lastMember key _ ih =>
      exact (isInert_cons (by decide) key.isInert).append
        (isInert_cons (by decide) (isInert_cons (by decide) ih))
  | member key _ _ ihHead ihTail =>
      exact ((isInert_cons (by decide) key.isInert).append
        (isInert_cons (by decide) (isInert_cons (by decide) ihHead))).append
          (isInert_cons (by decide) ihTail)

variable {crates}

/-- What the island writes spells the value it was given. -/
theorem spells_json (laws : JsonLaws crates) (value : Json) :
    Json.Spells InertSpelling (.value value) (json crates value) :=
  (laws.toString value).escape

theorem decode_json (laws : JsonLaws crates) (value : Json) :
    Json.decode (json crates value) = some value :=
  Json.decode_of_spells ((spells_json laws value).mono fun _ _ spelled => spelled.1)

/-- The island is inert text, and an RFC 8259 decoder reads the value back
from it. -/
theorem json_safe_and_lossless (laws : JsonLaws crates) (value : Json) :
    IsInert (json crates value) ∧ Json.decode (json crates value) = some value :=
  ⟨Json.Spells.isInert (spells_json laws value), decode_json laws value⟩

theorem json_safe_and_lossless_markup :
    IsInert (json Reference.crates (.str "</script>\\\"\u2028😀".toList)) ∧
      Json.decode (json Reference.crates (.str "</script>\\\"\u2028😀".toList)) =
        some (.str "</script>\\\"\u2028😀".toList) :=
  json_safe_and_lossless Reference.jsonLaws _

end LibidBridge
