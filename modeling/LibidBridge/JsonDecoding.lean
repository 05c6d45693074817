import LibidBridge.JsonText

/-!
# Decoding compact JSON texts

The grammar of compact JSON texts as a relation, and the theorem that the
decoder reads every text of the grammar back to its value.
-/

namespace LibidBridge

namespace Json

/-- The ways RFC 8259 lets a string write one character. -/
inductive Spelling : Char → Text → Prop
  | plain {letter : Char} (printable : 0x20 ≤ letter.toNat)
      (unquoted : letter ≠ '"') (unescaped : letter ≠ '\\') :
      Spelling letter [letter]
  | short {letter marker : Char} (escapes : shortEscape marker = some letter) :
      Spelling letter ['\\', marker]
  | unit {letter : Char} {digits : Text}
      (value : readHex digits = some (letter.toNat, [])) :
      Spelling letter ('\\' :: 'u' :: digits)
  | pair {letter : Char} {high low : Nat} {first second : Text}
      (firstValue : readHex first = some (high, []))
      (secondValue : readHex second = some (low, []))
      (highRange : 0xD800 ≤ high ∧ high < 0xDC00)
      (lowRange : 0xDC00 ≤ low ∧ low ≤ 0xDFFF)
      (value : letter.toNat = pairValue high low) :
      Spelling letter (('\\' :: 'u' :: first) ++ ('\\' :: 'u' :: second))

/-- The characters of a string one after another, each in some spelling. -/
inductive Letters (spelling : Char → Text → Prop) : Text → Text → Prop
  | nil : Letters spelling [] []
  | cons {letter : Char} {letters written rest : Text}
      (head : spelling letter written) (tail : Letters spelling letters rest) :
      Letters spelling (letter :: letters) (written ++ rest)

/-- The decimal text of an integer, without leading zeros. -/
def intText (value : Int) : Text :=
  if value < 0 then '-' :: Nat.toDigits 10 value.natAbs
  else Nat.toDigits 10 value.natAbs

/-- What a piece of a JSON text stands for: a value, the items of a nonempty
array, or the members of a nonempty object. -/
inductive Fragment
  | value (value : Json)
  | items (items : List Json)
  | members (members : List (Text × Json))

/-- The compact texts of a fragment, whose strings write each character in a
spelling the parameter admits. -/
inductive Spells (spelling : Char → Text → Prop) : Fragment → Text → Prop
  | null : Spells spelling (.value .null) "null".toList
  | true : Spells spelling (.value (.bool true)) "true".toList
  | false : Spells spelling (.value (.bool false)) "false".toList
  | int (value : Int) : Spells spelling (.value (.int value)) (intText value)
  | str {value text : Text} (letters : Letters spelling value text) :
      Spells spelling (.value (.str value)) ('"' :: text ++ ['"'])
  | emptyArr : Spells spelling (.value (.arr [])) "[]".toList
  | arr {items : List Json} {text : Text}
      (inner : Spells spelling (.items items) text) :
      Spells spelling (.value (.arr items)) ('[' :: text ++ [']'])
  | emptyObj : Spells spelling (.value (.obj [])) "{}".toList
  | obj {members : List (Text × Json)} {text : Text}
      (inner : Spells spelling (.members members) text) :
      Spells spelling (.value (.obj members)) ('{' :: text ++ ['}'])
  | lastItem {item : Json} {text : Text}
      (head : Spells spelling (.value item) text) :
      Spells spelling (.items [item]) text
  | item {item : Json} {items : List Json} {text rest : Text}
      (head : Spells spelling (.value item) text)
      (tail : Spells spelling (.items items) rest) :
      Spells spelling (.items (item :: items)) (text ++ ',' :: rest)
  | lastMember {name nameText : Text} {value : Json} {text : Text}
      (key : Letters spelling name nameText)
      (head : Spells spelling (.value value) text) :
      Spells spelling (.members [(name, value)])
        ('"' :: nameText ++ '"' :: ':' :: text)
  | member {name nameText : Text} {value : Json}
      {members : List (Text × Json)} {text rest : Text}
      (key : Letters spelling name nameText)
      (head : Spells spelling (.value value) text)
      (tail : Spells spelling (.members members) rest) :
      Spells spelling (.members ((name, value) :: members))
        ('"' :: nameText ++ '"' :: ':' :: text ++ ',' :: rest)

theorem exists_of_readHex {digits : Text} {value : Nat}
    (read : readHex digits = some (value, [])) :
    ∃ a b c d, digits = [a, b, c, d] := by
  unfold readHex at read
  split at read
  next a b c d rest =>
    simp only [Option.bind_eq_bind, Option.bind_eq_some_iff, Option.some.injEq,
      Prod.mk.injEq] at read
    obtain ⟨_, _, _, _, _, _, _, _, _, restEq⟩ := read
    exact ⟨a, b, c, d, by rw [restEq]⟩
  next => simp at read

theorem hexValue_isSome_iff {digit : Char} :
    (hexValue digit).isSome = true ↔ (0x30 ≤ digit.toNat ∧ digit.toNat ≤ 0x39) ∨
      (0x41 ≤ digit.toNat ∧ digit.toNat ≤ 0x46) ∨
        (0x61 ≤ digit.toNat ∧ digit.toNat ≤ 0x66) := by
  have code : digit.val.toNat = digit.toNat := rfl
  simp only [hexValue, Char.le_def, UInt32.le_iff_toNat_le, code, Char.reduceVal,
    UInt32.reduceToNat]
  split_ifs with decimal lower upper <;> simp only [Option.isSome_some, Option.isSome_none,
    Bool.false_eq_true, false_iff, true_iff] <;> omega

theorem hexValue_isSome_of_readHex {digits : Text} {value : Nat}
    (read : readHex digits = some (value, [])) :
    ∀ digit ∈ digits, (hexValue digit).isSome = true := by
  obtain ⟨a, b, c, d, rfl⟩ := exists_of_readHex read
  simp only [readHex, Option.bind_eq_bind, Option.bind_eq_some_iff] at read
  obtain ⟨_, first, _, second, _, third, _, fourth, _⟩ := read
  simp [first, second, third, fourth]

theorem readHex_append {digits : Text} {value : Nat}
    (read : readHex digits = some (value, [])) (rest : Text) :
    readHex (digits ++ rest) = some (value, rest) := by
  obtain ⟨a, b, c, d, rfl⟩ := exists_of_readHex read
  simp only [readHex, Option.bind_eq_bind, Option.bind_eq_some_iff, Option.some.injEq,
    Prod.mk.injEq, List.cons_append, List.nil_append] at read ⊢
  obtain ⟨first, firstEq, second, secondEq, third, thirdEq, fourth, fourthEq,
    valueEq, -⟩ := read
  exact ⟨first, firstEq, second, secondEq, third, thirdEq, fourth, fourthEq,
    valueEq, trivial⟩

theorem readLow_append {second : Text} {high low : Nat} {letter : Char}
    (read : readHex second = some (low, []))
    (lowRange : 0xDC00 ≤ low ∧ low ≤ 0xDFFF)
    (value : letter.toNat = pairValue high low) (rest : Text) :
    readLow high ('\\' :: 'u' :: second ++ rest) = some (letter, rest) := by
  have letterEq : Char.ofNat (pairValue high low) = letter := by
    rw [← value, Char.ofNat_toNat]
  simp [readLow, readHex_append read, lowRange, letterEq]

theorem char_not_surrogate (letter : Char) :
    letter.toNat < 0xD800 ∨ 0xDFFF < letter.toNat := by
  rcases letter.valid with low | high
  · exact Or.inl low
  · exact Or.inr high.1

theorem readLetters_spelling {letter : Char} {written : Text}
    (spelled : Spelling letter written) (fuel : Nat) (rest : Text) :
    readLetters (fuel + 1) (written ++ rest) =
      (readLetters fuel rest).map fun (letters, after) => (letter :: letters, after) := by
  cases spelled with
  | plain printable unquoted unescaped =>
      simp [readLetters, unquoted, unescaped, Nat.not_lt.mpr printable]
  | @short marker escapes =>
      have notUnit : marker ≠ 'u' := by
        rintro rfl
        simp [shortEscape] at escapes
      simp [readLetters, readEscape, notUnit, escapes]
  | unit value =>
      simp [readLetters, readEscape, readHex_append value,
        char_not_surrogate letter, Char.ofNat_toNat]
  | @pair high low first second firstValue secondValue highRange lowRange value =>
      have read := readLow_append secondValue lowRange value rest
      have surrogate : ¬ (high < 0xD800 ∨ 0xDFFF < high) := by omega
      simp only [List.append_assoc, List.cons_append] at read ⊢
      simp [readLetters, readEscape, readHex_append firstValue, surrogate,
        highRange.2, read]

theorem Letters.length_le {value text : Text} (letters : Letters Spelling value text) :
    value.length ≤ text.length := by
  induction letters with
  | nil => simp
  | @cons _ _ written _ head _ ih =>
      have nonempty : 0 < written.length := by
        cases head <;> exact Nat.succ_pos _
      simp only [List.length_cons, List.length_append]
      omega

theorem readLetters_letters {value text : Text}
    (letters : Letters Spelling value text) :
    ∀ fuel, value.length < fuel → ∀ rest,
      readLetters fuel (text ++ '"' :: rest) = some (value, rest) := by
  induction letters with
  | nil =>
      intro fuel enough rest
      obtain ⟨fuel, rfl⟩ := Nat.exists_eq_succ_of_ne_zero (Nat.ne_of_gt enough)
      simp [readLetters]
  | cons head _ ih =>
      intro fuel enough rest
      obtain ⟨fuel, rfl⟩ := Nat.exists_eq_succ_of_ne_zero (Nat.ne_zero_of_lt enough)
      rw [List.append_assoc, Nat.succ_eq_add_one, readLetters_spelling head,
        ih fuel (by simpa using enough) rest]
      rfl

theorem readString_letters {value text : Text}
    (letters : Letters Spelling value text) (rest : Text) :
    readString (text ++ '"' :: rest) = some (value, rest) := by
  have bounded := letters.length_le
  refine readLetters_letters letters _ ?_ rest
  simp only [List.length_append]
  omega

/-- A text at which a number has ended. -/
def Ends (rest : Text) : Prop :=
  rest.head?.any continuesNumber = false

theorem digitChar_eq_zero : ∀ digit < 10, Nat.digitChar digit = '0' → digit = 0 := by
  decide

theorem toDigits_leading_zero (number : Nat) :
    (Nat.toDigits 10 number).head? = some '0' →
      (Nat.toDigits 10 number).length = 1 := by
  induction number using Nat.strong_induction_on with
  | _ number ih =>
      intro leading
      by_cases small : number < 10
      · simp [Nat.toDigits_of_lt_base small]
      · rw [Nat.toDigits_of_base_le (by omega) (by omega),
          List.head?_append_of_ne_nil _ Nat.toDigits_ne_nil] at leading
        have quotientSmall : number / 10 < 10 := by
          have quotientLength := ih (number / 10) (by omega) leading
          have bound := (Nat.length_toDigits_le_iff (b := 10) (n := number / 10)
            (k := 1) (by omega) (by omega)).mp (by omega)
          simpa using bound
        rw [Nat.toDigits_of_lt_base quotientSmall] at leading
        have := digitChar_eq_zero _ quotientSmall (by simpa using leading)
        omega

theorem readDigits_toDigits (number : Nat) {rest : Text} (ends : Ends rest) :
    readDigits (Nat.toDigits 10 number ++ rest) = some (number, rest) := by
  have allDigits : ∀ letter ∈ Nat.toDigits 10 number, letter.isDigit = true :=
    fun letter member => Nat.isDigit_of_mem_toDigits (by omega) (by omega) member
  have restHead : rest.takeWhile Char.isDigit = [] ∧
      rest.dropWhile Char.isDigit = rest := by
    cases rest with
    | nil => simp
    | cons letter rest =>
        have : letter.isDigit = false := by
          simp only [Ends, List.head?_cons, Option.any_some, continuesNumber,
            Bool.or_eq_false_iff] at ends
          exact ends.1.1.1
        simp [this]
  have split : (Nat.toDigits 10 number ++ rest).takeWhile Char.isDigit =
        Nat.toDigits 10 number ∧
      (Nat.toDigits 10 number ++ rest).dropWhile Char.isDigit = rest := by
    rw [List.takeWhile_append_of_pos allDigits, List.dropWhile_append_of_pos allDigits]
    simp [restHead]
  have wellFormed : ¬ (Nat.toDigits 10 number = [] ∨
      ((Nat.toDigits 10 number).head? = some '0' ∧
        (Nat.toDigits 10 number).length ≠ 1) ∨
      rest.head?.any continuesNumber = true) := by
    rintro (empty | ⟨leading, long⟩ | continues)
    · exact Nat.toDigits_ne_nil empty
    · exact long (toDigits_leading_zero number leading)
    · simp [Ends] at ends
      simp [ends] at continues
  rw [readDigits]
  simp only [split, wellFormed, if_false, Nat.ofDigitChars_ten_toDigits]

theorem exists_toDigits_cons (number : Nat) :
    ∃ letter letters, Nat.toDigits 10 number = letter :: letters ∧
      letter.isDigit = true := by
  obtain ⟨letter, letters, digits⟩ :=
    List.exists_cons_of_ne_nil (Nat.toDigits_ne_nil (n := number) (b := 10))
  have member : letter ∈ Nat.toDigits 10 number := by
    rw [digits]
    simp
  exact ⟨letter, letters, digits,
    Nat.isDigit_of_mem_toDigits (by omega) (by omega) member⟩

theorem ne_of_isDigit {letter other : Char} (digit : letter.isDigit = true)
    (notDigit : other.isDigit = false) : letter ≠ other := by
  rintro rfl
  simp [digit] at notDigit

theorem readInt_intText (value : Int) {rest : Text} (ends : Ends rest) :
    readInt (intText value ++ rest) = some (.int value, rest) := by
  have digits := readDigits_toDigits value.natAbs ends
  unfold intText
  split_ifs with negative
  · simp only [List.cons_append, readInt, if_true, digits, Option.map_some]
    have : -(value.natAbs : Int) = value := by omega
    rw [this]
  · obtain ⟨letter, letters, split, digit⟩ := exists_toDigits_cons value.natAbs
    rw [split] at digits ⊢
    have notSign : letter ≠ '-' := ne_of_isDigit digit (by decide)
    rw [List.cons_append] at digits ⊢
    simp only [readInt, notSign, if_false, digits, Option.map_some]
    have : (value.natAbs : Int) = value := by omega
    rw [this]

theorem exists_intText_cons (value : Int) :
    ∃ letter letters, intText value = letter :: letters ∧
      (letter = '-' ∨ letter.isDigit = true) := by
  unfold intText
  split_ifs with negative
  · exact ⟨'-', _, rfl, Or.inl rfl⟩
  · obtain ⟨letter, letters, split, digit⟩ := exists_toDigits_cons value.natAbs
    exact ⟨letter, letters, split, Or.inr digit⟩

def Begins (letter : Char) : Prop :=
  isSpace letter = false ∧ letter ≠ ']' ∧ letter ≠ '}'

theorem exists_spells_cons {spelling : Char → Text → Prop} {value : Json} {text : Text}
    (spells : Spells spelling (.value value) text) :
    ∃ letter letters, text = letter :: letters ∧ Begins letter := by
  cases spells with
  | int value =>
      obtain ⟨letter, letters, split, first⟩ := exists_intText_cons value
      refine ⟨letter, letters, split, ?_⟩
      rcases first with rfl | digit
      · exact ⟨by decide, by decide, by decide⟩
      · have differs : ∀ other : Char, other.isDigit = false → letter ≠ other :=
          fun other notDigit => ne_of_isDigit digit notDigit
        exact ⟨by simp [isSpace, differs], differs ']' rfl, differs '}' rfl⟩
  | _ => exact ⟨_, _, rfl, by decide, by decide, by decide⟩

theorem skipSpaces_cons {letter : Char} (rest : Text) (solid : isSpace letter = false) :
    skipSpaces (letter :: rest) = letter :: rest := by
  simp [skipSpaces, solid]

theorem skipSpaces_delimiter {letter : Char} (rest : Text)
    (delimiter : letter = ',' ∨ letter = ']' ∨ letter = '}' ∨ letter = ':' ∨ letter = '"') :
    skipSpaces (letter :: rest) = letter :: rest := by
  apply skipSpaces_cons rest
  rcases delimiter with rfl | rfl | rfl | rfl | rfl <;> rfl

theorem ends_delimiter {letter : Char} (rest : Text)
    (delimiter : letter = ',' ∨ letter = ']' ∨ letter = '}') : Ends (letter :: rest) := by
  rcases delimiter with rfl | rfl | rfl <;> rfl

/-- What the decoder must do on a fragment's text: read it whole, at every
sufficient fuel and before every text that ends it. -/
def Reads : Fragment → Text → Prop
  | .value value, text => ∀ fuel, text.length ≤ fuel → ∀ rest, Ends rest →
      readValue fuel (text ++ rest) = some (value, rest)
  | .items items, text => ∀ fuel, text.length + 1 ≤ fuel → ∀ rest,
      readItems fuel (text ++ ']' :: rest) = some (items, rest)
  | .members members, text => ∀ fuel, text.length + 1 ≤ fuel → ∀ rest,
      readMembers fuel (text ++ '}' :: rest) = some (members, rest)

/-- A value whose text is not empty is read with at least one unit of fuel. -/
theorem Reads.of_value {value : Json} {text : Text} (nonempty : text ≠ [])
    (reads : ∀ fuel, text.length ≤ fuel + 1 → ∀ rest, Ends rest →
      readValue (fuel + 1) (text ++ rest) = some (value, rest)) :
    Reads (.value value) text := by
  intro fuel enough
  cases fuel with
  | zero => exact absurd (List.length_eq_zero_iff.mp (by omega)) nonempty
  | succ fuel => exact reads fuel enough

theorem Reads.of_items {items : List Json} {text : Text}
    (reads : ∀ fuel, text.length ≤ fuel → ∀ rest,
      readItems (fuel + 1) (text ++ ']' :: rest) = some (items, rest)) :
    Reads (.items items) text := by
  intro fuel enough
  cases fuel with
  | zero => omega
  | succ fuel => exact reads fuel (by omega)

theorem Reads.of_members {members : List (Text × Json)} {text : Text}
    (reads : ∀ fuel, text.length ≤ fuel → ∀ rest,
      readMembers (fuel + 1) (text ++ '}' :: rest) = some (members, rest)) :
    Reads (.members members) text := by
  intro fuel enough
  cases fuel with
  | zero => omega
  | succ fuel => exact reads fuel (by omega)

theorem reads_int (value : Int) : Reads (.value (.int value)) (intText value) := by
  obtain ⟨letter, letters, split, first⟩ := exists_intText_cons value
  apply Reads.of_value (by simp [split])
  intro fuel _ rest ends
  have read := readInt_intText value ends
  obtain ⟨_, _, splitAgain, begins⟩ := exists_spells_cons
    (Spells.int value : Spells Spelling _ _)
  obtain ⟨rfl, rfl⟩ := List.cons.inj (split.symm.trans splitAgain)
  have dispatch : letter ≠ '"' ∧ letter ≠ '[' ∧ letter ≠ '{' ∧ letter ≠ 'n' ∧
      letter ≠ 't' ∧ letter ≠ 'f' := by
    rcases first with rfl | digit
    · decide
    · exact ⟨ne_of_isDigit digit rfl, ne_of_isDigit digit rfl,
        ne_of_isDigit digit rfl, ne_of_isDigit digit rfl,
        ne_of_isDigit digit rfl, ne_of_isDigit digit rfl⟩
  rw [split, List.cons_append] at read ⊢
  rw [readValue, skipSpaces_cons _ begins.1]
  simp only [dispatch, if_false, read]

theorem reads_items_step {item : Json} {text : Text} (head : Reads (.value item) text)
    {fuel : Nat} (enough : text.length ≤ fuel) {letter : Char} (rest : Text)
    (delimiter : letter = ',' ∨ letter = ']') :
    readItems (fuel + 1) (text ++ letter :: rest) =
      if letter = ']' then some ([item], rest)
      else (readItems fuel rest).map fun (items, rest) => (item :: items, rest) := by
  have ends : Ends (letter :: rest) := ends_delimiter rest (by tauto)
  rw [readItems, head fuel enough _ ends, Option.bind_some]
  simp only [skipSpaces_delimiter rest (by tauto : letter = ',' ∨ _)]
  rcases delimiter with rfl | rfl <;> simp

theorem reads_members_step {name nameText : Text} {value : Json} {text : Text}
    (key : Letters Spelling name nameText) (head : Reads (.value value) text)
    {fuel : Nat} (enough : text.length ≤ fuel) {letter : Char} (rest : Text)
    (delimiter : letter = ',' ∨ letter = '}') :
    readMembers (fuel + 1) ('"' :: nameText ++ '"' :: ':' :: text ++ letter :: rest) =
      if letter = '}' then some ([(name, value)], rest)
      else (readMembers fuel rest).map fun (members, rest) =>
        ((name, value) :: members, rest) := by
  have ends : Ends (letter :: rest) := ends_delimiter rest (by tauto)
  have named := readString_letters key (':' :: (text ++ letter :: rest))
  simp only [List.cons_append, List.append_assoc] at named ⊢
  rw [readMembers, skipSpaces_delimiter _ (by tauto)]
  simp only [if_true, named, Option.bind_some,
    skipSpaces_delimiter _ (by tauto : ':' = ',' ∨ _), head fuel enough _ ends,
    skipSpaces_delimiter rest (by tauto : letter = ',' ∨ _)]
  rcases delimiter with rfl | rfl <;> simp

/-- The decoder reads every compact text, by induction on how the text is
built. -/
theorem reads_of_spells {fragment : Fragment} {text : Text}
    (spells : Spells Spelling fragment text) : Reads fragment text := by
  induction spells with
  | null | true | false =>
      apply Reads.of_value (by simp)
      intro fuel _ rest _
      simp [readValue, skipSpaces, isSpace, readKeyword, List.isPrefixOf?]
  | int value => exact reads_int value
  | str letters =>
      apply Reads.of_value (by simp)
      intro fuel _ rest _
      have read := readString_letters letters rest
      simp only [List.cons_append, List.append_assoc, List.nil_append] at read ⊢
      rw [readValue, skipSpaces_delimiter _ (by tauto)]
      simp [read]
  | emptyArr | emptyObj =>
      apply Reads.of_value (by simp)
      intro fuel _ rest _
      simp [readValue, skipSpaces, isSpace]
  | @arr items text inner ih =>
      apply Reads.of_value (by simp)
      intro fuel enough rest _
      have read := ih fuel (by simp at enough; omega) rest
      obtain ⟨letter, letters, rfl, begins⟩ : ∃ letter letters,
          text = letter :: letters ∧ Begins letter := by
        cases inner with
        | lastItem head => exact exists_spells_cons head
        | item head _ =>
            obtain ⟨letter, letters, rfl, begins⟩ := exists_spells_cons head
            exact ⟨letter, _, rfl, begins⟩
      simp only [List.cons_append, List.append_assoc, List.nil_append] at read ⊢
      rw [readValue, skipSpaces_cons _ (by decide)]
      simp [skipSpaces_cons _ begins.1, begins.2.1, read]
  | @obj members text inner ih =>
      apply Reads.of_value (by simp)
      intro fuel enough rest _
      have read := ih fuel (by simp at enough; omega) rest
      obtain ⟨letters, rfl⟩ : ∃ letters, text = '"' :: letters := by
        cases inner <;> exact ⟨_, rfl⟩
      simp only [List.cons_append, List.append_assoc, List.nil_append] at read ⊢
      rw [readValue, skipSpaces_cons _ (by decide)]
      simp [skipSpaces_delimiter _ (by tauto : '"' = ',' ∨ _), read]
  | lastItem head ih =>
      apply Reads.of_items
      intro fuel enough rest
      rw [reads_items_step ih enough rest (Or.inr rfl)]
      simp
  | @item item items text rest head tail ihHead ihTail =>
      apply Reads.of_items
      intro fuel enough after
      have bounds : text.length ≤ fuel ∧ rest.length + 1 ≤ fuel := by
        simp at enough
        omega
      rw [List.append_assoc, List.cons_append, reads_items_step ihHead bounds.1 _ (Or.inl rfl),
        ihTail fuel bounds.2 after]
      simp
  | lastMember key head ih =>
      apply Reads.of_members
      intro fuel enough rest
      rw [reads_members_step key ih (by simp at enough; omega) rest (Or.inr rfl)]
      simp
  | @member name nameText value members text rest key head tail ihHead ihTail =>
      apply Reads.of_members
      intro fuel enough after
      have bounds : text.length ≤ fuel ∧ rest.length + 1 ≤ fuel := by
        simp at enough
        omega
      have read := ihTail fuel bounds.2 after
      have step := reads_members_step key ihHead bounds.1
        (rest ++ '}' :: after) (Or.inl rfl)
      simp only [List.append_assoc, List.cons_append] at step read ⊢
      rw [step, read]
      simp

/-- Decoding a compact text gives the value it spells. -/
theorem decode_of_spells {value : Json} {text : Text}
    (spells : Spells Spelling (.value value) text) : decode text = some value := by
  have read := reads_of_spells spells (text.length + 1) (by omega) [] rfl
  rw [List.append_nil] at read
  simp [decode, read, skipSpaces]

def mustEscape (letter : Char) : Bool :=
  letter == '"' || letter == '\\' || letter.toNat < 0x20

/-- The spellings of an encoder that escapes what it must and nothing else. -/
def MinimalSpelling (letter : Char) (written : Text) : Prop :=
  Spelling letter written ∧ (mustEscape letter = false → written = [letter])

/-- The four hexadecimal digits of a sixteen-bit number, in lowercase. -/
def hexText (unit : Nat) : Text :=
  [Nat.digitChar (unit / 4096 % 16), Nat.digitChar (unit / 256 % 16),
    Nat.digitChar (unit / 16 % 16), Nat.digitChar (unit % 16)]

theorem hexValue_digitChar : ∀ digit < 16, hexValue (Nat.digitChar digit) = some digit := by
  decide

theorem readHex_hexText {unit : Nat} (bounded : unit < 0x10000) :
    readHex (hexText unit) = some (unit, []) := by
  simp only [hexText, readHex, Option.bind_eq_bind, Option.bind_some,
    hexValue_digitChar _ (Nat.mod_lt _ (by omega : 0 < 16))]
  congr 2
  omega

theorem Letters.mono {first second : Char → Text → Prop}
    (admits : ∀ letter written, first letter written → second letter written)
    {value text : Text} (letters : Letters first value text) :
    Letters second value text := by
  induction letters with
  | nil => exact Letters.nil
  | cons head _ ih => exact Letters.cons (admits _ _ head) ih

theorem Spells.mono {first second : Char → Text → Prop}
    (admits : ∀ letter written, first letter written → second letter written)
    {fragment : Fragment} {text : Text} (spells : Spells first fragment text) :
    Spells second fragment text := by
  induction spells with
  | null => exact Spells.null
  | true => exact Spells.true
  | false => exact Spells.false
  | int value => exact Spells.int value
  | str letters => exact Spells.str (letters.mono admits)
  | emptyArr => exact Spells.emptyArr
  | arr _ ih => exact Spells.arr ih
  | emptyObj => exact Spells.emptyObj
  | obj _ ih => exact Spells.obj ih
  | lastItem _ ih => exact Spells.lastItem ih
  | item _ _ ihHead ihTail => exact Spells.item ihHead ihTail
  | lastMember key _ ih => exact Spells.lastMember (key.mono admits) ih
  | member key _ _ ihHead ihTail => exact Spells.member (key.mono admits) ihHead ihTail

end Json

end LibidBridge
