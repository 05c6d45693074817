import Mathlib.Data.List.Basic
import Mathlib.Data.List.Infix
import Mathlib.Data.List.TakeWhile
import Mathlib.Tactic.Common

/-!
# Delimited text

Text is the list of its Unicode scalar values, and a byte string the list of
its bytes.  This file gives the string operations a program reads a delimited
header with, in the semantics of their documentation: splitting at a
delimiter, splitting into whitespace-separated tokens, comparing without
regard to ASCII case, and encoding as UTF-8.  The main result is that
splitting a joined text at its delimiters gives the joined tokens back.
-/

namespace LibidBridge

/-- A text, as its Unicode scalar values. -/
abbrev Text := List Char

abbrev Bytes := List UInt8

/-- Whether every element of a list has a property is decided along the list,
also where its type is finite and could be enumerated. -/
instance (priority := 2000) decidableAll {α : Type*} {p : α → Prop} [DecidablePred p]
    (elements : List α) : Decidable (∀ element ∈ elements, p element) :=
  List.decidableBAll p elements

section Tokens

variable {α : Type*}

/-- The nonempty pieces between the elements `isSpace` accepts. -/
def tokens (isSpace : α → Bool) (text : List α) : List (List α) :=
  (text.splitOnP isSpace).filter fun piece => !piece.isEmpty

@[simp]
theorem tokens_nil (isSpace : α → Bool) : tokens isSpace [] = [] := by
  simp [tokens, List.splitOnP_nil]

theorem tokens_space_cons {isSpace : α → Bool} {space : α}
    (spaced : isSpace space = true) (text : List α) :
    tokens isSpace (space :: text) = tokens isSpace text := by
  simp [tokens, List.splitOnP_cons_eq_if_modifyHead, spaced]

theorem tokens_spaces_append {isSpace : α → Bool} {spaces : List α}
    (spaced : ∀ space ∈ spaces, isSpace space = true) (text : List α) :
    tokens isSpace (spaces ++ text) = tokens isSpace text := by
  induction spaces with
  | nil => rfl
  | cons space spaces ih =>
      rw [List.cons_append, tokens_space_cons (spaced space (by simp))]
      exact ih fun other member => spaced other (by simp [member])

/-- A token is a nonempty text holding no space. -/
def IsToken (isSpace : α → Bool) (token : List α) : Prop :=
  token ≠ [] ∧ ∀ letter ∈ token, isSpace letter = false

theorem tokens_of_isToken {isSpace : α → Bool} {token : List α}
    (valid : IsToken isSpace token) : tokens isSpace token = [token] := by
  rw [tokens, List.splitOnP_eq_singleton valid.2]
  simp [valid.1]

theorem tokens_token_space {isSpace : α → Bool} {token : List α} {space : α}
    (valid : IsToken isSpace token) (spaced : isSpace space = true)
    (rest : List α) :
    tokens isSpace (token ++ space :: rest) = token :: tokens isSpace rest := by
  rw [tokens, List.splitOnP_append_cons_of_forall_mem valid.2 space spaced]
  simp [tokens, valid.1]

/-- Splitting tokens joined by a space gives the tokens back. -/
theorem tokens_intercalate {isSpace : α → Bool} {space : α}
    (spaced : isSpace space = true) {words : List (List α)}
    (valid : ∀ word ∈ words, IsToken isSpace word) :
    tokens isSpace ([space].intercalate words) = words := by
  induction words with
  | nil => simp
  | cons word words ih =>
      have wordValid : IsToken isSpace word := valid word (by simp)
      have restValid : ∀ other ∈ words, IsToken isSpace other :=
        fun other member => valid other (by simp [member])
      cases words with
      | nil => simpa using tokens_of_isToken wordValid
      | cons next words =>
          rw [List.intercalate_cons_cons, List.append_assoc, List.singleton_append,
            tokens_token_space wordValid spaced, ih restValid]

/-- Tokens depend on which letters of the text are spaces, and on no others. -/
theorem tokens_congr {isSpace other : α → Bool} {text : List α}
    (same : ∀ letter ∈ text, isSpace letter = other letter) :
    tokens isSpace text = tokens other text := by
  have split : text.splitOnP isSpace = text.splitOnP other := by
    induction text with
    | nil => simp [List.splitOnP_nil]
    | cons letter text ih =>
        have tail := ih fun next member => same next (by simp [member])
        rw [List.splitOnP_cons_eq_if_modifyHead, List.splitOnP_cons_eq_if_modifyHead, tail,
          same letter (by simp)]
  rw [tokens, tokens, split]

/-- What a joined text holds comes from its parts or the separator. -/
theorem mem_intercalate {separator : List α} {parts : List (List α)} {letter : α}
    (member : letter ∈ separator.intercalate parts) :
    letter ∈ separator ∨ ∃ part ∈ parts, letter ∈ part := by
  induction parts with
  | nil => simp at member
  | cons part parts ih =>
      cases parts with
      | nil => exact Or.inr ⟨part, by simp, by simpa using member⟩
      | cons next parts =>
          rw [List.intercalate_cons_cons, List.mem_append, List.mem_append] at member
          rcases member with (inPart | inSeparator) | inRest
          · exact Or.inr ⟨part, by simp, inPart⟩
          · exact Or.inl inSeparator
          · rcases ih inRest with inSeparator | ⟨found, foundMem, inFound⟩
            · exact Or.inl inSeparator
            · exact Or.inr ⟨found, List.mem_cons_of_mem _ foundMem, inFound⟩

theorem mem_intercalate_of_mem {separator : List α} {parts : List (List α)}
    {part : List α} {letter : α} (partMem : part ∈ parts) (inPart : letter ∈ part) :
    letter ∈ separator.intercalate parts := by
  induction parts with
  | nil => simp at partMem
  | cons head parts ih =>
      cases parts with
      | nil => simpa using (by simpa using partMem : part = head) ▸ inPart
      | cons next parts =>
          rw [List.intercalate_cons_cons, List.mem_append, List.mem_append]
          rcases List.mem_cons.mp partMem with rfl | inRest
          · exact Or.inl (Or.inl inPart)
          · exact Or.inr (ih inRest)

/-- A letter of a text written code by code lies in the code of one of its
letters, with the rest of that code after it. -/
theorem flatMap_eq_append_cons {β : Type*} {code : α → List β} {text : List α}
    {before after : List β} {letter : β}
    (split : text.flatMap code = before ++ letter :: after) :
    ∃ coded ∈ text, ∃ start rest more, code coded = start ++ letter :: rest ∧
      after = rest ++ more := by
  induction text generalizing before with
  | nil => simp at split
  | cons head text ih =>
      rw [List.flatMap_cons, List.append_eq_append_iff] at split
      rcases split with ⟨passed, _, split⟩ | ⟨passed, inHead, split⟩
      · obtain ⟨coded, member, inCode⟩ := ih split
        exact ⟨coded, List.mem_cons_of_mem _ member, inCode⟩
      · cases passed with
        | nil =>
            obtain ⟨coded, member, inCode⟩ := @ih [] split.symm
            exact ⟨coded, List.mem_cons_of_mem _ member, inCode⟩
        | cons first passed =>
            rw [List.cons_append, List.cons.injEq] at split
            obtain ⟨rfl, rest⟩ := split
            exact ⟨head, by simp, before, passed, text.flatMap code, inHead, rest⟩

variable [DecidableEq α]

/-- Splitting at a delimiter that was followed by padding leaves the padding
at the head of every piece but the first. -/
theorem splitOn_intercalate_padded {delimiter : α} {padding : List α}
    (padded : delimiter ∉ padding) {piece : List α} {pieces : List (List α)}
    (pieceFree : delimiter ∉ piece)
    (piecesFree : ∀ other ∈ pieces, delimiter ∉ other) :
    ((delimiter :: padding).intercalate (piece :: pieces)).splitOn delimiter =
      piece :: pieces.map (padding ++ ·) := by
  have unpadded : (delimiter :: padding).intercalate (piece :: pieces) =
      [delimiter].intercalate (piece :: pieces.map (padding ++ ·)) := by
    induction pieces generalizing piece with
    | nil => simp
    | cons next pieces ih =>
        have tail := @ih next (piecesFree next (by simp))
          (fun other member => piecesFree other (by simp [member]))
        rw [List.intercalate_cons_cons, tail, List.map_cons,
          List.intercalate_cons_cons]
        cases pieces <;> simp [List.intercalate_cons_cons, List.append_assoc]
  rw [unpadded]
  refine List.splitOn_intercalate delimiter ?_ (by simp)
  intro other member
  rcases List.mem_cons.mp member with rfl | mapped
  · exact pieceFree
  · obtain ⟨inner, innerMem, rfl⟩ := List.mem_map.mp mapped
    simp [padded, piecesFree inner innerMem]

/-- Two levels of joining, read back by two levels of splitting: rows of
tokens, each row joined by a space and the rows by a padded delimiter. -/
theorem map_tokens_splitOn_intercalate {isSpace : α → Bool}
    {delimiter space : α} (spaced : isSpace space = true)
    (distinct : delimiter ≠ space) {rows : List (List (List α))}
    (nonempty : rows ≠ [])
    (valid : ∀ row ∈ rows, ∀ word ∈ row,
      IsToken isSpace word ∧ delimiter ∉ word) :
    ((([delimiter, space].intercalate
      (rows.map ([space].intercalate))).splitOn delimiter).map
        (tokens isSpace)) = rows := by
  obtain ⟨row, others, rfl⟩ := List.exists_cons_of_ne_nil nonempty
  have joinedFree : ∀ words : List (List α), (∀ word ∈ words, delimiter ∉ word) →
      delimiter ∉ [space].intercalate words := by
    intro words free member
    rcases mem_intercalate member with inSpace | ⟨word, wordMem, inWord⟩
    · exact distinct (by simpa using inSpace)
    · exact free word wordMem inWord
  rw [List.map_cons, splitOn_intercalate_padded (by simpa using distinct)
    (joinedFree row fun word member => (valid row (by simp) word member).2)]
  · have readBack : ∀ words ∈ row :: others,
        tokens isSpace ([space].intercalate words) = words := fun words member =>
      tokens_intercalate spaced fun word inner => (valid words member word inner).1
    rw [List.map_cons, readBack row (by simp), List.map_map, List.map_map]
    congr 1
    refine (List.map_congr_left fun words member => ?_).trans (List.map_id others)
    have spacing : tokens isSpace ([space] ++ [space].intercalate words) =
        tokens isSpace ([space].intercalate words) :=
      tokens_spaces_append (by simpa using spaced) _
    simpa [Function.comp_def] using spacing.trans (readBack words (by simp [member]))
  · intro joined member
    obtain ⟨words, wordsMem, rfl⟩ := List.mem_map.mp member
    exact joinedFree words fun word inner =>
      (valid words (by simp [wordsMem]) word inner).2

end Tokens

section Padding

variable {α : Type*} {pad : α}

/-- Where no pad is followed by another letter, everything after a pad is one. -/
theorem eq_pad_of_mem {rest : List α}
    (kept : ∀ before letter after, pad :: rest = before ++ pad :: letter :: after → letter = pad) :
    ∀ letter ∈ rest, letter = pad := by
  induction rest with
  | nil => simp
  | cons next rest ih =>
      obtain rfl : next = pad := kept [] next rest rfl
      rw [List.forall_mem_cons]
      refine ⟨rfl, ih fun before letter after same => ?_⟩
      exact kept (next :: before) letter after (by rw [same, List.cons_append])

/-- A letter that follows a pad is a pad, where pads only end the word. -/
theorem eq_pad_of_append_replicate {body before after : List α} {letter : α} {count : Nat}
    (padless : pad ∉ body)
    (same : body ++ List.replicate count pad = before ++ pad :: letter :: after) :
    letter = pad := by
  rcases List.append_eq_append_iff.mp same with ⟨inner, _, pads⟩ | ⟨inner, bodySplit, tail⟩
  · exact List.eq_of_mem_replicate (pads ▸ by simp : letter ∈ List.replicate count pad)
  · cases inner with
    | nil =>
        rw [List.nil_append] at tail
        have member : letter ∈ List.replicate count pad := by
          rw [← tail]
          simp
        exact List.eq_of_mem_replicate member
    | cons first inner =>
        obtain ⟨rfl, _⟩ := List.cons.inj tail
        exact absurd (by simp [bodySplit]) padless

/-- A word ends in no more pads than it is padded with. -/
theorem not_replicate_suffix {body : List α} {count more : Nat} (padless : pad ∉ body)
    (fewer : count < more) : ¬ List.replicate more pad <:+ body ++ List.replicate count pad := by
  rintro ⟨front, same⟩
  have pads : List.replicate more pad =
      List.replicate (more - count) pad ++ List.replicate count pad := by
    rw [List.replicate_append_replicate]
    congr 1
    omega
  rw [pads, ← List.append_assoc] at same
  apply padless
  rw [← List.append_cancel_right same, List.mem_append, List.mem_replicate]
  exact Or.inr ⟨by omega, rfl⟩

variable [DecidableEq α]

/-- Where no pad is followed by another letter, a word is its letters before
the first pad, and pads. -/
theorem eq_takeWhile_append_replicate {word : List α}
    (kept : ∀ before letter after, word = before ++ pad :: letter :: after → letter = pad) :
    word = word.takeWhile (· ≠ pad) ++
      List.replicate (word.dropWhile (· ≠ pad)).length pad := by
  have split : word.takeWhile (· ≠ pad) ++ word.dropWhile (· ≠ pad) = word :=
    List.takeWhile_append_dropWhile
  have pads : ∀ letter ∈ word.dropWhile (· ≠ pad), letter = pad := by
    cases cut : word.dropWhile (· ≠ pad) with
    | nil => simp
    | cons first rest =>
        obtain rfl : first = pad := by
          have stopped := List.head?_dropWhile_not (fun letter : α => decide (letter ≠ pad)) word
          rw [cut] at stopped
          simpa using stopped
        rw [List.forall_mem_cons]
        refine ⟨rfl, eq_pad_of_mem fun before letter after same => ?_⟩
        apply kept (word.takeWhile (· ≠ first) ++ before) letter after
        rw [List.append_assoc, ← same, ← cut, split]
  rw [← List.eq_replicate_iff.mpr ⟨rfl, pads⟩, split]

/-- A word is a nonempty body without pads and then at most `limit` of them
exactly where it neither begins with a pad, nor holds one that another letter
follows, nor ends in more of them. -/
theorem exists_padded_iff {word : List α} {limit : Nat} (nonempty : word ≠ []) :
    (∃ body count, body ≠ [] ∧ pad ∉ body ∧ count ≤ limit ∧
      word = body ++ List.replicate count pad) ↔
    word.head? ≠ some pad ∧
      (∀ before letter after, word = before ++ pad :: letter :: after → letter = pad) ∧
        ¬ List.replicate (limit + 1) pad <:+ word := by
  constructor
  · rintro ⟨body, count, bodyNonempty, padless, bounded, rfl⟩
    refine ⟨?_, fun before letter after same => eq_pad_of_append_replicate padless same,
      not_replicate_suffix padless (by omega)⟩
    obtain ⟨first, body, rfl⟩ := List.exists_cons_of_ne_nil bodyNonempty
    intro starts
    obtain rfl : first = pad := by simpa using starts
    exact padless (by simp)
  · rintro ⟨starts, kept, ends⟩
    have split := eq_takeWhile_append_replicate kept
    have padless : pad ∉ word.takeWhile (· ≠ pad) := by
      intro member
      simpa using List.mem_takeWhile_imp member
    refine ⟨_, _, ?_, padless, ?_, split⟩
    · intro bodyEmpty
      apply starts
      obtain ⟨first, rest, rfl⟩ := List.exists_cons_of_ne_nil nonempty
      rw [bodyEmpty, List.nil_append] at split
      have member : first ∈ List.replicate
          ((first :: rest).dropWhile (· ≠ pad)).length pad := split ▸ List.mem_cons_self
      rw [List.head?_cons, List.eq_of_mem_replicate member]
    · by_contra more
      apply ends
      rw [split]
      refine List.IsSuffix.trans ?_ (List.suffix_append _ _)
      refine ⟨List.replicate ((word.dropWhile (· ≠ pad)).length - (limit + 1)) pad, ?_⟩
      rw [List.replicate_append_replicate]
      congr 1
      omega

end Padding

namespace Text

/-- The Unicode `White_Space` property. -/
def isWhitespace (letter : Char) : Bool :=
  let code := letter.toNat
  (0x09 ≤ code && code ≤ 0x0D) || code == 0x20 || code == 0x85 || code == 0xA0 ||
    code == 0x1680 || (0x2000 ≤ code && code ≤ 0x200A) || code == 0x2028 ||
    code == 0x2029 || code == 0x202F || code == 0x205F || code == 0x3000

def splitWhitespace (text : Text) : List Text :=
  tokens isWhitespace text

def trimStart (text : Text) : Text :=
  text.dropWhile isWhitespace

def trim (text : Text) : Text :=
  ((trimStart text).reverse.dropWhile isWhitespace).reverse

/-- Equality up to the case of ASCII letters. -/
def eqIgnoreAsciiCase (first second : Text) : Bool :=
  first.map Char.toLower == second.map Char.toLower

theorem eqIgnoreAsciiCase_iff {first second : Text} :
    eqIgnoreAsciiCase first second = true ↔
      first.map Char.toLower = second.map Char.toLower :=
  beq_iff_eq

theorem toLower_of_isUpper_eq_false {letter : Char} (notUpper : letter.isUpper = false) :
    letter.toLower = letter := by
  delta Char.toLower
  split
  next upper =>
    have isUpper : letter.isUpper = true := by
      delta Char.isUpper
      simpa using upper
    simp [isUpper] at notUpper
  next => rfl

/-- The texts on either side of the first occurrence of a delimiter. -/
def splitOnce (delimiter : Char) (text : Text) : Option (Text × Text) :=
  if delimiter ∈ text then
    some (text.takeWhile (· ≠ delimiter), (text.dropWhile (· ≠ delimiter)).drop 1)
  else none

theorem splitOnce_eq_some {delimiter : Char} {text before after : Text}
    (split : splitOnce delimiter text = some (before, after)) :
    text = before ++ delimiter :: after := by
  unfold splitOnce at split
  split_ifs at split with member
  obtain ⟨rfl, rfl⟩ := Prod.mk.inj (Option.some.inj split)
  obtain ⟨head, tail, cut⟩ : ∃ head tail,
      text.dropWhile (· ≠ delimiter) = head :: tail := by
    cases cut : text.dropWhile (· ≠ delimiter) with
    | nil => simpa using List.dropWhile_eq_nil_iff.mp cut delimiter member
    | cons head tail => exact ⟨head, tail, rfl⟩
  have headEq : head = delimiter := by
    have stopped := List.head?_dropWhile_not (fun letter : Char => decide (letter ≠ delimiter)) text
    rw [cut] at stopped
    simpa using stopped
  calc
    text = text.takeWhile (· ≠ delimiter) ++ text.dropWhile (· ≠ delimiter) :=
      List.takeWhile_append_dropWhile.symm
    _ = text.takeWhile (· ≠ delimiter) ++
        delimiter :: (text.dropWhile (· ≠ delimiter)).drop 1 := by
      rw [cut, headEq]
      rfl

theorem splitOnce_append {delimiter : Char} {before : Text} (free : delimiter ∉ before)
    (after : Text) : splitOnce delimiter (before ++ delimiter :: after) = some (before, after) := by
  have passed : ∀ letter ∈ before, decide (letter ≠ delimiter) = true := by
    intro letter member
    simpa using fun same : letter = delimiter => free (same ▸ member)
  unfold splitOnce
  rw [if_pos (by simp), List.takeWhile_append_of_pos passed, List.dropWhile_append_of_pos passed]
  simp

def bytes (text : Text) : Bytes :=
  text.flatMap String.utf8EncodeChar

/-- The text a byte string encodes, where it is valid UTF-8. -/
def fromUtf8 (encoded : Bytes) : Option Text :=
  encoded.toByteArray.utf8Decode?.map Array.toList

@[simp]
theorem fromUtf8_bytes (text : Text) : fromUtf8 (bytes text) = some text := by
  have encoded : (bytes text).toByteArray = List.utf8Encode text := rfl
  rw [fromUtf8, encoded, List.utf8Decode?_utf8Encode]
  simp

theorem bytes_injective : Function.Injective bytes := by
  intro first second encodedEq
  have decodedEq := congrArg fromUtf8 encodedEq
  simpa using decodedEq

@[simp]
theorem bytes_nil : bytes [] = [] :=
  rfl

@[simp]
theorem bytes_append (first second : Text) :
    bytes (first ++ second) = bytes first ++ bytes second := by
  simp [bytes]

/-- An ASCII character is encoded by its code, and any other one by bytes that
are no ASCII codes. -/
theorem utf8EncodeChar_cases (letter : Char) :
    (letter.toNat < 0x80 ∧ String.utf8EncodeChar letter = [UInt8.ofNat letter.toNat]) ∨
      (0x80 ≤ letter.toNat ∧ String.utf8EncodeChar letter ≠ [] ∧
        ∀ byte ∈ String.utf8EncodeChar letter, 0x80 ≤ byte.toNat) := by
  have code : letter.val.toNat = letter.toNat := rfl
  by_cases small : letter.toNat < 0x80
  · left
    refine ⟨small, ?_⟩
    simp only [String.utf8EncodeChar, code, (by omega : letter.toNat ≤ 127), if_true]
  · right
    simp only [String.utf8EncodeChar, code]
    refine ⟨by omega, ?_⟩
    split_ifs with one two three
    · omega
    all_goals
      refine ⟨by simp, fun byte member => ?_⟩
      simp only [List.mem_cons, List.not_mem_nil, or_false] at member
      rcases member with rfl | rfl | rfl | rfl <;> rw [UInt8.toNat_ofNat'] <;> omega

theorem bytes_cons_of_ascii {letter : Char} (small : letter.toNat < 0x80) (text : Text) :
    bytes (letter :: text) = UInt8.ofNat letter.toNat :: bytes text := by
  rcases utf8EncodeChar_cases letter with ⟨_, encoded⟩ | ⟨large, _⟩
  · simp [bytes, encoded]
  · omega

/-- The first byte of an encoded text is the code of its first character, where
that is ASCII, and else no ASCII code. -/
theorem bytes_cons_cases (letter : Char) (text : Text) :
    (letter.toNat < 0x80 ∧ bytes (letter :: text) = UInt8.ofNat letter.toNat :: bytes text) ∨
      (0x80 ≤ letter.toNat ∧ ∃ lead rest, 0x80 ≤ lead.toNat ∧
        bytes (letter :: text) = lead :: (rest ++ bytes text)) := by
  rcases utf8EncodeChar_cases letter with ⟨small, _⟩ | ⟨large, nonempty, high⟩
  · exact Or.inl ⟨small, bytes_cons_of_ascii small text⟩
  · obtain ⟨lead, rest, encoded⟩ := List.exists_cons_of_ne_nil nonempty
    refine Or.inr ⟨large, lead, rest, high lead (by simp [encoded]), ?_⟩
    simp [bytes, encoded]

theorem toNat_ofNat_of_ascii {letter : Char} (small : letter.toNat < 0x80) :
    (UInt8.ofNat letter.toNat).toNat = letter.toNat := by
  rw [UInt8.toNat_ofNat']
  omega

/-- A property of an ASCII character is checked code by code. -/
@[elab_as_elim]
theorem ascii_cases {motive : Char → Prop} (letter : Char) (small : letter.toNat < 0x80)
    (codes : ∀ number < 0x80, motive (Char.ofNat number)) : motive letter := by
  have found := codes letter.toNat small
  rwa [Char.ofNat_toNat] at found

/-- A property of a byte is checked value by value. -/
@[elab_as_elim]
theorem byte_cases {motive : UInt8 → Prop} (byte : UInt8)
    (values : ∀ number < 256, motive (UInt8.ofNat number)) : motive byte := by
  have found := values byte.toNat byte.toNat_lt
  rwa [UInt8.ofNat_toNat] at found

/-- An ASCII text is encoded code by code. -/
theorem bytes_of_ascii {text : Text} (ascii : ∀ letter ∈ text, letter.toNat < 0x80) :
    bytes text = text.map fun letter => UInt8.ofNat letter.toNat := by
  induction text with
  | nil => rfl
  | cons letter text ih =>
      rw [bytes_cons_of_ascii (ascii letter (by simp)), List.map_cons,
        ih fun other member => ascii other (by simp [member])]

/-- A property of ASCII bytes holds of every byte of a text exactly where the
text is ASCII and the property holds of its characters. -/
theorem forall_mem_bytes_iff {holds : UInt8 → Prop} {text : Text}
    (ascii : ∀ byte, holds byte → byte.toNat < 0x80) :
    (∀ byte ∈ bytes text, holds byte) ↔
      ∀ letter ∈ text, letter.toNat < 0x80 ∧ holds (UInt8.ofNat letter.toNat) := by
  have single : ∀ letter : Char, (∀ byte ∈ String.utf8EncodeChar letter, holds byte) ↔
      letter.toNat < 0x80 ∧ holds (UInt8.ofNat letter.toNat) := by
    intro letter
    rcases utf8EncodeChar_cases letter with ⟨small, encoded⟩ | ⟨large, nonempty, high⟩
    · simp [encoded, small]
    · obtain ⟨lead, leadMem⟩ := List.exists_mem_of_ne_nil _ nonempty
      constructor
      · intro all
        have low := ascii lead (all lead leadMem)
        have := high lead leadMem
        omega
      · intro both
        omega
  simp only [bytes, List.mem_flatMap]
  constructor
  · intro all letter member
    exact (single letter).mp fun byte inLetter => all byte ⟨letter, member, inLetter⟩
  · rintro all byte ⟨letter, member, inLetter⟩
    exact (single letter).mpr (all letter member) byte inLetter

@[simp]
theorem bytes_eq_nil {text : Text} : bytes text = [] ↔ text = [] := by
  rw [← bytes_nil, bytes_injective.eq_iff]

end Text

end LibidBridge
