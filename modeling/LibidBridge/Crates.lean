import LibidBridge.JsonDecoding

/-!
# What the bridge calls and does not define

The functions of the `url`, `serde_json`, `http`, `hyper` and `http-body-util`
crates that the bridge calls, gathered as one parameter of the model, and the
documented behaviour that results rely on, each a named law.  Every definition
of the model takes the functions; a theorem takes the laws it needs.
-/

namespace LibidBridge

inductive Error
  | config (detail : Text)
  deriving DecidableEq

theorem bind_eq_ok_iff {ε α β : Type} {first : Except ε α} {rest : α → Except ε β}
    {result : β} :
    first >>= rest = .ok result ↔ ∃ value, first = .ok value ∧ rest value = .ok result := by
  cases first with
  | error refusal => simp [bind, Except.bind]
  | ok value => simp [bind, Except.bind]

theorem map_eq_ok_iff {ε α β : Type} {first : Except ε α} {made : α → β} {result : β} :
    first.map made = .ok result ↔ ∃ value, first = .ok value ∧ made value = result := by
  cases first with
  | error refusal => simp [Except.map]
  | ok value => simp [Except.map]

theorem exists_of_toOption_isSome {ε α : Type} {result : Except ε α}
    (succeeds : result.toOption.isSome = true) : ∃ value, result = .ok value := by
  cases result with
  | error refusal => simp [Except.toOption] at succeeds
  | ok value => exact ⟨value, rfl⟩

/-- A field value is whatever bytes the field carried. -/
abbrev HeaderValue := Bytes

/-- A field name, in the lowercase form `HeaderName` keeps. -/
abbrev HeaderName := Text

/-- The fields of a message, one entry for each occurrence of a name. -/
abbrev HeaderMap := List (HeaderName × HeaderValue)

namespace HeaderMap

def getAll (headers : HeaderMap) (name : HeaderName) : List HeaderValue :=
  (headers.filter fun field => field.1 = name).map Prod.snd

def get (headers : HeaderMap) (name : HeaderName) : Option HeaderValue :=
  (headers.getAll name).head?

/-- The fields with every value of a name replaced by one. -/
def insert (headers : HeaderMap) (name : HeaderName) (value : HeaderValue) : HeaderMap :=
  (headers.filter fun field => field.1 ≠ name) ++ [(name, value)]

@[simp]
theorem getAll_nil (name : HeaderName) : getAll [] name = [] :=
  rfl

theorem getAll_insert (headers : HeaderMap) (name other : HeaderName)
    (value : HeaderValue) :
    getAll (insert headers name value) other =
      if name = other then [value] else getAll headers other := by
  unfold getAll insert
  split_ifs with same
  · subst same
    simp
  · have unaffected : (headers.filter fun field => field.1 ≠ name).filter
        (fun field => field.1 = other) = headers.filter fun field => field.1 = other := by
      rw [List.filter_filter]
      refine List.filter_congr fun field _ => ?_
      by_cases found : field.1 = other
      · simp [found, Ne.symm same]
      · simp [found]
    rw [List.filter_append, unaffected]
    simp [same]

@[simp]
theorem get_insert_self (headers : HeaderMap) (name : HeaderName) (value : HeaderValue) :
    get (insert headers name value) name = some value := by
  simp [get, getAll_insert]

theorem get_of_getAll_eq {first second : HeaderMap} {name : HeaderName}
    (same : first.getAll name = second.getAll name) : first.get name = second.get name := by
  simp [get, same]

end HeaderMap

abbrev StatusCode := Nat

/-- A response body as it arrives: its data frames, and the error that ended
it where one did. -/
structure Incoming where
  frames : List Bytes
  failure : Option Text

inductive CollectError
  | lengthLimit
  | other (detail : Text)

/-- What a parsed URL answers to the accessors this service calls, and the port
its origin is written with, where that is not the default one of the scheme. -/
structure Url where
  scheme : Text
  username : Text
  password : Option Text
  hostStr : Option Text
  port : Option UInt16
  path : Text
  query : Option Text
  fragment : Option Text
  deriving DecidableEq

/-- The functions of third-party crates, and of the standard library's string
formatting, that the bridge calls.  An error is its message. -/
structure Crates where
  urlParse : Text → Except Text Url
  asciiSerialization : Url → Text
  jsonToString : Json → Text
  /-- `serde_json::to_vec`, which axum's `Json` writes its body with too. -/
  jsonToVec : Json → Bytes
  headerToStr : HeaderValue → Option Text
  headerFromStr : Text → Except Text HeaderValue
  /-- `str::parse::<Uri>` and the spelling of what it gives. -/
  uriParse : Text → Except Text Text
  isRedirection : StatusCode → Bool
  statusText : StatusCode → Text
  /-- `Limited::new(body, limit).collect()`. -/
  collect : Nat → Incoming → Except CollectError Bytes
  /-- `{:?}` of a string. -/
  debug : Text → Text

/-- The port of a serialized origin, with the colon ahead of it: nothing where
the port is the default one of the scheme, else decimal digits. -/
def IsPortSuffix (suffix : Text) : Prop :=
  suffix = [] ∨ ∃ digits : Text, digits ≠ [] ∧
    (∀ digit ∈ digits, digit.isDigit = true) ∧ suffix = ':' :: digits

def IsWebScheme (scheme : Text) : Prop :=
  scheme = "http".toList ∨ scheme = "https".toList

/-- The `url` crate serializes the origin of an `http` or `https` URL as its
scheme, its host and its port. -/
structure UrlLaws (crates : Crates) : Prop where
  serialization : ∀ {spelling : Text} {url : Url} {host : Text},
    crates.urlParse spelling = .ok url → IsWebScheme url.scheme →
      url.hostStr = some host →
        ∃ port, IsPortSuffix port ∧ crates.asciiSerialization url =
          url.scheme ++ "://".toList ++ host ++ port

/-- `serde_json` writes compact RFC 8259 texts, escaping what it must. -/
structure JsonLaws (crates : Crates) : Prop where
  toString : ∀ value : Json,
    Json.Spells Json.MinimalSpelling (.value value) (crates.jsonToString value)
  toVec : ∀ value : Json, ∃ text, crates.jsonToVec value = Text.bytes text ∧
    Json.Spells Json.MinimalSpelling (.value value) text

/-- A byte `HeaderValue::to_str` reads: visible ASCII, a space or a tab. -/
def IsReadableByte (byte : UInt8) : Prop :=
  (0x20 ≤ byte.toNat ∧ byte.toNat ≤ 0x7E) ∨ byte.toNat = 0x09

def IsReadable (letter : Char) : Prop :=
  (0x20 ≤ letter.toNat ∧ letter.toNat ≤ 0x7E) ∨ letter.toNat = 0x09

instance (byte : UInt8) : Decidable (IsReadableByte byte) :=
  inferInstanceAs (Decidable (_ ∨ _))

instance (letter : Char) : Decidable (IsReadable letter) :=
  inferInstanceAs (Decidable (_ ∨ _))

/-- The `http` crate reads a field value as text exactly where every byte of it
is readable, and takes a text of such characters as a field value. -/
structure HeaderLaws (crates : Crates) : Prop where
  toStr_eq_some_iff : ∀ {value : HeaderValue} {text : Text},
    crates.headerToStr value = some text ↔
      (∀ byte ∈ value, IsReadableByte byte) ∧
        text = value.map fun byte => Char.ofNat byte.toNat
  fromStr_of_readable : ∀ {text : Text}, (∀ letter ∈ text, IsReadable letter) →
    crates.headerFromStr text = .ok (Text.bytes text)

theorem IsReadable.ascii {letter : Char} (readable : IsReadable letter) :
    letter.toNat < 0x80 := by
  unfold IsReadable at readable
  omega

/-- A readable field value is the encoding of the text it reads as. -/
theorem HeaderLaws.bytes_of_toStr {crates : Crates} (laws : HeaderLaws crates)
    {value : HeaderValue} {text : Text} (read : crates.headerToStr value = some text) :
    Text.bytes text = value ∧ ∀ letter ∈ text, IsReadable letter := by
  obtain ⟨readable, rfl⟩ := laws.toStr_eq_some_iff.mp read
  have toNat_ofNat : ∀ byte : UInt8, (Char.ofNat byte.toNat).toNat = byte.toNat := by
    intro byte
    have bounded := byte.toNat_lt
    have valid : byte.toNat.isValidChar := Or.inl (by omega)
    rw [Char.ofNat, dif_pos valid]
    rfl
  have letterReadable : ∀ letter ∈ value.map fun byte => Char.ofNat byte.toNat,
      IsReadable letter := by
    intro letter member
    obtain ⟨byte, byteMem, rfl⟩ := List.mem_map.mp member
    simpa only [IsReadable, IsReadableByte, toNat_ofNat] using readable byte byteMem
  refine ⟨?_, letterReadable⟩
  rw [Text.bytes_of_ascii fun letter member => (letterReadable letter member).ascii,
    List.map_map]
  refine (List.map_congr_left fun byte _ => ?_).trans (List.map_id value)
  simp [toNat_ofNat]

end LibidBridge
