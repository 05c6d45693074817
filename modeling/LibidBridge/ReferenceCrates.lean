import LibidBridge.Crates
import LibidBridge.JsonRendering

/-!
# The laws can be met

An implementation of the crate functions that meets every law, so that no
result about the bridge rests on laws that contradict each other.  The JSON
and field-value functions are complete; the URL parser knows the `https`
origins whose host is made of lowercase letters and dots, and refuses every
other text.
-/

namespace LibidBridge

namespace Reference

def isKnownHost (host : Text) : Bool :=
  !host.isEmpty && host.all fun letter => letter.isLower || letter == '.'

def urlParse (spelling : Text) : Except Text Url :=
  match "https://".toList.isPrefixOf? spelling with
  | some host =>
      if isKnownHost host then
        .ok
          { scheme := "https".toList
            username := []
            password := none
            hostStr := some host
            port := none
            path := "/".toList
            query := none
            fragment := none }
      else .error "invalid international domain name".toList
  | none => .error "relative URL without a base".toList

def asciiSerialization (url : Url) : Text :=
  url.scheme ++ "://".toList ++ url.hostStr.getD []

def headerToStr (value : HeaderValue) : Option Text :=
  if ∀ byte ∈ value, IsReadableByte byte then
    some (value.map fun byte => Char.ofNat byte.toNat)
  else none

def headerFromStr (text : Text) : Except Text HeaderValue :=
  if ∀ letter ∈ text, IsReadable letter then .ok (Text.bytes text)
  else .error "failed to parse header value".toList

def collect (limit : Nat) (body : Incoming) : Except CollectError Bytes :=
  if limit < body.frames.flatten.length then .error .lengthLimit
  else
    match body.failure with
    | some detail => .error (.other detail)
    | none => .ok body.frames.flatten

def crates : Crates where
  urlParse := urlParse
  asciiSerialization := asciiSerialization
  jsonToString := Json.render
  jsonToVec value := Text.bytes (Json.render value)
  headerToStr := headerToStr
  headerFromStr := headerFromStr
  uriParse spelling := .ok spelling
  isRedirection status := decide (300 ≤ status ∧ status < 400)
  statusText status := Nat.toDigits 10 status
  collect := collect
  debug text := '"' :: text ++ ['"']

theorem urlLaws : UrlLaws crates where
  serialization := by
    intro spelling url host parsed _ hostEq
    refine ⟨[], Or.inl rfl, ?_⟩
    simp [crates, asciiSerialization, hostEq]

theorem jsonLaws : JsonLaws crates where
  toString := Json.spells_render
  toVec value := ⟨Json.render value, rfl, Json.spells_render value⟩

theorem headerLaws : HeaderLaws crates where
  toStr_eq_some_iff := by
    intro value text
    simp only [crates, headerToStr]
    split_ifs with readable
    · simp only [Option.some.injEq]
      exact ⟨fun same => ⟨readable, same.symm⟩, fun both => both.2.symm⟩
    · simp [readable]
  fromStr_of_readable := by
    intro text readable
    exact if_pos readable

end Reference

end LibidBridge
