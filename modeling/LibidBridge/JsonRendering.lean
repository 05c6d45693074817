import LibidBridge.JsonDecoding

/-!
# An encoder of JSON values

The compact encoder that escapes what it must and nothing else, with the
two-character escapes where the grammar has one.  Its texts are texts of the
grammar.
-/

namespace LibidBridge

namespace Json

def renderLetter (letter : Char) : Text :=
  if letter = '"' then ['\\', '"']
  else if letter = '\\' then ['\\', '\\']
  else if letter = '\x08' then ['\\', 'b']
  else if letter = '\x0C' then ['\\', 'f']
  else if letter = '\n' then ['\\', 'n']
  else if letter = '\r' then ['\\', 'r']
  else if letter = '\t' then ['\\', 't']
  else if letter.toNat < 0x20 then '\\' :: 'u' :: hexText letter.toNat
  else [letter]

def renderString (value : Text) : Text :=
  '"' :: value.flatMap renderLetter ++ ['"']

mutual

/-- The compact text of a value. -/
def render : Json → Text
  | .null => "null".toList
  | .bool true => "true".toList
  | .bool false => "false".toList
  | .int value => intText value
  | .str value => renderString value
  | .arr items => '[' :: renderItems items ++ [']']
  | .obj members => '{' :: renderMembers members ++ ['}']

def renderItems : List Json → Text
  | [] => []
  | [item] => render item
  | item :: next :: items => render item ++ ',' :: renderItems (next :: items)

def renderMembers : List (Text × Json) → Text
  | [] => []
  | [(name, value)] => renderString name ++ ':' :: render value
  | (name, value) :: next :: members =>
      renderString name ++ ':' :: render value ++ ',' :: renderMembers (next :: members)

end

theorem minimalSpelling_renderLetter (letter : Char) :
    MinimalSpelling letter (renderLetter letter) := by
  unfold renderLetter
  split_ifs with quote backslash backspace formFeed newline return_ tab control
  any_goals
    subst letter
    exact ⟨Spelling.short (by decide), by decide⟩
  · refine ⟨Spelling.unit (readHex_hexText (by omega)), fun free => ?_⟩
    simp [mustEscape, control] at free
  · exact ⟨Spelling.plain (by omega) quote backslash, fun _ => rfl⟩

theorem letters_flatMap_renderLetter (value : Text) :
    Letters MinimalSpelling value (value.flatMap renderLetter) := by
  induction value with
  | nil => exact Letters.nil
  | cons letter value ih => exact Letters.cons (minimalSpelling_renderLetter letter) ih

mutual

theorem spells_render : ∀ value : Json,
    Spells MinimalSpelling (.value value) (render value)
  | .null => Spells.null
  | .bool true => Spells.true
  | .bool false => Spells.false
  | .int value => Spells.int value
  | .str value => Spells.str (letters_flatMap_renderLetter value)
  | .arr [] => Spells.emptyArr
  | .arr (item :: items) => Spells.arr (spells_renderItems (item :: items) (by simp))
  | .obj [] => Spells.emptyObj
  | .obj (member :: members) => Spells.obj (spells_renderMembers (member :: members) (by simp))

theorem spells_renderItems : ∀ items : List Json, items ≠ [] →
    Spells MinimalSpelling (.items items) (renderItems items)
  | [item], _ => Spells.lastItem (spells_render item)
  | item :: next :: items, _ =>
      Spells.item (spells_render item) (spells_renderItems (next :: items) (by simp))

theorem spells_renderMembers : ∀ members : List (Text × Json), members ≠ [] →
    Spells MinimalSpelling (.members members) (renderMembers members)
  | [(name, value)], _ => by
      simpa [renderMembers, renderString] using
        Spells.lastMember (letters_flatMap_renderLetter name) (spells_render value)
  | (name, value) :: next :: members, _ => by
      simpa [renderMembers, renderString] using
        Spells.member (letters_flatMap_renderLetter name) (spells_render value)
          (spells_renderMembers (next :: members) (by simp))

end

end Json

end LibidBridge
