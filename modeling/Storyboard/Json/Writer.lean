import Storyboard.Json.Basic
import Storyboard.Number.Layout

/-! # Writing JSON

    The compact text of a value: no space, members in the order they are held.
    Inside strings only quotes, backslashes and control characters are
    escaped. -/

namespace Storyboard.Json

/-- One character inside a JSON string. -/
def escapeChar (c : Char) : List Char :=
  if c = '"' then ['\\', '"']
  else if c = '\\' then ['\\', '\\']
  else if 0x20 ≤ c.toNat then [c]
  else if c = '\n' then ['\\', 'n']
  else if c = '\t' then ['\\', 't']
  else if c = '\r' then ['\\', 'r']
  else if c.toNat = 0x08 then ['\\', 'b']
  else if c.toNat = 0x0C then ['\\', 'f']
  else ['\\', 'u', '0', '0', Nat.digitChar (c.toNat / 16), Nat.digitChar (c.toNat % 16)]

/-- A JSON string. -/
def writeString (s : String) : List Char :=
  '"' :: s.toList.flatMap escapeChar ++ ['"']

mutual

/-- The text of a value. -/
def write : Json → List Char
  | .null => "null".toList
  | .bool true => "true".toList
  | .bool false => "false".toList
  | .int i => Number.intDigits i
  | .float x => Number.dataText x
  | .str s => writeString s
  | .arr items => '[' :: writeItems items ++ [']']
  | .obj members => '{' :: writeMembers members ++ ['}']

/-- The items of an array, commas between them. -/
def writeItems : List Json → List Char
  | [] => []
  | [v] => v.write
  | v :: w :: rest => v.write ++ ',' :: writeItems (w :: rest)

/-- The members of an object, commas between them. -/
def writeMembers : List (String × Json) → List Char
  | [] => []
  | [(k, v)] => writeString k ++ ':' :: v.write
  | (k, v) :: m :: rest => writeString k ++ ':' :: v.write ++ ',' :: writeMembers (m :: rest)

end

/-- The compact text of a value. -/
def compact (v : Json) : String := String.ofList v.write

/-- The value as a text to show: a string as it is, null as nothing, any other value as its
    compact text. -/
def displayText : Json → String
  | .null => ""
  | .str s => s
  | v => v.canonical.compact

end Storyboard.Json
