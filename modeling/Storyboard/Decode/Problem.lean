import Storyboard.Color
import Storyboard.Json.Writer
import Storyboard.Speed
import Storyboard.Text.Quoted

/-! # What can be wrong with a value

    The causes for which a JSON value does not decode, and their wording. -/

namespace Storyboard.Decode

/-- What was found where something else was expected. -/
inductive Found where
  | null
  | bool (b : Bool)
  | int (i : Int)
  | float (x : Float)
  | str (s : String)
  | sequence
  | map

namespace Found

/-- How a value is named in a message: scalars with their content, the others by their kind. -/
def ofJson : Json → Found
  | .null => .null
  | .bool b => .bool b
  | .int i => .int i
  | .float x => .float x
  | .str s => .str s
  | .arr _ => .sequence
  | .obj _ => .map

/-- The name in words. -/
def text : Found → String
  | .null => "null"
  | .bool b => "boolean `" ++ (if b then "true" else "false") ++ "`"
  | .int i => "integer `" ++ String.ofList (Number.intDigits i) ++ "`"
  | .float x => "floating point `" ++ String.ofList (Number.dataText x) ++ "`"
  | .str s => "string " ++ Text.quoted s
  | .sequence => "sequence"
  | .map => "map"

end Found

/-- Why a value does not decode. -/
inductive Problem where
  /-- A value of another kind. -/
  | wrongType (found : Found) (expected : String)
  /-- A number out of range. -/
  | wrongValue (found : Found) (expected : String)
  /-- Too few or too many items. -/
  | wrongLength (length : Nat) (expected : String)
  /-- A field that has no default is absent. -/
  | missingField (name : String)
  /-- A field is given twice. -/
  | duplicateField (name : String)
  /-- A field that the record does not have. -/
  | unknownField (name : String)
  /-- A tag that names no variant. -/
  | unknownVariant (name : String) (known : List String)
  /-- Items after the last field of a record in a text. -/
  | trailing
  /-- A part of a text that has no value. -/
  | hole
  /-- An identifier that is neither string nor number. -/
  | id (found : Json)
  /-- A duration that is neither number nor string. -/
  | durationKind (found : Json)
  /-- A string that is no duration. -/
  | durationText (text : String)
  /-- A duration that is negative or not finite. -/
  | durationRange (millis : Float)
  /-- A string that is no color. -/
  | color (problem : Color.Problem)
  /-- A number that is no speed. -/
  | speed (problem : Speed.Problem)

/-- Names between back quotes, commas between them. -/
def quotedNames (names : List String) : String :=
  ", ".intercalate (names.map fun n => "`" ++ n ++ "`")

/-- The problem in words. -/
def Problem.message : Problem → String
  | .wrongType found expected => "invalid type: " ++ found.text ++ ", expected " ++ expected
  | .wrongValue found expected => "invalid value: " ++ found.text ++ ", expected " ++ expected
  | .wrongLength n expected =>
    "invalid length " ++ Number.natText n ++ ", expected " ++ expected
  | .missingField name => "missing field `" ++ name ++ "`"
  | .duplicateField name => "duplicate field `" ++ name ++ "`"
  | .unknownField name => "unknown field `" ++ name ++ "`"
  | .unknownVariant name known =>
    "unknown variant `" ++ name ++ "`, expected one of " ++ quotedNames known
  | .trailing => "trailing characters"
  | .hole => "no value"
  | .id found => "id must be a string or number, got " ++ found.canonical.compact
  | .durationKind found => "duration must be a number, got " ++ found.canonical.compact
  | .durationText text => "invalid duration \"" ++ text ++ "\""
  | .durationRange x => "duration must be >= 0 ms, got " ++ Number.plainText x
  | .color p => p.message
  | .speed p => p.message

/-- Why a text does not yield what was asked for. -/
inductive Fault where
  /-- It is no JSON, or a part of it that matters has no value. -/
  | text
  /-- Its value does not decode. -/
  | fields (problem : Problem)

/-- The fault in words. -/
def Fault.message : Fault → String
  | .text => "not JSON"
  | .fields p => p.message

end Storyboard.Decode
