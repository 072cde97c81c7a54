import Storyboard.Command.Tag
import Storyboard.Decode.Problem
import Storyboard.Scene.Basic

/-! # Why a command is skipped

    A command can fail to be one, or fail to apply to the scene. Either way it
    alone is skipped. -/

namespace Storyboard

/-- Why a command is skipped. -/
inductive CommandProblem where
  /-- There is no word that could name a command. -/
  | missingTag
  /-- The word names no command. -/
  | unknownTag (word : String)
  /-- The command is no object at all. -/
  | notAnObject
  /-- Its parameters are given, but not as an object. -/
  | parameters (word : String) (found : Json)
  /-- Its parameters do not decode. -/
  | fields (tag : CommandTag) (problem : Decode.Problem)
  /-- A comparison of fewer than two elements. -/
  | tooFewElements (count : Nat)
  /-- It is about something that does not exist. -/
  | dangling (tag : CommandTag) (kind : Kind) (id : EntityId)
  /-- It is about a cell that its row does not have. -/
  | outOfBounds (tag : CommandTag) (row : EntityId) (index : Nat) (length : Nat)
  /-- Its identifier belongs to a thing of another kind. -/
  | clash (tag : CommandTag) (clash : Clash)
  /-- It asks for an annotation that is not known. -/
  | unknownCallout (form : String)

namespace CommandProblem

/-- What is said about a command whose parameters are not as they should be. -/
def malformed (word reason : String) : String := word ++ ": malformed payload: " ++ reason

/-- The problem in words. -/
def message : CommandProblem → String
  | .missingTag => "command has no 'command' tag"
  | .unknownTag word => "unknown command '" ++ word ++ "'"
  | .notAnObject => malformed "<none>" "command must be a JSON object"
  | .parameters word found =>
    malformed word ("'params' must be an object, got " ++ found.canonical.compact)
  | .fields tag p => malformed tag.name p.message
  | .tooFewElements n =>
    malformed CommandTag.compare.name ("needs at least 2 elements, got " ++ Number.natText n)
  | .dangling tag kind id => tag.name ++ ": " ++ kind.name ++ " '" ++ id.text ++ "' does not exist"
  | .outOfBounds tag row index length =>
    tag.name ++ ": index " ++ Number.natText index ++ " out of bounds for array '" ++ row.text ++
      "' (len " ++ Number.natText length ++ ")"
  | .clash tag c => tag.name ++ ": " ++ c.message
  | .unknownCallout form =>
    CommandTag.addCallout.name ++ ": unsupported annotation type '" ++ form ++ "'"

end CommandProblem

end Storyboard
