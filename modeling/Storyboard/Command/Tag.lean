import Storyboard.Text.Blank

/-! # Command tags

    The sixteen commands and the words by which they are called. -/

namespace Storyboard

/-- What a command does. -/
inductive CommandTag where
  | createNode
  | updateNode
  | deleteNode
  | moveNode
  | highlight
  | compare
  | pulse
  | createEdge
  | deleteEdge
  | highlightPath
  | createArray
  | swap
  | updateCell
  | setPointer
  | addLabel
  | addCallout
  deriving DecidableEq, Repr, Inhabited

namespace CommandTag

/-- All tags, in the order of their table. -/
def all : List CommandTag :=
  [.createNode, .updateNode, .deleteNode, .moveNode, .highlight, .compare, .pulse, .createEdge,
   .deleteEdge, .highlightPath, .createArray, .swap, .updateCell, .setPointer, .addLabel,
   .addCallout]

/-- The word for a tag. -/
def name : CommandTag → String
  | .createNode => "CREATE_NODE"
  | .updateNode => "UPDATE_NODE"
  | .deleteNode => "DELETE_NODE"
  | .moveNode => "MOVE_NODE"
  | .highlight => "HIGHLIGHT"
  | .compare => "COMPARE"
  | .pulse => "PULSE"
  | .createEdge => "CREATE_EDGE"
  | .deleteEdge => "DELETE_EDGE"
  | .highlightPath => "HIGHLIGHT_PATH"
  | .createArray => "CREATE_ARRAY"
  | .swap => "SWAP"
  | .updateCell => "UPDATE_CELL"
  | .setPointer => "SET_POINTER"
  | .addLabel => "ADD_LABEL"
  | .addCallout => "ADD_ANNOTATION"

/-- The tag that a word names. Blanks around it and the case of its letters do not count. -/
def ofName? (word : String) : Option CommandTag :=
  let word := Text.upper (Text.trim word)
  all.find? fun t => t.name == word

end CommandTag

end Storyboard
