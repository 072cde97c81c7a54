import Storyboard.Command.Problem
import Storyboard.Decode.Tagged

/-! # Commands

    A command as it is written: an object with a `command` word and its
    parameters, either in an object under `params` or beside the word. Both
    forms come down to an envelope. If its word names a command, what is in it
    is brought into canonical form, as one variant of the union of all
    commands, and decodes to a command with all its defaults filled in. -/

namespace Storyboard

/-- A command with its parameters. -/
inductive Command where
  | createNode (node : Node)
  /-- Change the text or the style of a node. -/
  | updateNode (id : EntityId) (value : Option String) (style : Option String)
  | deleteNode (id : EntityId)
  | moveNode (id : EntityId) (destination : Point) (span : Span) (easing : Option String)
  | highlight (id : EntityId) (color : Option String) (intensity : Option String) (span : Span)
  /-- Compare nodes; the operator is for information only. -/
  | compare (elements : List EntityId) (operator : Option String) (result : Bool)
  | pulse (id : EntityId) (count : Nat) (color : Option String)
  | createEdge (id source target : EntityId) (directed : Bool) (weight : Option String)
      (style : Option String)
  | deleteEdge (id : EntityId)
  /-- Highlight nodes, one after another or all at once. -/
  | highlightPath (nodes : List EntityId) (color : Option String) (span : Span)
      (sequential : Bool)
  | createArray (row : Row)
  /-- Exchange two cells. -/
  | swap (row : EntityId) (indices : Nat × Nat) (span : Span)
  | updateCell (row : EntityId) (index : Nat) (value : String) (highlight : Bool)
  | setPointer (id row : EntityId) (index : Nat) (label : Option String) (color : Option String)
  | addLabel (id : EntityId) (text : String) (position : Point) (style : Option String)
  | addCallout (id : EntityId) (form : String) (start stop : Point) (label : Option String)
  deriving DecidableEq, Repr, Inhabited

namespace Command

/-- What the command does. -/
def tag : Command → CommandTag
  | .createNode .. => .createNode
  | .updateNode .. => .updateNode
  | .deleteNode .. => .deleteNode
  | .moveNode .. => .moveNode
  | .highlight .. => .highlight
  | .compare .. => .compare
  | .pulse .. => .pulse
  | .createEdge .. => .createEdge
  | .deleteEdge .. => .deleteEdge
  | .highlightPath .. => .highlightPath
  | .createArray .. => .createArray
  | .swap .. => .swap
  | .updateCell .. => .updateCell
  | .setPointer .. => .setPointer
  | .addLabel .. => .addLabel
  | .addCallout .. => .addCallout

/-! ### Envelopes -/

/-- The word of a command and its parameters. -/
structure Envelope where
  word       : String
  parameters : List (String × Json)
  deriving Inhabited

/-- The word of a command, unless it is blank or no string. -/
def wordOf? (members : List (String × Json)) : Option String :=
  match Entries.find? "command" members with
  | some (.str s) => Text.trimmed? s
  | _ => none

/-- Bring either form of a command down to its envelope. Objects are taken to be in canonical form.
    Parameters that are absent or null leave the members beside the word. -/
def Envelope.ofJson : Json → Except CommandProblem Envelope
  | .obj members =>
    match wordOf? members with
    | none => .error .missingTag
    | some word =>
      match Entries.find? "params" members with
      | some (.obj parameters) => .ok ⟨word, parameters⟩
      | none | some .null =>
        .ok ⟨word, members.filter fun m => m.1 != "command" && m.1 != "params"⟩
      | some found => .error (.parameters word found)
  | _ => .error .notAnObject

/-! ### Parameters -/

open Decode in
open Decode.Record in
/-- All commands as one union, with their parameters and the defaults of these. -/
def variants : List (Variant Command) := [
  ⟨Variant.capitals "CreateNode", "struct CreateNode",
    (fun id value position style => .createNode ⟨id, value, position, style⟩) <$>
      required "id" id <*> withDefault "value" shown "" <*> required "position" position <*>
      maybe "style" text⟩,
  ⟨Variant.capitals "UpdateNode", "struct UpdateNode",
    .updateNode <$> required "id" id <*> maybe "value" shown <*> maybe "style" text⟩,
  ⟨Variant.capitals "DeleteNode", "struct DeleteEntity", .deleteNode <$> required "id" id⟩,
  ⟨Variant.capitals "MoveNode", "struct MoveNode",
    .moveNode <$> required "id" id <*> required "to" position <*>
      withDefault "duration" span (.ofMillis 1000) <*> maybe "easing" text⟩,
  ⟨Variant.capitals "Highlight", "struct Highlight",
    .highlight <$> required "id" id <*> maybe "color" text <*> maybe "intensity" text <*>
      withDefault "duration" span (.ofMillis 1000)⟩,
  ⟨Variant.capitals "Compare", "struct Compare",
    .compare <$> required "elements" (list id) <*> maybe "operator" text <*>
      required "result" flag⟩,
  ⟨Variant.capitals "Pulse", "struct Pulse",
    .pulse <$> required "id" id <*> withDefault "count" count 3 <*> maybe "color" text⟩,
  ⟨Variant.capitals "CreateEdge", "struct CreateEdge",
    .createEdge <$> required "id" id <*> required "from" id <*> required "to" id <*>
      withDefault "directed" flag true <*> maybe "weight" shown <*> maybe "style" text⟩,
  ⟨Variant.capitals "DeleteEdge", "struct DeleteEntity", .deleteEdge <$> required "id" id⟩,
  ⟨Variant.capitals "HighlightPath", "struct HighlightPath",
    .highlightPath <$> required "nodes" (list id) <*> maybe "color" text <*>
      withDefault "duration" span (.ofMillis 2000) <*> withDefault "sequential" flag true⟩,
  ⟨Variant.capitals "CreateArray", "struct CreateArray",
    (fun id values position => .createArray ⟨id, values, position⟩) <$>
      required "id" id <*> required "values" (list shown) <*> required "position" position⟩,
  ⟨Variant.capitals "Swap", "struct Swap",
    .swap <$> required "arrayId" id <*> required "indices" (pair index) <*>
      withDefault "duration" span (.ofMillis 800)⟩,
  ⟨Variant.capitals "UpdateCell", "struct UpdateCell",
    .updateCell <$> required "arrayId" id <*> required "index" index <*> required "value" shown <*>
      withDefault "highlight" flag false⟩,
  ⟨Variant.capitals "SetPointer", "struct SetPointer",
    .setPointer <$> required "id" id <*> required "arrayId" id <*> required "index" index <*>
      maybe "label" shown <*> maybe "color" text⟩,
  ⟨Variant.capitals "AddLabel", "struct AddLabel",
    .addLabel <$> required "id" id <*> required "text" shown <*> required "position" position <*>
      maybe "style" text⟩,
  ⟨Variant.capitals "AddAnnotation", "struct AddAnnotation",
    .addCallout <$> required "id" id <*> withDefault "type" text "arrow" <*>
      required "from" position <*> required "to" position <*>
      field "label" ["text"] (optional shown) (some none)⟩]

/-- What has to hold of the parameters together. -/
def check : Command → Except CommandProblem Command
  | .compare elements operator result =>
    if elements.length < 2 then .error (.tooFewElements elements.length)
    else .ok (.compare elements operator result)
  | c => .ok c

/-- A command in canonical form: the word for its tag, and its parameters in an object. -/
def canonicalForm (tag : CommandTag) (parameters : List (String × Json)) : List (String × Json) :=
  [("command", .str tag.name), ("params", .obj parameters)]

/-- Decode the parameters of a command. -/
def ofParameters (tag : CommandTag) (parameters : List (String × Json)) :
    Except CommandProblem Command :=
  match Decode.Variant.ofApart "command" "params" variants .value (canonicalForm tag parameters) with
  | .error p => .error (.fields tag p)
  | .ok c => check c

/-- Decode an envelope. -/
def ofEnvelope (e : Envelope) : Except CommandProblem Command :=
  match CommandTag.ofName? e.word with
  | none => .error (.unknownTag e.word)
  | some tag => ofParameters tag e.parameters

/-- Decode a command as it is written. -/
def ofJson (v : Json) : Except CommandProblem Command := do
  ofEnvelope (← Envelope.ofJson v)

end Command

end Storyboard
