import Storyboard.Command.Tag
import Storyboard.Json.Reader
import Storyboard.Playback.Step

/-! # Visualization payloads

    What a generator hands over: a topic with its background, the state before
    the first step, and the steps. All of it is optional. -/

namespace Storyboard

/-- What an algorithm costs. -/
structure Complexity where
  time  : String
  space : String
  deriving DecidableEq, Repr, Inhabited

/-- Facts about the topic. -/
structure Metadata where
  complexity : Option Complexity
  deriving DecidableEq, Repr, Inhabited

/-- What is to be learned about the topic. -/
structure Background where
  definition     : Option String
  keyPoints      : List String
  whenToUse      : Option String
  commonProblems : List String
  deriving DecidableEq, Repr, Inhabited

/-- The parameters of the nodes and edges that are there before the first step. -/
structure InitialState where
  nodes : List Json
  edges : List Json
  deriving Inhabited

/-- A visualization. -/
structure Payload where
  topic        : Option String
  metadata     : Option Metadata
  background   : Option Background
  initialState : Option InitialState
  steps        : List Step
  deriving Inhabited

/-! ### Decoding -/

open Decode Decode.Record

/-- The fields of a complexity. -/
def Complexity.record : Record Complexity :=
  Complexity.mk <$> withDefault "time" (whole shown) "" <*> withDefault "space" (whole shown) ""

/-- The fields of metadata. -/
def Metadata.record : Record Metadata :=
  Metadata.mk <$> maybe "complexity" (Complexity.record.decoder "struct Complexity")

/-- The fields of a background. -/
def Background.record : Record Background :=
  Background.mk <$> maybe "definition" text <*> withDefault "keyPoints" (list text) [] <*>
    maybe "whenToUse" text <*> withDefault "commonProblems" (list text) []

/-- The fields of an initial state. -/
def InitialState.record : Record InitialState :=
  InitialState.mk <$> withDefault "nodes" (list (whole any)) [] <*>
    withDefault "edges" (list (whole any)) []

namespace Payload

/-- The fields of a payload. -/
def record : Record Payload :=
  Payload.mk <$> maybe "topic" text <*>
    maybe "metadata" (Metadata.record.decoder "struct Metadata") <*>
    maybe "educational" (Background.record.decoder "struct Educational") <*>
    maybe "initialState" (InitialState.record.decoder "struct InitialState") <*>
    withDefault "steps" (list Step.decoder) []

/-- How a payload decodes. -/
def decoder : Decoder Payload := record.decoder "struct VisualizationPayload"

/-- What is said about a payload that cannot be had. -/
def faultMessage (f : Fault) : String :=
  Category.serialization.describe ("visualization payload: " ++ f.message)

/-- The payload that a value holds. -/
def ofJson (v : Json) : Except Fault Payload := (Decode.ofValue decoder v).mapError .fields

/-- The payload that a text holds. A hole does no harm where nobody looks at it; if the text does
    not decode for whatever reason, a hole is what is wrong with it. -/
def ofText (s : String) : Except Fault Payload :=
  match Json.read? s with
  | none => .error .text
  | some v =>
    match Decode.ofText decoder v with
    | .ok p => .ok p
    | .error p => .error (if v.isWhole then .fields p else .text)

end Payload

/-! ### Header and timeline -/

/-- What is shown above the canvas. -/
structure Header where
  title       : String
  /-- The cost of the algorithm. -/
  subtitle    : Option String
  /-- The background as plain text. -/
  educational : Option String
  deriving DecidableEq, Repr

namespace Header

/-- The title of a visualization without a topic. -/
def usualTitle : String := "Visualization"

/-- The header before anything is loaded. -/
def usual : Header := ⟨usualTitle, none, none⟩

instance : Inhabited Header := ⟨usual⟩

end Header

/-- The cost in one line. -/
def Complexity.line (c : Complexity) : String := "Time: " ++ c.time ++ ", Space: " ++ c.space

/-- A heading with trimmed items below it. -/
def bullets (heading : String) (items : List String) : String :=
  heading ++ String.join (items.map fun i => "\n  - " ++ Text.trim i)

namespace Background

/-- The sections that have something in them. -/
def sections (b : Background) : List String :=
  let paragraph (heading : String) (s : Option String) : List String :=
    ((s.bind Text.trimmed?).map fun s => heading ++ " " ++ s).toList
  let bulleted (heading : String) (items : List String) : List String :=
    if items.isEmpty then [] else [bullets heading items]
  paragraph "Definition:" b.definition ++ bulleted "Key Points:" b.keyPoints ++
    paragraph "When to Use:" b.whenToUse ++ bulleted "Common Problems:" b.commonProblems

/-- The sections with an empty line between them. -/
def text? (b : Background) : Option String :=
  if b.sections.isEmpty then none else some ("\n\n".intercalate b.sections)

end Background

/-- The commands of an initial state: every node first, then every edge. -/
def InitialState.commands (s : InitialState) : List Json :=
  let wrap (word : CommandTag) (parameters : Json) : Json :=
    .obj [("command", .str word.name), ("params", parameters)]
  s.nodes.map (wrap .createNode) ++ s.edges.map (wrap .createEdge)

namespace Payload

/-- The header of a payload. -/
def header (p : Payload) : Header where
  title := (p.topic.bind Text.trimmed?).getD Header.usualTitle
  subtitle := (p.metadata.bind (·.complexity)).map (·.line)
  educational := p.background.bind (·.text?)

/-- The timeline of a payload. -/
def timeline (p : Payload) : Timeline :=
  ⟨(p.initialState.map (·.commands)).getD [], p.steps⟩

end Payload

end Storyboard
