import Storyboard.Decode.Tagged
import Storyboard.Json.Reader

/-! # Messages

    What goes over the channel between a player and the backend that makes
    visualizations: tagged unions in either direction. -/

namespace Storyboard

open Decode Decode.Record

/-- A message to the backend. -/
inductive ClientMessage where
  /-- Ask for a visualization. -/
  | visualizationRequest (request : String) (context : Option Json)
  /-- Talk with the tutor. -/
  | userMessage (text : String) (codeContext : Option Json)
  /-- Ask for the context of the watched files. -/
  | requestContext
  deriving Inhabited

/-- A message from the backend. -/
inductive ServerMessage where
  /-- A payload to load. -/
  | visualizationResponse (data : Json)
  /-- The tutor speaks. -/
  | llmMessage (text : String)
  /-- What the backend is doing. -/
  | status (message : String)
  | error (message : String)
  /-- The context of all watched files. -/
  | contextSync (files : List String) (context : Json)
  /-- A watched file changed. -/
  | contextUpdate (filename content : String) (timestamp : Option String)
  deriving Inhabited

/-! ### Decoding -/

/-- The variants of messages to the backend. -/
def ClientMessage.variants : List (Variant ClientMessage) := [
  ⟨"visualization_request", "struct variant ClientMessage::VisualizationRequest",
    .visualizationRequest <$> required "request" text <*> maybe "context" any⟩,
  ⟨"user_message", "struct variant ClientMessage::UserMessage",
    .userMessage <$> required "text" text <*> maybe "code_context" any⟩,
  ⟨"request_context", "unit variant ClientMessage::RequestContext", const .requestContext⟩]

/-- The variants of messages from the backend. -/
def ServerMessage.variants : List (Variant ServerMessage) := [
  ⟨"visualization_response", "struct variant ServerMessage::VisualizationResponse",
    .visualizationResponse <$> required "data" any⟩,
  ⟨"llm_message", "struct variant ServerMessage::LlmMessage",
    .llmMessage <$> required "text" text⟩,
  ⟨"status", "struct variant ServerMessage::Status", .status <$> required "message" text⟩,
  ⟨"error", "struct variant ServerMessage::Error", .error <$> required "message" text⟩,
  ⟨"context_sync", "struct variant ServerMessage::ContextSync",
    .contextSync <$> withDefault "files" (list text) [] <*> withDefault "context" any .null⟩,
  ⟨"context_update", "struct variant ServerMessage::ContextUpdate",
    .contextUpdate <$> required "filename" text <*> withDefault "content" text "" <*>
      maybe "timestamp" text⟩]

/-- How a message to the backend decodes. -/
def ClientMessage.decoder : Decoder ClientMessage := Variant.decoder "ClientMessage" variants

/-- How a message from the backend decodes. -/
def ServerMessage.decoder : Decoder ServerMessage := Variant.decoder "ServerMessage" variants

/-- Decode a whole text, in which no part may be without a value. -/
def Decode.ofWholeText {α : Type} (d : Decoder α) (s : String) : Except Fault α :=
  match Json.parse? s with
  | none => .error .text
  | some v => (Decode.ofText d v).mapError .fields

/-! ### Writing -/

/-- A value that may be missing. -/
def orNull {α : Type} (f : α → Json) : Option α → Json
  | some a => f a
  | none => .null

/-- The message as a value, its members in the order of their keys. -/
def ClientMessage.toJson : ClientMessage → Json
  | .visualizationRequest request context => .obj [("context", orNull (·) context),
      ("request", .str request), ("type", .str "visualization_request")]
  | .userMessage text context => .obj [("code_context", orNull (·) context),
      ("text", .str text), ("type", .str "user_message")]
  | .requestContext => .obj [("type", .str "request_context")]

/-- The word for what a message from the backend is. -/
def ServerMessage.kind : ServerMessage → String
  | .visualizationResponse _ => "visualization_response"
  | .llmMessage _ => "llm_message"
  | .status _ => "status"
  | .error _ => "error"
  | .contextSync .. => "context_sync"
  | .contextUpdate .. => "context_update"

/-- The message as a value, its members in the order of their keys. -/
def ServerMessage.toJson (m : ServerMessage) : Json :=
  let tag : Json := .str m.kind
  match m with
  | .visualizationResponse data => .obj [("data", data), ("type", tag)]
  | .llmMessage text => .obj [("text", .str text), ("type", tag)]
  | .status message => .obj [("message", .str message), ("type", tag)]
  | .error message => .obj [("message", .str message), ("type", tag)]
  | .contextSync files context =>
    .obj [("context", context), ("files", .arr (files.map .str)), ("type", tag)]
  | .contextUpdate filename content timestamp =>
    .obj [("content", .str content), ("filename", .str filename),
      ("timestamp", orNull .str timestamp), ("type", tag)]

end Storyboard
