import Storyboard.Number.Reading

/-! # The words of the command line

    A command line is a verb with options before and behind it. Every option
    goes by a long name; it is a switch or takes a value of some form. -/

namespace Storyboard.CommandLine

/-- The name of the program. -/
def programName : String := "algoscope"

/-- Its version. -/
def programVersion : String := "0.1.0"

/-- The form of a value. -/
inductive Form where
  | text
  /-- The path of a file, which is not empty. -/
  | path
  /-- A number. -/
  | number
  /-- A number in single precision. -/
  | shortNumber
  /-- A whole number of 64 bits. -/
  | count
  deriving DecidableEq, Repr

/-- What is wrong with a whole number of 64 bits. -/
def countReason? (value : String) : Option String :=
  match Number.natural? value with
  | some n => if n < Nat.pow 2 64 then none else some "number too large to fit in target type"
  | none => some "invalid digit found in string"

/-- What is wrong with a value of this form. An empty path is refused elsewhere. -/
def Form.reason? (value : String) : Form → Option String
  | .text => none
  | .path => none
  | .number => if (Number.float? value).isSome then none else some "invalid float literal"
  | .shortNumber => if (Number.float32? value).isSome then none else some "invalid float literal"
  | .count => countReason? value

/-- An option. -/
structure Flag where
  name   : String
  /-- The form of its value and what stands for the value in the help; a switch has none. -/
  value? : Option (Form × String)
  /-- What it is for. -/
  about  : String
  /-- Its value if it is not given. -/
  usual? : Option String
  deriving DecidableEq, Repr

namespace Flag

/-- The option as it is written, with what stands for its value. -/
def usage (f : Flag) : String :=
  "--" ++ f.name ++ (match f.value? with
    | some (_, place) => " <" ++ place ++ ">"
    | none => "")

/-- A switch. -/
def switch (name about : String) : Flag := ⟨name, none, about, none⟩

/-- An option with a value. -/
def valued (name : String) (form : Form) (place about : String) : Flag :=
  ⟨name, some (form, place), about, none⟩

/-- The file with the settings. It may come before and behind the verb. -/
def settings : Flag := valued "config" .path "CONFIG"
  "Engine configuration (TOML). Defaults plus \x60ALGOSCOPE_*\x60 environment overrides if absent"

/-- The payload. -/
def input : Flag := valued "in" .path "IN_PATH" "Input visualization payload JSON"

/-- Whether skipped commands are a failure. -/
def strict : Flag := switch "strict" "Exit with an error when any command would be skipped"

/-- The topic to request. -/
def topic : Flag := valued "topic" .text "TOPIC" "Topic preset slug (see \x60algoscope topics\x60)"

/-- What to request. -/
def request : Flag := valued "request" .text "REQUEST" "Free-form visualization request"

/-- How long to wait for what was requested. -/
def timeout : Flag :=
  { valued "timeout" .count "TIMEOUT" "Seconds to wait for the backend's answer" with
    usual? := some "120" }

/-- The speed of playback. -/
def speed : Flag := valued "speed" .number "SPEED" "Playback speed multiplier"

/-- The step to go to. -/
def stopAt : Flag := valued "until" .count "UNTIL"
  "Jump straight to the scene before this step instead of playing in real time"

/-- Whether to do without the voice service. -/
def silent : Flag := switch "no-voice" "Speak narration only through the local synthesizer"

/-- Where to write the drawing. -/
def drawing : Flag := valued "svg" .path "SVG" "Write the final scene as SVG"

/-- Where to write the picture. -/
def picture : Flag := valued "png" .path "PNG" "Write the final scene as PNG"

/-- The scale of the picture. -/
def scale : Flag :=
  { valued "scale" .shortNumber "SCALE" "Raster scale for \x60--png\x60" with usual? := some "1" }

/-- The options for what is shown and written. -/
def screening : List Flag := [speed, stopAt, silent, drawing, picture, scale]

end Flag

/-- What the program can do. -/
inductive Verb where
  | validate
  | play
  | topics
  | connect
  deriving DecidableEq, Repr

namespace Verb

/-- All verbs, in the order in which the help lists them. -/
def all : List Verb := [.validate, .play, .topics, .connect]

/-- The word for it. -/
def name : Verb → String
  | .validate => "validate"
  | .play => "play"
  | .topics => "topics"
  | .connect => "connect"

/-- The verb with a name. -/
def ofName? (word : String) : Option Verb := all.find? fun v => v.name == word

/-- What it does. -/
def about : Verb → String
  | .validate => "Decode and dry-run a payload, reporting every skipped command"
  | .play => "Play a payload headless and optionally write the final frame"
  | .topics => "List topic presets"
  | .connect => "Request a visualization from the backend and play it"

/-- Its options. -/
def flags : Verb → List Flag
  | .validate => [.settings, .input, .strict]
  | .play => .settings :: .input :: Flag.screening
  | .topics => [.settings]
  | .connect => .settings :: .topic :: .request :: .timeout :: Flag.screening

/-- The options it cannot do without. -/
def required : Verb → List Flag
  | .validate => [.input]
  | .play => [.input]
  | _ => []

/-- Two options that exclude each other. -/
def rivals? : Verb → Option (Flag × Flag)
  | .connect => some (.topic, .request)
  | _ => none

end Verb

end Storyboard.CommandLine
