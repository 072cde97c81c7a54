import Storyboard.Decode.Record

/-! # Steps and timelines

    A step is a list of commands that are performed together, a text to speak
    after that, and a time to dwell before the next step. A timeline is a list
    of steps with the commands that set the scene for them. -/

namespace Storyboard

/-- One unit of playback. -/
structure Step where
  /-- The commands as they are written; each is decoded when it is performed. -/
  commands  : List Json
  narration : Option String
  /-- How long to dwell at normal speed, if not as long as usual. -/
  duration  : Option Span
  deriving Inhabited

namespace Step

/-- How long a step that does not say so dwells. -/
def usualDuration : Span := .ofMillis 2000

/-- What there is to speak. -/
def spoken? (s : Step) : Option String := s.narration.bind Text.trimmed?

/-- How long to dwell at a speed. -/
def dwell (s : Step) (speed : Speed) : Span := speed.scale (s.duration.getD usualDuration)

open Decode in
open Decode.Record in
/-- The fields of a step. -/
def record : Record Step :=
  Step.mk <$> withDefault "commands" (list (whole any)) [] <*> maybe "narration" text <*>
    maybe "duration" span

/-- How a step decodes. -/
def decoder : Decoder Step := record.decoder "struct Step"

end Step

/-- What playback goes through. -/
structure Timeline where
  /-- The commands that set the scene. -/
  setup : List Json
  steps : List Step
  deriving Inhabited

namespace Timeline

/-- No steps and nothing to set up. -/
def empty : Timeline := ⟨[], []⟩

/-- The number of steps. -/
def length (t : Timeline) : Nat := t.steps.length

end Timeline

end Storyboard
