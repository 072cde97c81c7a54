import Storyboard.Decode.Record

/-! # Utterances

    A text together with how it is to be read aloud, and how long reading it
    takes. -/

namespace Storyboard

/-- How a voice speaks. -/
structure Profile where
  /-- How many times faster than the usual pace. -/
  rate   : Float
  pitch  : Float
  volume : Float
  /-- The tag of the language. -/
  lang   : String
  deriving Inhabited

namespace Profile

/-- The voice that is used when nothing else is asked for. -/
def usual : Profile := ⟨1.15, 1.0, 1.0, "en-US"⟩

open Decode in
open Decode.Record in
/-- The fields of a profile, none of which has to be given. -/
def record : Record Profile :=
  Profile.mk <$> withDefault "rate" number usual.rate <*> withDefault "pitch" number usual.pitch <*>
    withDefault "volume" number usual.volume <*> withDefault "lang" text usual.lang

/-- How a profile decodes. -/
def decoder : Decoder Profile := record.decoder "struct SpeechProfile"

end Profile

/-- A text to be read aloud. -/
structure Utterance where
  text    : String
  profile : Profile
  deriving Inhabited

namespace Utterance

/-- The pace at a rate of one. -/
def wordsPerMinute : Float := 160.0

/-- How long it takes to read `words` words at a rate; a rate that is not positive counts as one. -/
def timeFor (words : Nat) (rate : Float) : Span :=
  let rate := if 0.0 < rate then rate else 1.0
  .ofSeconds (Number.ofNat words * 60.0 / (wordsPerMinute * rate))

/-- How long it takes to read the utterance. -/
def speakingTime (u : Utterance) : Span := timeFor (Text.words u.text).length u.profile.rate

end Utterance

end Storyboard
