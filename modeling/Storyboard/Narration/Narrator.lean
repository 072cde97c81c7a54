import Storyboard.Line
import Storyboard.Narration.Sanitizer
import Storyboard.Narration.Utterance
import Storyboard.Stage.Wait

/-! # The narrator

    The narrator speaks one text at a time, in the order in which it is asked
    to. A text goes to the voice service if there is one and its clip to the
    player; when either fails, or there is no service, the text is cleaned and
    read by the local voice, which keeps a transcript.

    To stop the narrator is to begin a new generation. A speech remembers the
    generation in which it was asked for, and ends as soon as that has passed. -/

namespace Storyboard

namespace Narration

/-- What the voice service makes of any text. -/
inductive Recording where
  /-- A clip of this many bytes. -/
  | clip (bytes : Nat)
  /-- Nothing; it fails. -/
  | failure
  deriving DecidableEq, Repr, Inhabited

/-- The voice service. -/
structure VoiceService where
  /-- How long it takes. -/
  delay     : Span
  recording : Recording
  deriving DecidableEq, Repr, Inhabited

/-- The bits of a second of a clip. -/
def usualBitrate : Nat := 128000

/-- How long a clip plays, in whole milliseconds. A clip whose length in bits, taken a thousand
    times, does not fit 64 bits cannot be played. -/
def playingTime? (bitrate bytes : Nat) : Option Span :=
  if bytes * 8000 < Nat.pow 2 64 then some (.ofMillis (bytes * 8000 / max bitrate 1)) else none

/-- What the narrator has to work with. -/
structure Equipment where
  profile     : Profile
  bitrate     : Nat
  voice       : Option VoiceService
  /-- Whether the player refuses every clip. -/
  playerFails : Bool
  deriving Inhabited

/-- The local voice only. -/
def Equipment.usual : Equipment := ⟨.usual, usualBitrate, none, false⟩

end Narration

open Narration

/-- The narrator. -/
structure Narrator where
  equipment  : Equipment
  /-- How often it was stopped. -/
  generation : Nat
  /-- Who speaks and who waits to. -/
  line       : Line
  /-- What the local voice began to read, in this order. -/
  transcript : List Utterance
  /-- How many clips were played to their end. -/
  clips      : Nat
  /-- When a speech is stopped at the very moment at which it could go on: whether it goes on first,
      for every such moment to come, and it does when nothing is said. -/
  coins      : List Bool

/-- How far the delivery of a text is. -/
inductive Delivery where
  /-- The voice service is at work until a time. -/
  | synthesizing (time : Nat)
  /-- A clip plays until a time. -/
  | playing (time : Nat)
  /-- The local voice reads until a time. -/
  | reading (time : Nat)
  /-- The text was delivered. -/
  | over
  deriving DecidableEq, Repr, Inhabited

/-- How a speech ended. -/
inductive SpeechOutcome where
  /-- The text was delivered to its end. -/
  | completed
  /-- The narrator was stopped. -/
  | cancelled
  /-- There was nothing to say. -/
  | skipped
  deriving DecidableEq, Repr, Inhabited

/-- A place in the narrator's line with the text to speak. -/
structure Turn where
  ticket     : Nat
  /-- The generation in which it was asked for. -/
  generation : Nat
  text       : String
  deriving DecidableEq, Repr, Inhabited

/-- A speech under way. -/
inductive Speech where
  /-- It waits in line. -/
  | queued (turn : Turn)
  /-- It is being delivered. -/
  | delivering (turn : Turn) (delivery : Delivery)
  | over (outcome : SpeechOutcome)
  deriving DecidableEq, Repr, Inhabited

namespace Narrator

/-- A narrator that has not spoken yet. -/
def ofEquipment (equipment : Equipment) (coins : List Bool) : Narrator :=
  ⟨equipment, 0, .empty, [], 0, coins⟩

/-- Stop whatever is spoken or waits to be. -/
def stop (n : Narrator) : Narrator := { n with generation := n.generation + 1 }

/-- Toss a coin. -/
def toss (n : Narrator) : Narrator × Bool :=
  ({ n with coins := n.coins.tail }, n.coins.head?.getD true)

/-- Take a ticket out of the line. -/
def leave (n : Narrator) (ticket : Nat) : Narrator := { n with line := n.line.leave ticket }

/-! ### Delivery -/

/-- Read a text with the local voice. -/
def read (n : Narrator) (now : Nat) (text : String) : Narrator × Delivery :=
  let u : Utterance := ⟨clean text, n.equipment.profile⟩
  let time := Wait.endOf now u.speakingTime
  ({ n with transcript := n.transcript ++ [u] }, if time ≤ now then .over else .reading time)

/-- Another clip was played to its end. -/
def clipPlayed (n : Narrator) : Narrator := { n with clips := n.clips + 1 }

/-- Play a clip for a text. -/
def play (n : Narrator) (now : Nat) (text : String) (bytes : Nat) : Narrator × Delivery :=
  match n.equipment.playerFails, playingTime? n.equipment.bitrate bytes with
  | false, some d =>
    let time := Wait.endOf now d
    if time ≤ now then (n.clipPlayed, .over) else (n, .playing time)
  | _, _ => n.read now text

/-- Go on with what the voice service made of a text. -/
def present (n : Narrator) (now : Nat) (text : String) : Recording → Narrator × Delivery
  | .clip bytes => n.play now text bytes
  | .failure => n.read now text

/-- Begin to deliver a text. -/
def deliver (n : Narrator) (now : Nat) (text : String) : Narrator × Delivery :=
  match n.equipment.voice with
  | none => n.read now text
  | some v =>
    let time := Wait.endOf now v.delay
    -- A service that takes no time is not waited for, so nobody else gets a turn.
    if time ≤ now then n.present now text v.recording else (n, .synthesizing time)

/-- Go on delivering a text. -/
def proceed (n : Narrator) (now : Nat) (text : String) : Delivery → Narrator × Delivery
  | .synthesizing time =>
    if time ≤ now then
      n.present now text ((n.equipment.voice.map (·.recording)).getD .failure)
    else (n, .synthesizing time)
  | .playing time => if time ≤ now then (n.clipPlayed, .over) else (n, .playing time)
  | .reading time => (n, if time ≤ now then .over else .reading time)
  | .over => (n, .over)

/-! ### Speeches -/

/-- A speech that has come this far; it leaves the line when it is over. -/
def settle (n : Narrator) (turn : Turn) : Delivery → Narrator × Speech
  | .over => (n.leave turn.ticket, .over .completed)
  | d => (n, .delivering turn d)

/-- Give up a speech. -/
def cancel (n : Narrator) (turn : Turn) : Narrator × Speech :=
  (n.leave turn.ticket, .over .cancelled)

/-- Go on with a speech. -/
def resume (n : Narrator) (now : Nat) : Speech → Narrator × Speech
  | .queued turn =>
    -- A turn that was cancelled while it waited leaves without a word.
    if turn.generation ≠ n.generation then n.cancel turn
    else if n.line.leads turn.ticket then
      let (n, d) := n.deliver now turn.text
      n.settle turn d
    else (n, .queued turn)
  | .delivering turn d =>
    if turn.generation ≠ n.generation then
      -- A cancelled delivery that can go on now may still do so: a coin decides.
      match n.toss with
      | (n, false) => n.cancel turn
      | (n, true) =>
        match n.proceed now turn.text d with
        | (n, .over) => n.settle turn .over
        | (n, _) => n.cancel turn
    else
      let (n, d) := n.proceed now turn.text d
      n.settle turn d
  | .over outcome => (n, .over outcome)

/-- Ask the narrator to speak a text. -/
def speak (n : Narrator) (now : Nat) (text : String) : Narrator × Speech :=
  match Text.trimmed? text with
  | none => (n, .over .skipped)
  | some text =>
    let (line, ticket) := n.line.join
    -- The turn belongs to the generation of now: a stop that comes later cancels it.
    resume { n with line } now (.queued ⟨ticket, n.generation, text⟩)

/-- Forget a speech that nobody waits for any more. -/
def abandon (n : Narrator) : Speech → Narrator
  | .queued turn => n.leave turn.ticket
  | .delivering turn _ => n.leave turn.ticket
  | .over _ => n

end Narrator

/-- When the delivery can go on. -/
def Delivery.due? : Delivery → Option Nat
  | .synthesizing time => some time
  | .playing time => some time
  | .reading time => some time
  | .over => none

namespace Speech

/-- Whether the speech has ended. -/
def isOver : Speech → Bool
  | .over _ => true
  | _ => false

/-- Whether the speech can go on. -/
def isReady (now : Nat) (n : Narrator) : Speech → Bool
  | .queued turn => turn.generation != n.generation || n.line.leads turn.ticket
  | .delivering turn d => turn.generation != n.generation || d.due?.any (· ≤ now)
  | .over _ => false

/-- When it can, if nothing happens but that time passes. -/
def due? : Speech → Option Nat
  | .delivering _ d => d.due?
  | _ => none

end Speech

end Storyboard
