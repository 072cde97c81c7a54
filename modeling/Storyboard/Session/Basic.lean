import Storyboard.Channel.Message
import Storyboard.Playback.Call
import Storyboard.Session.Payload
import Storyboard.Stage.Script

/-! # Sessions

    A session is a player together with the header of what it plays. New
    visualizations come as payloads: as values, as texts, or inside a message
    from the backend. -/

namespace Storyboard

/-- A player and the header of its visualization. -/
structure Session where
  header : Header
  player : Player

namespace Session

/-- A session before anything is loaded. -/
def ofNarrator (narrator : Narrator) (coins : List Bool) : Session :=
  ⟨.usual, .ofNarrator narrator coins⟩

/-- Something asked of a session. -/
inductive Action where
  | load (payload : Payload)
  /-- Load the payload that a value holds. -/
  | loadJson (v : Json)
  /-- Load the payload that a text holds. -/
  | loadText (s : String)
  /-- React to a message from the backend. -/
  | receive (m : ServerMessage)
  | call (c : Player.Call)
  /-- Play at the speed with this factor. -/
  | setSpeed (factor : Float)
  /-- Read the journal of the stage, which starts afresh. -/
  | readJournal
  /-- Let time pass. -/
  | wait (d : Span)
  /-- Nothing but to look at the session. -/
  | look
  deriving Inhabited

/-- How an action ended, if it did not only call the player. -/
inductive Outcome where
  /-- There is nothing to tell. -/
  | nothing
  /-- There is no such payload. -/
  | noPayload (fault : Decode.Fault)
  /-- There is no such speed. -/
  | noSpeed (problem : Speed.Problem)
  /-- What was read from the journal, the latest first. -/
  | journal (entries : List JournalEntry)
  deriving Inhabited

/-- An action under way. -/
inductive Task where
  | calling (t : Player.Task)
  | waiting (time : Nat)
  | over (outcome : Outcome)
  deriving Inhabited

/-- Call the player. -/
def call (s : Session) (now : Nat) (c : Player.Call) : Session × Task :=
  let (player, t) := s.player.start now c
  ({ s with player }, .calling t)

/-- Load a payload. The narrator falls silent before anything else happens. -/
def load (s : Session) (now : Nat) (payload : Payload) : Session × Task :=
  -- The header is that of the payload even while its timeline waits for the gate.
  call ⟨payload.header, s.player.silence⟩ now (.load payload.timeline)

/-- Load a payload if there is one. -/
def loadResult (s : Session) (now : Nat) : Except Decode.Fault Payload → Session × Task
  | .ok payload => s.load now payload
  | .error f => (s, .over (.noPayload f))

/-- React to a message: only a visualization changes anything. -/
def receive (s : Session) (now : Nat) : ServerMessage → Session × Task
  | .visualizationResponse data => s.loadResult now (Payload.ofJson data)
  | _ => (s, .over .nothing)

/-- Play at the speed with a factor, if there is one. -/
def setSpeed (s : Session) (now : Nat) (factor : Float) : Session × Task :=
  match Speed.ofFactor factor with
  | .ok speed => s.call now (.setSpeed speed)
  | .error p => (s, .over (.noSpeed p))

/-- The session with an empty journal. -/
def clearJournal (s : Session) : Session :=
  { s with player := { s.player with stage := s.player.stage.clearJournal } }

/-- A task that waits until a time, unless it has come. -/
def Task.waitUntil (now time : Nat) : Task :=
  if time ≤ now then .over .nothing else .waiting time

/-- How actions run in a session. -/
def machine : Machine Session Action Task where
  start now s
    | .load payload => s.load now payload
    | .loadJson v => s.loadResult now (Payload.ofJson v)
    | .loadText text => s.loadResult now (Payload.ofText text)
    | .receive m => s.receive now m
    | .call c => s.call now c
    | .setSpeed factor => s.setSpeed now factor
    | .readJournal => (s.clearJournal, .over (.journal s.player.stage.presenter.journal))
    | .wait d => (s, .waitUntil now (Wait.endOf now d))
    | .look => (s, .over .nothing)
  resume now s
    | .calling t =>
      let (player, t) := s.player.resume now t
      ({ s with player }, .calling t)
    | .waiting time => (s, .waitUntil now time)
    | .over outcome => (s, .over outcome)
  isDone
    | .calling t => t.isOver
    | .waiting _ => false
    | .over _ => true
  isReady now s
    | .calling t => t.isReady now s.player
    | .waiting time => time ≤ now
    | .over _ => false
  due?
    | .calling t => t.due?
    | .waiting time => some time
    | .over _ => none

end Session

end Storyboard
