import Storyboard.Line
import Storyboard.Narration.Narrator
import Storyboard.Playback.Step
import Storyboard.Stage.Performance

/-! # The player

    The player goes through a timeline. Its cursor is the place of the next
    step, and before anything else the stage holds what the steps before the
    cursor leave behind.

    Whoever performs a step or rebuilds the stage has the gate for the whole
    of it; the others wait in line. To begin playing, and to halt, is to begin
    a new epoch: whatever was begun in an earlier one performs no further step
    and cuts short its speech and its dwelling. -/

namespace Storyboard

/-- Where playback stands. -/
inductive PlaybackStatus where
  /-- Before the first step. -/
  | idle
  | playing
  | paused
  /-- Behind the last step. -/
  | finished
  deriving DecidableEq, Repr, Inhabited

/-- The word for a status. -/
def PlaybackStatus.name : PlaybackStatus → String
  | .idle => "idle"
  | .playing => "playing"
  | .paused => "paused"
  | .finished => "finished"

/-- What is needed to draw the controls. -/
structure Snapshot where
  status : PlaybackStatus
  /-- The place of the next step. -/
  cursor : Nat
  /-- How many steps there are. -/
  total  : Nat
  speed  : Speed

namespace Snapshot

/-- Nothing is loaded. -/
def initial : Snapshot := ⟨.idle, 0, 0, .normal⟩

instance : Inhabited Snapshot := ⟨initial⟩

/-- The snapshot in one line. -/
def text (s : Snapshot) : String :=
  s.status.name ++ " " ++ Number.natText s.cursor ++ "/" ++
    Number.natText s.total ++ " " ++ s.speed.text

end Snapshot

/-- The player. -/
structure Player where
  stage     : Stage
  narrator  : Narrator
  timeline  : Timeline
  /-- The place of the next step. -/
  cursor    : Nat
  /-- Whether a call to play is under way, as far as the controls know. -/
  playing   : Bool
  speed     : Speed
  /-- How often playing was begun or halted. -/
  epoch     : Nat
  /-- Who performs a step or rebuilds the stage, and who waits to. -/
  gate      : Line
  /-- What was last told to those who watch. -/
  published : Snapshot
  /-- When a speech or a dwelling is cut short at the very moment at which it could go on: whether
      it goes on first, for every such moment to come, and it does when nothing is said. -/
  coins     : List Bool

namespace Player

/-- A player with nothing loaded. -/
def ofNarrator (narrator : Narrator) (coins : List Bool) : Player where
  stage := .empty
  narrator := narrator
  timeline := .empty
  cursor := 0
  playing := false
  speed := .normal
  epoch := 0
  gate := .empty
  published := .initial
  coins := coins

/-! ### Looking at it -/

/-- How many steps there are. -/
def total (p : Player) : Nat := p.timeline.length

/-- Where playback stands. -/
def status (p : Player) : PlaybackStatus :=
  if p.playing then .playing
  else if 0 < p.total ∧ p.total ≤ p.cursor then .finished
  else if p.cursor = 0 then .idle
  else .paused

/-- What the controls show. -/
def snapshot (p : Player) : Snapshot := ⟨p.status, p.cursor, p.total, p.speed⟩

/-- Whether no new epoch was begun since. -/
def isCurrent (p : Player) (epoch : Nat) : Bool := p.epoch == epoch

/-! ### Small changes -/

/-- Tell those who watch how things are. -/
def publish (p : Player) : Player := { p with published := p.snapshot }

/-- Begin a new epoch. -/
def renew (p : Player) : Player := { p with epoch := p.epoch + 1 }

/-- Silence the narrator. -/
def silence (p : Player) : Player := { p with narrator := p.narrator.stop }

/-- Begin a new epoch in which nothing is played. -/
def halt (p : Player) : Player := { p with playing := false }.renew.silence

/-- Play at another speed from the next dwelling on. -/
def setSpeed (p : Player) (speed : Speed) : Player := { p with speed }.publish

/-- Join the line at the gate. -/
def enqueue (p : Player) : Player × Nat :=
  let (gate, ticket) := p.gate.join
  ({ p with gate }, ticket)

/-- Leave the gate. -/
def leave (p : Player) (ticket : Nat) : Player := { p with gate := p.gate.leave ticket }

/-- Toss a coin. -/
def toss (p : Player) : Player × Bool :=
  ({ p with coins := p.coins.tail }, p.coins.head?.getD true)

end Player

end Storyboard
