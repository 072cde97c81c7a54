import Storyboard.Ensemble
import Storyboard.Playback.Advance
import Storyboard.Playback.Rebuild

/-! # Calls to the player

    Everything that can be asked of the player, and how far such a call is.
    Calls share the player; each goes on by itself whenever it can. -/

namespace Storyboard.Player

/-- Where to rebuild the stage. -/
inductive Goal where
  /-- Before the first step of another timeline. -/
  | load (t : Timeline)
  /-- Before a step of this timeline. -/
  | seek (place : Nat)
  deriving Inhabited

/-- Something asked of the player. -/
inductive Call where
  /-- Replace the timeline. -/
  | load (t : Timeline)
  /-- Perform steps until there are none left. -/
  | play
  /-- Perform no further step. -/
  | pause
  /-- Perform one step. -/
  | stepForward
  /-- Go back by one step. -/
  | stepBackward
  /-- Go to a step. -/
  | seek (place : Nat)
  /-- Go back before the first step. -/
  | restart
  | setSpeed (s : Speed)
  /-- Take the next of the preset speeds. -/
  | cycleSpeed
  deriving Inhabited

/-- A call under way. -/
inductive Task where
  /-- It waits at the gate in order to rebuild the stage. -/
  | rewinding (ticket : Nat) (goal : Goal)
  /-- It rebuilds the stage. -/
  | rebuilding (ticket : Nat) (r : Rebuild)
  /-- It waits at the gate in order to play once more from the start. -/
  | wrapping (ticket epoch : Nat)
  /-- It rebuilds the stage in order to play once more. -/
  | rewrapping (ticket epoch : Nat) (r : Rebuild)
  /-- It plays; the report is that of the steps before. -/
  | playing (epoch : Nat) (report : Report) (a : Advance)
  /-- It performs one step. -/
  | stepping (epoch : Nat) (a : Advance)
  /-- It has returned, with a report unless nothing was performed. -/
  | over (report : Option Report)
  deriving Inhabited

/-! ### Going to a step -/

/-- A rebuilding that came this far. -/
def settleRebuild (p : Player) (ticket : Nat) : Rebuild → Player × Task
  | .over report => (p.publish.leave ticket, .over (some report))
  | r => (p, .rebuilding ticket r)

/-- Rebuild the stage as soon as the gate is free. -/
def rewind (p : Player) (now ticket : Nat) (goal : Goal) : Player × Task :=
  if p.gate.leads ticket then
    -- The timeline is replaced only now, and with it the total; the cursor follows when all is
    -- done.
    let (p, r) := match goal with
      | .load timeline => { p with timeline }.rebuild now 0
      | .seek place => p.rebuild now place
    p.settleRebuild ticket r
  else (p, .rewinding ticket goal)

/-- Halt, and rebuild the stage. -/
def goTo (p : Player) (now : Nat) (goal : Goal) : Player × Task :=
  -- Halting comes first, so that whoever performs a step lets the gate go soon.
  let (p, ticket) := p.halt.enqueue
  p.rewind now ticket goal

/-! ### Playing -/

/-- Playing comes to its end, and if nobody began a new epoch, that is made known. -/
def finishPlay (p : Player) (epoch : Nat) (report : Report) : Player × Task :=
  (if p.isCurrent epoch then { p with playing := false }.silence.publish else p,
    .over (some report))

/-- Perform steps, at most `most` of them without waiting. -/
def playSteps (p : Player) (epoch now : Nat) (report : Report) : Nat → Player × Task
  | 0 => p.finishPlay epoch report
  | most + 1 =>
    if p.isCurrent epoch then
      match p.beginStep epoch now with
      -- A step that takes no time does not give others a turn.
      | (p, .over (some r)) => playSteps p epoch now (report.merge r) most
      | (p, .over none) => p.finishPlay epoch report
      | (p, a) => (p, .playing epoch report a)
    else p.finishPlay epoch report

/-- Perform steps. Every step moves the cursor on by one, so there are at most as many as lie
    before it, and one more call finds that there are none. -/
def playOn (p : Player) (epoch now : Nat) (report : Report) : Player × Task :=
  p.playSteps epoch now report (p.total - p.cursor + 1)

/-- Go on playing with a step under way. -/
def resumePlay (p : Player) (epoch now : Nat) (report : Report) (a : Advance) : Player × Task :=
  match p.advance epoch now a with
  | (p, .over (some r)) => p.playOn epoch now (report.merge r)
  | (p, .over none) => p.finishPlay epoch report
  | (p, a) => (p, .playing epoch report a)

/-- Begin to perform steps. -/
def beginPlay (p : Player) (epoch now : Nat) (report : Report) : Player × Task :=
  { p with playing := true }.publish.playOn epoch now report

/-- A rebuilding before playing that came this far. -/
def settleWrap (p : Player) (now ticket epoch : Nat) : Rebuild → Player × Task
  -- The epoch is not looked at again before the player counts as playing.
  | .over report => (p.leave ticket).beginPlay epoch now (Report.empty.merge report)
  | r => (p, .rewrapping ticket epoch r)

/-- Rebuild the stage as soon as the gate is free, unless a new epoch has begun. -/
def wrap (p : Player) (now ticket epoch : Nat) : Player × Task :=
  if p.gate.leads ticket then
    if p.isCurrent epoch then
      let (p, r) := p.rebuild now 0
      p.settleWrap now ticket epoch r
    else (p.leave ticket, .over (some .empty))
  else (p, .wrapping ticket epoch)

/-- Play from the cursor, or from the start if the timeline is finished. -/
def play (p : Player) (now : Nat) : Player × Task :=
  if p.playing then (p, .over (some .empty))
  else
    -- Playing is an epoch of its own, so that a later halt ends it and nothing that came before.
    let p := p.renew
    if p.status = .finished then
      let (p, ticket) := p.enqueue
      p.wrap now ticket p.epoch
    else p.beginPlay p.epoch now .empty

/-! ### Single steps -/

/-- A step that came this far. -/
def settleAdvance (p : Player) (epoch : Nat) : Advance → Player × Task
  | .over report => (p.publish, .over report)
  | a => (p, .stepping epoch a)

/-- Perform one step. -/
def stepForward (p : Player) (now : Nat) : Player × Task :=
  -- A step is no epoch of its own: it belongs to the one that was there.
  let epoch := p.epoch
  let (p, a) := p.beginStep epoch now
  p.settleAdvance epoch a

/-- Go back by one step, unless nothing was performed yet. -/
def stepBackward (p : Player) (now : Nat) : Player × Task :=
  match p.cursor with
  | 0 => (p, .over none)
  -- The place is taken from the cursor of now, not from that of when the gate is obtained.
  | place + 1 => p.goTo now (.seek place)

/-! ### The machine -/

/-- Begin a call and go as far as possible. -/
def start (p : Player) (now : Nat) : Call → Player × Task
  | .load t => p.goTo now (.load t)
  | .play => p.play now
  | .pause => (p.halt.publish, .over none)
  | .stepForward => p.stepForward now
  | .stepBackward => p.stepBackward now
  | .seek place => p.goTo now (.seek place)
  | .restart => p.goTo now (.seek 0)
  | .setSpeed s => (p.setSpeed s, .over none)
  | .cycleSpeed => (p.setSpeed p.speed.next, .over none)

/-- Go on with a call. -/
def resume (p : Player) (now : Nat) : Task → Player × Task
  | .rewinding ticket goal => p.rewind now ticket goal
  | .rebuilding ticket r =>
    let (p, r) := p.resumeRebuild now r
    p.settleRebuild ticket r
  | .wrapping ticket epoch => p.wrap now ticket epoch
  | .rewrapping ticket epoch r =>
    let (p, r) := p.resumeRebuild now r
    p.settleWrap now ticket epoch r
  | .playing epoch report a => p.resumePlay epoch now report a
  | .stepping epoch a =>
    let (p, a) := p.advance epoch now a
    p.settleAdvance epoch a
  | .over report => (p, .over report)

namespace Task

/-- Whether the call has returned. -/
def isOver : Task → Bool
  | .over _ => true
  | _ => false

/-- Whether the call can go on. -/
def isReady (now : Nat) (p : Player) : Task → Bool
  | .rewinding ticket _ => p.gate.leads ticket
  | .rebuilding _ r => r.isReady now
  | .wrapping ticket _ => p.gate.leads ticket
  | .rewrapping _ _ r => r.isReady now
  | .playing epoch _ a => a.isReady epoch now p
  | .stepping epoch a => a.isReady epoch now p
  | .over _ => false

/-- When it can, if nothing happens but that time passes. -/
def due? : Task → Option Nat
  | .rebuilding _ r => r.due?
  | .rewrapping _ _ r => r.due?
  | .playing _ _ a => a.due?
  | .stepping _ a => a.due?
  | _ => none

end Task

/-- How calls run. -/
def machine : Machine Player Call Task where
  start now p call := p.start now call
  resume now p task := p.resume now task
  isDone task := task.isOver
  isReady now p task := task.isReady now p
  due? task := task.due?

end Storyboard.Player
