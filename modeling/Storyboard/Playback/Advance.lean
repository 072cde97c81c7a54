import Storyboard.Playback.Player

/-! # One step

    To advance is to perform the step under the cursor. Its commands always
    run to their end; then the cursor moves on, and what follows, the speech
    and the dwelling, lasts only as long as the epoch does in which the step
    was asked for. -/

namespace Storyboard

/-- What follows the commands of a step. -/
inductive Tail where
  /-- It has not begun. -/
  | ahead
  | speaking (s : Speech)
  /-- The player dwells until a time. -/
  | dwelling (time : Nat)
  | over
  deriving DecidableEq, Repr, Inhabited

/-- A step under way. -/
inductive Advance where
  /-- It waits at the gate. -/
  | queued (ticket : Nat)
  /-- The commands of the step at a place are performed. -/
  | performing (ticket place : Nat) (step : Step) (p : Performance)
  /-- The commands are through. -/
  | trailing (ticket : Nat) (step : Step) (report : Report) (tail : Tail)
  /-- It is over, with a report unless there was no step to perform. -/
  | over (report : Option Report)
  deriving Inhabited

namespace Tail

/-- Whether it can go on. -/
def isReady (now : Nat) (n : Narrator) : Tail → Bool
  | .ahead => true
  | .speaking s => s.isReady now n
  | .dwelling time => time ≤ now
  | .over => false

/-- When it can, if nothing happens but that time passes. -/
def due? : Tail → Option Nat
  | .speaking s => s.due?
  | .dwelling time => some time
  | _ => none

end Tail

namespace Player

/-! ### Speech and dwelling -/

/-- Dwell after a step, at the speed that is set now. -/
def dwell (p : Player) (now : Nat) (step : Step) : Tail :=
  let time := Wait.endOf now (step.dwell p.speed)
  if time ≤ now then .over else .dwelling time

/-- A speech that came this far; the dwelling follows it. -/
def settleSpeech (p : Player) (now : Nat) (step : Step) : Narrator × Speech → Player × Tail
  | (narrator, s) =>
    let p := { p with narrator }
    (p, if s.isOver then p.dwell now step else .speaking s)

/-- Go on with what follows the commands. -/
def resumeTail (p : Player) (now : Nat) (step : Step) : Tail → Player × Tail
  | .ahead =>
    match step.spoken? with
    | none => (p, p.dwell now step)
    | some text => p.settleSpeech now step (p.narrator.speak now text)
  | .speaking s => p.settleSpeech now step (p.narrator.resume now s)
  | .dwelling time => (p, if time ≤ now then .over else .dwelling time)
  | .over => (p, .over)

/-- Drop what follows the commands. -/
def dropTail (p : Player) : Tail → Player
  | .speaking s => { p with narrator := p.narrator.abandon s }
  | _ => p

/-- Go on with what follows the commands as long as the epoch lasts. -/
def follow (p : Player) (epoch now : Nat) (step : Step) (t : Tail) : Player × Tail :=
  if p.isCurrent epoch then p.resumeTail now step t
  else
    -- The end of the epoch and the end of a wait may come at once: a coin decides which is seen.
    match p.toss with
    | (p, true) =>
      let (p, t) := p.resumeTail now step t
      (p.dropTail t, .over)
    | (p, false) => (p.dropTail t, .over)

/-! ### The whole step -/

/-- A step whose tail came this far. It leaves the gate when it is over. -/
def settleTail (p : Player) (ticket : Nat) (step : Step) (report : Report) :
    Tail → Player × Advance
  | .over => (p.leave ticket, .over (some report))
  | t => (p, .trailing ticket step report t)

/-- A step whose commands came this far. -/
def settleStep (p : Player) (epoch now ticket place : Nat) (step : Step) :
    Stage × Performance → Player × Advance
  | (stage, perf) =>
    let p := { p with stage }
    if perf.isOver then
      -- The cursor moves on as soon as the commands are through, before anything is spoken.
      let p := { p with cursor := place + 1 }.publish
      let (p, t) := p.follow epoch now step .ahead
      p.settleTail ticket step perf.report t
    else (p, .performing ticket place step perf)

/-- Go on with a step that was asked for in an epoch. -/
def advance (p : Player) (epoch now : Nat) : Advance → Player × Advance
  | .queued ticket =>
    if p.gate.leads ticket then
      -- What to perform is decided only now: other calls may have moved the cursor meanwhile.
      match p.isCurrent epoch, p.timeline.steps[p.cursor]? with
      | true, some step =>
        p.settleStep epoch now ticket p.cursor step
          (Performance.start now .realtime p.stage step.commands)
      -- The epoch is over or there are no more steps, so there is nothing to report.
      | _, _ => (p.leave ticket, .over none)
    else (p, .queued ticket)
  | .performing ticket place step perf =>
    p.settleStep epoch now ticket place step (perf.resume now p.stage)
  | .trailing ticket step report t =>
    let (p, t) := p.follow epoch now step t
    p.settleTail ticket step report t
  | .over report => (p, .over report)

/-- Ask for a step. -/
def beginStep (p : Player) (epoch now : Nat) : Player × Advance :=
  let (p, ticket) := p.enqueue
  p.advance epoch now (.queued ticket)

end Player

namespace Advance

/-- Whether it can go on. -/
def isReady (epoch now : Nat) (p : Player) : Advance → Bool
  | .queued ticket => p.gate.leads ticket
  | .performing _ _ _ perf => perf.isReady now
  | .trailing _ _ _ t => !p.isCurrent epoch || t.isReady now p.narrator
  | .over _ => false

/-- When it can, if nothing happens but that time passes. -/
def due? : Advance → Option Nat
  | .performing _ _ _ perf => perf.due?
  | .trailing _ _ _ t => t.due?
  | _ => none

end Advance

end Storyboard
