import Storyboard.Playback.Player

/-! # Rebuilding the stage

    To bring the stage to where it stands before some step, it is cleared, and
    the setup of the timeline and the steps before that one are performed
    again, without speech and without spending time. -/

namespace Storyboard

/-- A rebuilding under way. -/
inductive Rebuild where
  /-- Some commands are performed, with others to follow, up to the step at `goal`. -/
  | performing (goal : Nat) (p : Performance) (rest : List (List Json)) (report : Report)
  /-- The stage is rebuilt. -/
  | over (report : Report)
  deriving Inhabited

namespace Timeline

/-- Everything to be performed before the step at `goal`. -/
def before (t : Timeline) (goal : Nat) : List (List Json) :=
  t.setup :: (t.steps.take goal).map (·.commands)

end Timeline

namespace Player

/-- Perform lists of commands one after another; then the cursor is at `goal`. -/
def performLists (p : Player) (now goal : Nat) (report : Report) :
    List (List Json) → Player × Rebuild
  | [] => ({ p with cursor := goal }, .over report)
  | commands :: rest =>
    let (stage, perf) := Performance.start now .instant p.stage commands
    let p := { p with stage }
    -- The cursor stays where it was until all lists are through.
    if perf.isOver then performLists p now goal (report.merge perf.report) rest
    else (p, .performing goal perf rest report)

/-- Begin to rebuild the stage as it stands before the step at `goal`, or behind the last step. -/
def rebuild (p : Player) (now goal : Nat) : Player × Rebuild :=
  -- There is no step behind the last one, so the goal is the end at most.
  let goal := min goal p.total
  performLists { p with stage := p.stage.reset now } now goal .empty (p.timeline.before goal)

/-- Go on rebuilding. -/
def resumeRebuild (p : Player) (now : Nat) : Rebuild → Player × Rebuild
  | .performing goal perf rest report =>
    let (stage, perf) := perf.resume now p.stage
    let p := { p with stage }
    if perf.isOver then p.performLists now goal (report.merge perf.report) rest
    else (p, .performing goal perf rest report)
  | .over report => (p, .over report)

end Player

namespace Rebuild

/-- Whether it can go on. -/
def isReady (now : Nat) : Rebuild → Bool
  | .performing _ perf _ _ => perf.isReady now
  | .over _ => false

/-- When it can, if nothing happens but that time passes. -/
def due? : Rebuild → Option Nat
  | .performing _ perf _ _ => perf.due?
  | .over _ => none

end Rebuild

end Storyboard
