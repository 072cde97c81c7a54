import Storyboard.Session.Basic
import Storyboard.Stage.Rounds

/-! # Screenings

    A screening shows a payload to nobody: it is loaded, and played to its end
    or taken straight to the scene before some step. What is left of it is the
    session as it stands then, the time, and the report of all commands that
    were performed. -/

namespace Storyboard

namespace Timeline

/-- The most waits that come between the speech and the dwelling of a step and its end: one for the
    voice service, one for a clip, one for the local voice and one for the dwelling. -/
def waitsAfter : Nat := 4

/-- The most rounds that it takes to rebuild the stage or to play. -/
def rounds (t : Timeline) : Nat :=
  t.steps.foldr (fun s n => Stage.waitsOf s.commands + waitsAfter + n) (Stage.waitsOf t.setup + 1)

end Timeline

/-- The report of a task, which is empty if nothing was performed. -/
def Session.Task.report : Session.Task → Report
  | .calling (.over (some r)) => r
  | _ => .empty

/-- A payload that is shown. -/
structure Screening where
  now     : Nat
  session : Session
  report  : Report

namespace Screening

/-- Do something in the session, for as many rounds at most, and go on when it is over. -/
def perform (s : Screening) (rounds : Nat) (a : Session.Action) : Screening :=
  let e := (Ensemble.ofActions s.now s.session [(s.now, a)]).run Session.machine rounds
  ⟨e.now, e.world, s.report.merge (((e.tasks.map (·.report)).head?).getD .empty)⟩

/-- Load a payload into a session. -/
def load (s : Session) (p : Payload) : Screening :=
  (⟨0, s, .empty⟩ : Screening).perform p.timeline.rounds (.load p)

/-- Present what is loaded up to a step, or to its end. -/
def present (s : Screening) (stopAt : Option Nat) : Screening :=
  s.perform s.session.player.timeline.rounds <|
    match stopAt with
    | some place => .call (.seek place)
    | none => .call .play

/-- How the screening went, in one line. -/
def summary (s : Screening) : String :=
  let p := s.session.player
  p.status.name ++ " at step " ++ Number.natText p.cursor ++ "/" ++ Number.natText p.total ++
    " (" ++ s.report.text ++ ")"

end Screening

end Storyboard
