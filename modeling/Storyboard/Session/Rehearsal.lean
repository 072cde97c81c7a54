import Storyboard.Session.Payload
import Storyboard.Stage.Rounds
import Storyboard.Stage.Script

/-! # Rehearsals

    To rehearse a payload is to perform its setup and then every step on an
    empty stage, without speech and without spending time, and to keep the
    report of each. -/

namespace Storyboard

/-- What became of the commands of a payload. -/
structure Rehearsal where
  header : Header
  /-- The report of the setup. -/
  setup  : Report
  /-- The report of every step. -/
  steps  : List Report

/-- The report of a task, which is empty if nothing was performed. -/
def Stage.Task.report : Stage.Task → Report
  | .performing p => p.report
  | _ => .empty

/-- Perform commands to their end without spending time. -/
def Stage.rehearse (s : Stage) (now : Nat) (commands : List Json) : Stage × Report :=
  let e := (Ensemble.ofActions now s [(now, .perform commands .instant)]).run Stage.machine
    (Stage.waitsOf commands + 1)
  (e.world, ((e.tasks.map (·.report)).head?).getD .empty)

namespace Rehearsal

/-- The reports of lists of commands that are performed one after another. -/
def reports (s : Stage) (now : Nat) : List (List Json) → List Report
  | [] => []
  | commands :: rest =>
    let (s, report) := s.rehearse now commands
    report :: reports s now rest

/-- Rehearse a payload. -/
def ofPayload (p : Payload) : Rehearsal :=
  let t := p.timeline
  let (s, setup) := Stage.empty.rehearse 0 t.setup
  ⟨p.header, setup, reports s 0 (t.steps.map (·.commands))⟩

/-- All reports as one. -/
def total (r : Rehearsal) : Report := r.steps.foldl .merge r.setup

end Rehearsal

end Storyboard
