import Storyboard.Ensemble
import Storyboard.Stage.Performance

/-! # Scripts for a stage

    What a caller can ask of a stage, as actions of an ensemble: perform
    commands, clear everything, read the journal, or just wait. -/

namespace Storyboard

namespace Stage

/-- Something asked of a stage. -/
inductive Action where
  /-- Perform commands. -/
  | perform (commands : List Json) (pacing : Pacing)
  /-- Clear everything. -/
  | reset
  /-- Read the journal, which starts afresh. -/
  | readJournal
  /-- Let time pass. -/
  | wait (d : Span)
  /-- Nothing but to look at the stage. -/
  | look

/-- An action under way. -/
inductive Task where
  | performing (p : Performance)
  | waiting (time : Nat)
  /-- Over, with what was read from the journal, the latest first. -/
  | over (entries : List JournalEntry)

/-- Forget the journal. -/
def clearJournal (s : Stage) : Stage :=
  { s with presenter := { s.presenter with journal := [] } }

/-- A task that waits until a time, unless it has come. -/
def Task.waitUntil (now time : Nat) : Task := if time ≤ now then .over [] else .waiting time

/-- How actions run on a stage. -/
def machine : Machine Stage Action Task where
  start now s
    | .perform commands pacing =>
      let (s, p) := Performance.start now pacing s commands
      (s, .performing p)
    | .reset => (s.reset now, .over [])
    | .readJournal => (s.clearJournal, .over s.presenter.journal)
    | .wait d => (s, .waitUntil now (Wait.endOf now d))
    | .look => (s, .over [])
  resume now s
    | .performing p =>
      let (s, p) := p.resume now s
      (s, .performing p)
    | .waiting time => (s, .waitUntil now time)
    | .over entries => (s, .over entries)
  isDone
    | .performing p => p.isOver
    | .waiting _ => false
    | .over _ => true
  isReady now _
    | .performing p => p.isReady now
    | .waiting time => time ≤ now
    | .over _ => false
  due?
    | .performing p => p.due?
    | .waiting time => some time
    | .over _ => none

end Stage

end Storyboard
