import Storyboard.Ensemble
import Storyboard.Narration.Narrator

/-! # Scripts for a narrator

    What a caller can ask of a narrator, as actions of an ensemble. -/

namespace Storyboard.Narrator

/-- Something asked of a narrator. -/
inductive Action where
  | speak (text : String)
  | stop
  /-- Let time pass. -/
  | wait (d : Span)
  /-- Nothing but to look at the narrator. -/
  | look
  deriving DecidableEq, Repr, Inhabited

/-- An action under way. -/
inductive Task where
  | speaking (s : Speech)
  | waiting (time : Nat)
  | over
  deriving DecidableEq, Repr, Inhabited

/-- A task that waits until a time, unless it has come. -/
def Task.waitUntil (now time : Nat) : Task := if time ≤ now then .over else .waiting time

/-- How actions run with a narrator. -/
def machine : Machine Narrator Action Task where
  start now n
    | .speak text =>
      let (n, s) := n.speak now text
      (n, .speaking s)
    | .stop => (n.stop, .over)
    | .wait d => (n, .waitUntil now (Wait.endOf now d))
    | .look => (n, .over)
  resume now n
    | .speaking s =>
      let (n, s) := n.resume now s
      (n, .speaking s)
    | .waiting time => (n, .waitUntil now time)
    | .over => (n, .over)
  isDone
    | .speaking s => s.isOver
    | .waiting _ => false
    | .over => true
  isReady now n
    | .speaking s => s.isReady now n
    | .waiting time => time ≤ now
    | .over => false
  due?
    | .speaking s => s.due?
    | .waiting time => some time
    | .over => none

end Storyboard.Narrator
