import Storyboard.Stage.Basic
import Storyboard.Stage.Wait

/-! # Cues

    What a command does after its immediate effect is written down as cues:
    things to be done and waits between them. A strand is such a list under
    way. -/

namespace Storyboard

/-- Something to be done on the stage later. -/
inductive Act where
  /-- Draw a node with a highlight or without. -/
  | highlight (id : EntityId) (h : Option Highlight)
  /-- Draw a row with these tints. -/
  | tint (id : EntityId) (tints : List (Nat × Color))
  /-- Let the edges of a node follow it. -/
  | followNode (id : EntityId)
  /-- Let the pointers to a row follow it. -/
  | followRow (id : EntityId)
  /-- Finish an exit. -/
  | finishExit (ticket : Ticket) (kind : Kind) (id : EntityId)
  deriving DecidableEq, Repr, Inhabited

/-- Do something on the stage. -/
def Stage.perform (s : Stage) (now : Nat) : Act → Stage
  | .highlight id h => s.redrawNode now id h
  | .tint id tints => s.redrawRow now id tints
  | .followNode id => s.followNode now id
  | .followRow id => s.followRow now id
  | .finishExit ticket k id => s.finishExit now ticket k id

/-- One cue. -/
inductive Cue where
  | act (a : Act)
  | wait (d : Span)
  /-- Highlight a node and take the highlight away after `hold`, as often as `count` says. -/
  | flashes (count : Nat) (id : EntityId) (h : Highlight) (hold : Span)
  deriving DecidableEq, Repr, Inhabited

/-- Cues under way. -/
inductive Strand where
  /-- Waiting, with these cues to follow. -/
  | resting (wait : Wait) (rest : List Cue)
  /-- All cues are through. -/
  | over
  deriving DecidableEq, Repr, Inhabited

namespace Strand

/-- Follow cues up to the first wait. -/
def follow (now : Nat) (pacing : Pacing) (s : Stage) : List Cue → Stage × Strand
  | [] => (s, .over)
  | .act a :: rest => follow now pacing (s.perform now a) rest
  | .wait d :: rest => (s, .resting (pacing.wait now d) rest)
  | .flashes 0 _ _ _ :: rest => follow now pacing s rest
  | .flashes (n + 1) id h hold :: rest =>
    (s.redrawNode now id (some h),
      .resting (pacing.wait now hold)
        (.act (.highlight id none) :: .flashes n id h hold :: rest))

/-- Go on if the wait is over. -/
def resume (now : Nat) (pacing : Pacing) (s : Stage) : Strand → Stage × Strand
  | .resting wait rest =>
    if wait.isOver now then follow now pacing s rest else (s, .resting wait rest)
  | .over => (s, .over)

/-- Whether all cues are through. -/
def isOver : Strand → Bool
  | .over => true
  | .resting .. => false

/-- Whether the strand can go on. -/
def isReady (now : Nat) : Strand → Bool
  | .resting wait _ => wait.isOver now
  | .over => false

/-- The time at which it can. -/
def due? : Strand → Option Nat
  | .resting wait _ => wait.time?
  | .over => none

/-- Follow several lists of cues, each up to its first wait. -/
def followAll (now : Nat) (pacing : Pacing) (s : Stage) : List (List Cue) → Stage × List Strand
  | [] => (s, [])
  | cues :: rest =>
    let (s, strand) := follow now pacing s cues
    let (s, strands) := followAll now pacing s rest
    (s, strand :: strands)

/-- Let several strands go on, in their order. -/
def resumeAll (now : Nat) (pacing : Pacing) (s : Stage) : List Strand → Stage × List Strand
  | [] => (s, [])
  | strand :: rest =>
    let (s, strand) := resume now pacing s strand
    let (s, strands) := resumeAll now pacing s rest
    (s, strand :: strands)

end Strand

end Storyboard
