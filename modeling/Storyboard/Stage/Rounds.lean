import Storyboard.Stage.Opening

/-! # How long commands keep the stage busy

    Every cue that a command leaves ends in finitely many waits, and in every
    round at least one of them comes to its end. So the number of waits bounds
    the number of rounds in which commands are performed, in either pacing. -/

namespace Storyboard

/-- The most waits that a command leaves. -/
def Command.waits : Command → Nat
  | .compare .. => 3
  | .pulse _ count _ => count
  | .highlightPath nodes .. => 2 * nodes.length
  | _ => 1

/-- The most waits that a command leaves as it is written; one that does not decode leaves none. -/
def Command.waitsAsWritten (command : Json) : Nat :=
  match Command.ofJson command with
  | .ok c => c.waits
  | .error _ => 0

/-- The most waits that some commands leave. -/
def Stage.waitsOf (commands : List Json) : Nat :=
  commands.foldr (fun c n => Command.waitsAsWritten c + n) 0

end Storyboard
