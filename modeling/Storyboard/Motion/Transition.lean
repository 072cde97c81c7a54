import Storyboard.Geometry
import Storyboard.Motion.Ease
import Storyboard.Time.Span

/-! # Transitions

    A transition takes a drawing from one state to another over a span of
    time: it appears, disappears, is drawn along its strokes or moves. Pacing
    decides whether that time is taken at all. -/

namespace Storyboard

/-- What a transition changes. -/
inductive Change where
  /-- Nothing: the new state is there at once. -/
  | cut
  /-- The drawing appears. -/
  | fadeIn
  /-- The drawing disappears. -/
  | fadeOut
  /-- Strokes grow from their start. -/
  | drawIn
  /-- The drawing goes from one place to another. -/
  | move (start stop : Point)
  deriving DecidableEq, Repr, Inhabited

/-- A change with its length and its curve. -/
structure Transition where
  change : Change
  /-- How long it takes. -/
  span   : Span
  /-- How it progresses. -/
  ease   : Ease
  deriving DecidableEq, Repr, Inhabited

namespace Transition

/-- No transition. -/
def cut : Transition := ⟨.cut, .zero, .linear⟩

/-- Appear over `d`. -/
def fadeIn (d : Span) : Transition := ⟨.fadeIn, d, .outQuad⟩

/-- Disappear over `d`. -/
def fadeOut (d : Span) : Transition := ⟨.fadeOut, d, .inQuad⟩

/-- Draw strokes over `d`. -/
def drawIn (d : Span) : Transition := ⟨.drawIn, d, .outCubic⟩

/-- Go from `start` to `stop` over `d`. -/
def move (start stop : Point) (d : Span) (ease : Ease) : Transition := ⟨.move start stop, d, ease⟩

/-- How far the transition has come after `elapsed`, from zero to one. -/
def progress (t : Transition) (elapsed : Span) : Float :=
  if t.span.isZero || t.change = .cut then 1.0
  else t.ease.apply (elapsed.seconds / t.span.seconds)

/-- Whether the transition is over after `elapsed`. -/
def isComplete (t : Transition) (elapsed : Span) : Bool := t.span.nanos ≤ elapsed.nanos

/-- The factor on the opacity after `elapsed`. -/
def opacity (t : Transition) (elapsed : Span) : Float :=
  match t.change with
  | .fadeIn => t.progress elapsed
  | .fadeOut => 1.0 - t.progress elapsed
  | _ => 1.0

/-- Where the drawing is after `elapsed`, if it moves. -/
def position? (t : Transition) (elapsed : Span) : Option Point :=
  match t.change with
  | .move start stop => some (start.lerp stop (t.progress elapsed))
  | _ => none

/-- The fraction of every stroke that is drawn after `elapsed`. -/
def reveal (t : Transition) (elapsed : Span) : Float :=
  match t.change with
  | .drawIn => t.progress elapsed
  | _ => 1.0

end Transition

/-- Whether waits take time. -/
inductive Pacing where
  /-- They take the time they ask for. -/
  | realtime
  /-- They only let everything else take its turn. -/
  | instant
  deriving DecidableEq, Repr, Inhabited

/-- A transition as this pacing plays it. -/
def Pacing.transition : Pacing → Transition → Transition
  | .realtime, t => t
  | .instant, _ => .cut

end Storyboard
