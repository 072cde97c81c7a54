import Storyboard.Failure
import Storyboard.Time.Span

/-! # Playback speed

    A speed is a positive finite factor; the time that a step takes is divided
    by it. -/

namespace Storyboard

/-- Whether `x` can be a speed. -/
def Speed.isFactor (x : Float) : Bool := x.isFinite && 0.0 < x

/-- How many times faster than normal playback runs. -/
structure Speed where
  /-- The factor. -/
  factor : Float
  /-- It is positive and finite. -/
  valid  : Speed.isFactor factor = true

namespace Speed

/-- Normal speed. -/
def normal : Speed := ⟨1.0, by decide⟩

instance : Inhabited Speed := ⟨normal⟩

/-- The factor was not positive and finite. -/
structure Problem where
  factor : Float

/-- The problem in words. -/
def Problem.message (p : Problem) : String :=
  Category.validation.describe
    ("speed must be a positive finite multiplier, got " ++ Number.plainText p.factor)

/-- The speed with this factor. -/
def ofFactor (x : Float) : Except Problem Speed :=
  if h : isFactor x = true then .ok ⟨x, h⟩ else .error ⟨x⟩

/-- The slowest speed that the controls offer. -/
def slowest : Speed := ⟨0.5, by decide⟩

/-- The speeds that the controls offer, slowest first. -/
def presets : List Speed := [slowest, normal, ⟨1.5, by decide⟩, ⟨2.0, by decide⟩]

/-- The distance between one and the next floating-point number. -/
def tolerance : Float := 2.220446049250313e-16

/-- The first preset that is faster, or the slowest one when there is none. -/
def next (s : Speed) : Speed :=
  (presets.find? fun p => s.factor + tolerance < p.factor).getD slowest

/-- How long something takes that takes `d` at normal speed. -/
def scale (s : Speed) (d : Span) : Span := .ofSeconds (d.seconds / s.factor)

/-- The speed with its mark. -/
def text (s : Speed) : String := Number.plainText s.factor ++ "x"

end Speed

end Storyboard
