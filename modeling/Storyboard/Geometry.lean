/-! # Points and rectangles

    The plane that drawings live in: positions in canvas units, the middle of
    two of them and the way from one to another. -/

namespace Storyboard

/-- A position. -/
structure Point where
  /-- To the right. -/
  x : Float
  /-- Downwards. -/
  y : Float
  deriving DecidableEq, Repr, Inhabited

namespace Point

/-- The origin. -/
def zero : Point := ⟨0.0, 0.0⟩

/-- Half way between two positions. -/
def midpoint (a b : Point) : Point := ⟨0.5 * (a.x + b.x), 0.5 * (a.y + b.y)⟩

/-- The position at fraction `t` of the way from `a` to `b`. -/
def lerp (a b : Point) (t : Float) : Point := ⟨a.x + t * (b.x - a.x), a.y + t * (b.y - a.y)⟩

/-- The position `dx` further right and `dy` further down. -/
def shift (a : Point) (dx dy : Float) : Point := ⟨a.x + dx, a.y + dy⟩

/-- `b` pulled back towards `a` by `r`, unless the two are within `r` of each other. -/
def shortOf (a b : Point) (r : Float) : Point :=
  let dx := b.x - a.x
  let dy := b.y - a.y
  let length := (dx * dx + dy * dy).sqrt
  if length > r then ⟨b.x - dx * (r / length), b.y - dy * (r / length)⟩ else b

end Point

/-- An upright rectangle, given by two opposite corners. -/
structure Rect where
  x0 : Float
  y0 : Float
  x1 : Float
  y1 : Float
  deriving DecidableEq, Repr, Inhabited

namespace Rect

/-- From left to right. -/
def width (r : Rect) : Float := r.x1 - r.x0

/-- From top to bottom. -/
def height (r : Rect) : Float := r.y1 - r.y0

/-- The middle of the rectangle. -/
def center (r : Rect) : Point := ⟨0.5 * (r.x0 + r.x1), 0.5 * (r.y0 + r.y1)⟩

end Rect

end Storyboard
