import Storyboard.Color
import Storyboard.Geometry

/-! # Figures

    A figure is the drawing of one thing: painted shapes and texts around an
    origin, with an opacity of its own, in one of three layers. -/

namespace Storyboard

/-- What is painted over what: later layers lie above earlier ones. -/
inductive Layer where
  /-- Lines between nodes. -/
  | edges
  /-- Nodes, rows and pointers. -/
  | shapes
  /-- Labels and annotations. -/
  | overlay
  deriving DecidableEq, Repr, Inhabited

/-- Which side of a text its position marks. -/
inductive Anchor where
  | start
  | middle
  deriving DecidableEq, Repr, Inhabited

/-- A text to be drawn. -/
structure Lettering where
  position : Point
  content  : String
  size     : Float
  weight   : Nat
  anchor   : Anchor
  /-- Whether the position marks the middle of the letters and not their base line. -/
  centered : Bool
  deriving DecidableEq, Repr, Inhabited

/-- The outline of a part, relative to the origin of its figure. -/
inductive Shape where
  | circle (center : Point) (radius : Float)
  | rect (r : Rect)
  | line (start stop : Point)
  /-- A line with an arrow head at its end. -/
  | arrow (start stop : Point)
  | text (t : Lettering)
  deriving DecidableEq, Repr, Inhabited

/-- How a part is painted. -/
structure Paint where
  fill        : Option Color
  stroke      : Option Color
  /-- Of no account without a stroke. -/
  strokeWidth : Float
  /-- Lengths of dashes and of the gaps between them. -/
  dash        : Option (Float × Float)
  deriving DecidableEq, Repr, Inhabited

namespace Paint

/-- A filled part without outline. -/
def filled (c : Color) : Paint := ⟨some c, none, 0.0, none⟩

/-- An outline. -/
def stroked (c : Color) (width : Float) : Paint := ⟨none, some c, width, none⟩

/-- The same paint with dashes. -/
def dashed (p : Paint) (on off : Float) : Paint := { p with dash := some (on, off) }

end Paint

/-- What a part is in its figure. -/
inductive Role where
  /-- The circle, line or arrow itself. -/
  | body
  /-- The main text. -/
  | text
  /-- The background of a cell. -/
  | cell (i : Nat)
  /-- The text in a cell. -/
  | cellText (i : Nat)
  /-- The number below a cell. -/
  | cellIndex (i : Nat)
  /-- A text beside the body. -/
  | caption
  deriving DecidableEq, Repr, Inhabited

/-- One painted shape. -/
structure Part where
  role  : Role
  shape : Shape
  paint : Paint
  deriving DecidableEq, Repr, Inhabited

/-- The drawing of one thing. -/
structure Figure where
  layer   : Layer
  /-- Where the origin of the parts lies on the canvas. -/
  origin  : Point
  opacity : Float
  /-- The parts, each painted over the ones before. -/
  parts   : List Part
  deriving DecidableEq, Repr, Inhabited

namespace Figure

/-- The first part in a role. -/
def part? (f : Figure) (r : Role) : Option Part := f.parts.find? fun p => p.role = r

/-- The text of the first part in a role, if that part is a text. -/
def text? (f : Figure) (r : Role) : Option String :=
  match (f.part? r).map Part.shape with
  | some (Shape.text t) => some t.content
  | _ => none

end Figure

end Storyboard
