import Storyboard.Drawing.Figure
import Storyboard.Number.Layout
import Storyboard.Scene.Entity

/-! # The figures of things

    How nodes, edges, rows, pointers, labels and annotations look. A node may
    be highlighted and cells may be tinted for a while; everything else is a
    function of the thing alone. -/

namespace Storyboard

/-- How strong a highlight is. -/
inductive Intensity where
  | high
  | medium
  | low
  deriving DecidableEq, Repr, Inhabited

/-- The intensity with this name; an unknown name is high. -/
def Intensity.ofName (s : Option String) : Intensity :=
  match s.map plainName with
  | some "medium" => .medium
  | some "low" => .low
  | _ => .high

/-- The name of an intensity. -/
def Intensity.name : Intensity → String
  | .high => "high"
  | .medium => "medium"
  | .low => "low"

/-- A color that a node has for a while. -/
structure Highlight where
  color     : Color
  intensity : Intensity
  deriving DecidableEq, Repr, Inhabited

namespace Figure

/-- Radius of a node. -/
def nodeRadius : Float := 25.0

/-- A text whose position marks its middle. -/
def lettering (position : Point) (content : String) (size : Float) (weight : Nat)
    (centered : Bool) : Shape :=
  .text ⟨position, content, size, weight, .middle, centered⟩

/-! ### Nodes -/

/-- The fill of a node of some style. -/
def nodeFill : Option String → Color
  | none => Color.white.fade 0.1
  | some "root" => .cyan
  | some "highlight" => Color.success.tint
  | some _ => Color.cyan.tint

/-- The outline of a node of some style. -/
def nodeStroke : Option String → Color
  | some "highlight" => .success
  | _ => .cyan

/-- The paint of a node, which a highlight replaces. -/
def nodePaint (style : Option String) : Option Highlight → Paint
  | none => ⟨some (nodeFill style), some (nodeStroke style), 2.0, none⟩
  | some h =>
    let fill := match h.intensity with
      | .high => h.color
      | _ => h.color.tint
    ⟨some fill, some h.color, 3.0, none⟩

/-- A node: a circle with its value in the middle. -/
def ofNode (n : Node) (highlight : Option Highlight) : Figure where
  layer := .shapes
  origin := n.position
  opacity := 1.0
  parts :=
    [⟨.body, .circle .zero nodeRadius, nodePaint n.style highlight⟩,
     ⟨.text, lettering .zero n.value 16.0 600 true, .filled .white⟩]

/-! ### Edges -/

/-- The paint of a line. -/
def linePaint : LineStyle → Paint
  | .solid => .stroked .cyan 2.0
  | .dashed => (Paint.stroked .cyan 2.0).dashed 5.0 5.0

/-- An edge between two centers of nodes. An arrow stops at the circle around its target, so that
    its head can be seen. -/
def ofEdge (e : Edge) (a b : Point) : Figure where
  layer := .edges
  origin := .zero
  opacity := 0.6
  parts :=
    let body := if e.directed then Shape.arrow a (a.shortOf b nodeRadius) else .line a b
    let caption := match e.weight with
      | none => []
      | some w =>
        [⟨.caption, lettering ((a.midpoint b).shift 0.0 (-8.0)) w 12.0 400 false, .filled .white⟩]
    ⟨.body, body, linePaint e.line⟩ :: caption

/-! ### Rows -/

/-- The fill of a cell: the last tint for its place, or hardly any. -/
def cellFill (tints : List (Nat × Color)) (i : Nat) : Color :=
  match tints.reverse.find? fun t => t.1 = i with
  | some t => t.2
  | none => Color.white.fade 0.05

/-- The parts of the cell at `i`: background, text and number. -/
def cellParts (tints : List (Nat × Color)) (i : Nat) (text : String) : List Part :=
  let x := Number.ofNat i * Row.cellWidth
  let middle := x + Row.cellWidth / 2.0
  [⟨.cell i, .rect ⟨x, 0.0, x + Row.cellWidth, Row.cellHeight⟩,
      ⟨some (cellFill tints i), some .cyan, 1.0, none⟩⟩,
   ⟨.cellText i, lettering ⟨middle, Row.cellHeight / 2.0⟩ text 14.0 400 true, .filled .white⟩,
   ⟨.cellIndex i,
      lettering ⟨middle, Row.cellHeight + 15.0⟩ (Number.natText i) 11.0 400 false,
      .filled (Color.white.fade 0.5)⟩]

/-- The parts of the cells from place `i` on. -/
def cellsFrom (tints : List (Nat × Color)) (i : Nat) : List String → List Part
  | [] => []
  | text :: rest => cellParts tints i text ++ cellsFrom tints (i + 1) rest

/-- A row of cells, some of them tinted. -/
def ofRow (r : Row) (tints : List (Nat × Color)) : Figure where
  layer := .shapes
  origin := r.anchor
  opacity := 1.0
  parts := cellsFrom tints 0 r.cells

/-! ### Pointers, labels and annotations -/

/-- A pointer above its cell of a row. -/
def ofPointer (p : Pointer) (r : Row) : Figure where
  layer := .shapes
  origin := ⟨(r.cellRect p.index).center.x, r.anchor.y - 20.0⟩
  opacity := 1.0
  parts :=
    [⟨.body, .arrow .zero ⟨0.0, 15.0⟩, .stroked p.color 2.0⟩,
     ⟨.caption, lettering ⟨0.0, -5.0⟩ p.label 12.0 400 false, .filled p.color⟩]

/-- A label. -/
def ofLabel (l : Label) : Figure where
  layer := .overlay
  origin := l.position
  opacity := 1.0
  parts := [⟨.text, lettering .zero l.text 14.0 500 false, .filled l.tone.color⟩]

/-- An annotation: a dashed arrow, with a text above its middle unless that is empty. -/
def ofCallout (a : Callout) : Figure where
  layer := .overlay
  origin := .zero
  opacity := 1.0
  parts :=
    let caption := match a.text with
      | none => []
      | some t =>
        if t.isEmpty then []
        else [⟨.caption, lettering (a.middle.shift 0.0 (-5.0)) t 12.0 400 false, .filled .amber⟩]
    ⟨.body, .arrow a.start a.stop, (Paint.stroked .amber 2.0).dashed 4.0 4.0⟩ :: caption

end Figure

end Storyboard
