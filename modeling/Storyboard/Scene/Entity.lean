import Storyboard.Color
import Storyboard.EntityId
import Storyboard.Geometry
import Storyboard.Number.Rounding
import Storyboard.Text.Blank

/-! # The things in a scene

    Six kinds of things can be in a scene: nodes, edges between nodes, rows of
    cells, pointers to cells, labels and annotations. Texts are held as they
    are shown. -/

namespace Storyboard

/-- The kinds of things. -/
inductive Kind where
  | node
  | edge
  | array
  | pointer
  | label
  | callout
  deriving DecidableEq, Repr, Inhabited

namespace Kind

/-- All kinds, in the order in which they are listed. -/
def all : List Kind := [.node, .edge, .array, .pointer, .label, .callout]

/-- The name of a kind in texts. -/
def name : Kind → String
  | .node => "node"
  | .edge => "edge"
  | .array => "array"
  | .pointer => "pointer"
  | .label => "label"
  | .callout => "annotation"

end Kind

/-- The name that a lenient reader goes by: without blanks around it, in lower case. -/
def plainName (s : String) : String := Text.lower (Text.trim s)

/-- A circle with a text. -/
structure Node where
  id       : EntityId
  /-- The text in the middle. -/
  value    : String
  /-- The middle of the circle. -/
  position : Point
  /-- A name that chooses the colors. -/
  style    : Option String
  deriving DecidableEq, Repr, Inhabited

/-- How a line is stroked. -/
inductive LineStyle where
  | solid
  | dashed
  deriving DecidableEq, Repr, Inhabited

/-- The line style with this name. Whatever does not name dashes is solid. -/
def LineStyle.ofName (s : Option String) : LineStyle :=
  match s.map plainName with
  | some "dashed" => .dashed
  | some "dotted" => .dashed
  | _ => .solid

/-- The name of a line style. -/
def LineStyle.name : LineStyle → String
  | .solid => "solid"
  | .dashed => "dashed"

/-- A line between two nodes. -/
structure Edge where
  id       : EntityId
  /-- The node it starts from. -/
  source   : EntityId
  /-- The node it leads to. -/
  target   : EntityId
  /-- Whether the line ends in an arrow head. -/
  directed : Bool
  /-- A text beside the middle of the line. -/
  weight   : Option String
  line     : LineStyle
  deriving DecidableEq, Repr, Inhabited

/-- A horizontal row of cells. -/
structure Row where
  id     : EntityId
  /-- The texts of the cells, left to right. -/
  cells  : List String
  /-- The upper left corner of the first cell. -/
  anchor : Point
  deriving DecidableEq, Repr, Inhabited

namespace Row

/-- Width of a cell. -/
def cellWidth : Float := 50.0

/-- Height of a cell. -/
def cellHeight : Float := 40.0

/-- Whether there is a cell at `i`. -/
def hasCell (r : Row) (i : Nat) : Bool := i < r.cells.length

/-- The outline of the cell at `i`, whether or not there is one. -/
def cellRect (r : Row) (i : Nat) : Rect :=
  let x := r.anchor.x + Number.ofNat i * cellWidth
  ⟨x, r.anchor.y, x + cellWidth, r.anchor.y + cellHeight⟩

/-- Exchange the texts of two cells. -/
def swapCells (r : Row) (i j : Nat) : Row :=
  match r.cells[i]?, r.cells[j]? with
  | some a, some b => { r with cells := (r.cells.set i b).set j a }
  | _, _ => r

/-- Write `text` into the cell at `i`. -/
def setCell (r : Row) (i : Nat) (text : String) : Row := { r with cells := r.cells.set i text }

end Row

/-- An arrow that points at a cell. -/
structure Pointer where
  id    : EntityId
  /-- The row of the cell. -/
  row   : EntityId
  /-- The place of the cell in its row. -/
  index : Nat
  /-- The text above the arrow. -/
  label : String
  color : Color
  deriving DecidableEq, Repr, Inhabited

/-- What a label is about. -/
inductive Tone where
  | info
  | success
  | warning
  | error
  deriving DecidableEq, Repr, Inhabited

namespace Tone

/-- The tone with this name; an unknown name is plain information. -/
def ofName (s : Option String) : Tone :=
  match s.map plainName with
  | some "success" => .success
  | some "warning" => .warning
  | some "error" => .error
  | _ => .info

/-- The name of a tone. -/
def name : Tone → String
  | .info => "info"
  | .success => "success"
  | .warning => "warning"
  | .error => "error"

/-- The color in which a tone is written. -/
def color : Tone → Color
  | .info => .cyan
  | .success => .success
  | .warning => .amber
  | .error => .failure

end Tone

/-- A text on the canvas. -/
structure Label where
  id       : EntityId
  text     : String
  /-- Where the base line starts. -/
  position : Point
  tone     : Tone
  deriving DecidableEq, Repr, Inhabited

/-- An arrow between two points. -/
structure Callout where
  id    : EntityId
  /-- The tail of the arrow. -/
  start : Point
  /-- Its head. -/
  stop  : Point
  /-- A text above the middle. -/
  text  : Option String
  deriving DecidableEq, Repr, Inhabited

/-- The middle of the arrow. -/
def Callout.middle (a : Callout) : Point := a.start.midpoint a.stop

/-- One thing of any kind. -/
inductive Entity where
  | node (n : Node)
  | edge (e : Edge)
  | row (r : Row)
  | pointer (p : Pointer)
  | label (l : Label)
  | callout (a : Callout)
  deriving DecidableEq, Repr, Inhabited

namespace Entity

/-- What it is known by. -/
def id : Entity → EntityId
  | .node n => n.id
  | .edge e => e.id
  | .row r => r.id
  | .pointer p => p.id
  | .label l => l.id
  | .callout a => a.id

/-- What kind of thing it is. -/
def kind : Entity → Kind
  | .node _ => .node
  | .edge _ => .edge
  | .row _ => .array
  | .pointer _ => .pointer
  | .label _ => .label
  | .callout _ => .callout

end Entity

end Storyboard
