import Storyboard.Drawing.Canvas
import Storyboard.Drawing.Markup
import Storyboard.Number.Layout

/-! # The canvas as a document

    The document of a canvas at some time: a background, and a group for every
    item, lowest first, with one element for each of its parts. -/

namespace Storyboard

/-- Width of every canvas. -/
def Canvas.width : Float := 800.0

/-- Height of every canvas. -/
def Canvas.height : Float := 600.0

namespace Document

/-- A coordinate. -/
def coordinate (x : Float) : String := String.ofList (Number.drawingText x)

/-- The opacity of a paint, where it is not solid. -/
def opacityAttribute (name : String) (c : Color) : List (String × String) :=
  if c.opacity = 255 then [] else [(name, coordinate c.fraction)]

/-- The attributes of a fill. -/
def fillAttributes : Option Color → List (String × String)
  | none => [("fill", "none")]
  | some c => ("fill", String.ofList c.hexSolid) :: opacityAttribute "fill-opacity" c

/-- The attribute for dashes. -/
def dashAttribute : Option (Float × Float) → List (String × String)
  | none => []
  | some (on, off) => [("stroke-dasharray", coordinate on ++ "," ++ coordinate off)]

/-- The attributes of an outline. -/
def strokeAttributes (p : Paint) : List (String × String) :=
  match p.stroke with
  | none => []
  | some c =>
    [("stroke", String.ofList c.hexSolid), ("stroke-width", coordinate p.strokeWidth)] ++
      opacityAttribute "stroke-opacity" c ++ dashAttribute p.dash

/-- The attributes of a paint. -/
def paintAttributes (p : Paint) : List (String × String) :=
  fillAttributes p.fill ++ strokeAttributes p

/-- The attributes of a line of which a fraction can be seen. -/
def lineAttributes (start stop : Point) (reveal : Float) : List (String × String) :=
  let stop := start.lerp stop (Number.clamp 0.0 1.0 reveal)
  [("x1", coordinate start.x), ("y1", coordinate start.y),
   ("x2", coordinate stop.x), ("y2", coordinate stop.y)]

/-- The attributes of a text. -/
def letteringAttributes (t : Lettering) : List (String × String) :=
  [("x", coordinate t.position.x), ("y", coordinate t.position.y),
   ("font-family", "sans-serif"), ("font-size", coordinate t.size),
   ("font-weight", Number.natText t.weight),
   ("text-anchor", match t.anchor with
     | .start => "start"
     | .middle => "middle")] ++
    (if t.centered then [("dominant-baseline", "central")] else [])

/-- The element of a part of which a fraction can be seen. -/
def ofPart (reveal : Float) (p : Part) : Markup :=
  match p.shape with
  | .circle center radius =>
    .leaf ⟨"circle",
      [("cx", coordinate center.x), ("cy", coordinate center.y), ("r", coordinate radius)] ++
        paintAttributes p.paint⟩
  | .rect r =>
    .leaf ⟨"rect",
      [("x", coordinate r.x0), ("y", coordinate r.y0),
       ("width", coordinate r.width), ("height", coordinate r.height)] ++
        paintAttributes p.paint⟩
  | .line start stop => .leaf ⟨"line", lineAttributes start stop reveal ++ paintAttributes p.paint⟩
  | .arrow start stop =>
    .leaf ⟨"line",
      lineAttributes start stop reveal ++ paintAttributes p.paint ++
        [("marker-end", "url(#arrowhead)")]⟩
  | .text t =>
    .node ⟨"text", letteringAttributes t ++ paintAttributes p.paint⟩ [.text t.content]

/-- The group of an item. -/
def ofItem (now : Nat) (i : Item) : Markup :=
  let origin := i.originAt now
  .node ⟨"g",
    [("data-id", i.id.text), ("data-kind", i.kind.name),
     ("transform", "translate(" ++ coordinate origin.x ++ " " ++ coordinate origin.y ++ ")"),
     ("opacity", coordinate (i.opacityAt now))]⟩
    (i.figure.parts.map (ofPart (i.revealAt now)))

/-- The arrow head that lines refer to. -/
def arrowHead : Markup :=
  .node ⟨"defs", []⟩
    [.node ⟨"marker",
      [("id", "arrowhead"), ("markerWidth", "10"), ("markerHeight", "10"), ("refX", "9"),
       ("refY", "3"), ("orient", "auto")]⟩
      [.leaf ⟨"polygon", [("points", "0 0, 10 3, 0 6"), ("fill", "#22d3ee")]⟩]]

/-- The background. -/
def backdrop : Markup :=
  .leaf ⟨"rect",
    [("width", coordinate Canvas.width), ("height", coordinate Canvas.height),
     ("fill", String.ofList Color.background.hexSolid)]⟩

/-- The document of a canvas. -/
def ofCanvas (now : Nat) (c : Canvas) : Markup :=
  let width := coordinate Canvas.width
  let height := coordinate Canvas.height
  .node ⟨"svg",
    [("xmlns", "http://www.w3.org/2000/svg"), ("width", width), ("height", height),
     ("viewBox", "0 0 " ++ width ++ " " ++ height)]⟩
    (arrowHead :: backdrop :: c.stacked.map (ofItem now))

end Document

/-- The text of the document of a canvas. -/
def Canvas.drawing (c : Canvas) (now : Nat) : String := (Document.ofCanvas now c).document

end Storyboard
