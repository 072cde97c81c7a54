import Storyboard.Drawing.Build
import Storyboard.Drawing.Presenter
import Storyboard.Scene.Basic

/-! # The stage

    The stage is a scene together with its presentation. Whatever changes a
    thing in the scene also changes how it is drawn, and the figures of things
    that depend on others follow those. -/

namespace Storyboard

/-- A scene and how it is drawn. -/
structure Stage where
  scene     : Scene
  presenter : Presenter

namespace Stage

/-- Nothing there and nothing drawn. -/
def empty : Stage := ⟨.empty, .fresh⟩

instance : Inhabited Stage := ⟨empty⟩

/-! ### Redrawing -/

/-- Draw another figure for a thing at once. -/
def redraw (s : Stage) (now : Nat) (id : EntityId) (f : Figure) : Stage :=
  { s with presenter := (s.presenter.refresh now id f .cut).1 }

/-- Redraw a node as it stands in the scene, with or without a highlight. -/
def redrawNode (s : Stage) (now : Nat) (id : EntityId) (h : Option Highlight) : Stage :=
  match s.scene.nodes.find? id with
  | some n => s.redraw now id (.ofNode n h)
  | none => s

/-- Redraw a row as it stands in the scene, with some cells tinted. -/
def redrawRow (s : Stage) (now : Nat) (id : EntityId) (tints : List (Nat × Color)) : Stage :=
  match s.scene.rows.find? id with
  | some r => s.redraw now id (.ofRow r tints)
  | none => s

/-- The figure of an edge, if both its ends are in the scene. -/
def edgeFigure? (s : Scene) (e : Edge) : Option Figure := do
  let a ← s.nodes.find? e.source
  let b ← s.nodes.find? e.target
  pure (.ofEdge e a.position b.position)

/-- Redraw one edge between the places where its ends are now. -/
def followEdge (s : Stage) (now : Nat) (id : EntityId) : Stage :=
  match (s.scene.edges.find? id).bind (edgeFigure? s.scene) with
  | some f => s.redraw now id f
  | none => s

/-- Redraw the edges of a node. -/
def followNode (s : Stage) (now : Nat) (id : EntityId) : Stage :=
  (s.scene.edgesTouching id).foldl (fun s e => s.followEdge now e) s

/-- Redraw the pointers to the cells of a row. -/
def followRow (s : Stage) (now : Nat) (id : EntityId) : Stage :=
  match s.scene.rows.find? id with
  | none => s
  | some r =>
    -- A pointer past the end of the row stays as it was drawn last.
    let pointers := s.scene.pointers.values.filter fun p => p.row = id && r.hasCell p.index
    pointers.foldl (fun s p => s.redraw now p.id (.ofPointer p r)) s

/-! ### Entering and leaving -/

/-- Put a thing into the scene and show it. -/
def enter (s : Stage) (now : Nat) (e : Entity) (f : Figure) (t : Transition) :
    Except Clash Stage :=
  match s.scene.insert e with
  | .error c => .error c
  | .ok scene => .ok ⟨scene, (s.presenter.present now e.kind e.id f t).1⟩

/-- Finish an exit: the thing leaves the scene unless it was shown again in the meantime. -/
def finishExit (s : Stage) (now : Nat) (ticket : Ticket) (k : Kind) (id : EntityId) : Stage :=
  match s.presenter.finishExit now ticket with
  | (presenter, true) => ⟨s.scene.erase k id, presenter⟩
  | (presenter, false) => { s with presenter }

/-- Empty the scene and the canvas. -/
def reset (s : Stage) (now : Nat) : Stage := ⟨.empty, s.presenter.reset now⟩

end Stage

end Storyboard
