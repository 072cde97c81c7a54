import Storyboard.Failure
import Storyboard.Scene.Entity

/-! # Scenes

    A scene keeps a table for every kind of thing. An identifier belongs to
    one kind at a time: `insert` replaces a thing of the same kind and refuses
    to put one kind in the place of another. -/

namespace Storyboard

/-- All things there are, by kind and identifier. -/
structure Scene where
  nodes       : Table EntityId Node
  edges       : Table EntityId Edge
  rows        : Table EntityId Row
  pointers    : Table EntityId Pointer
  labels      : Table EntityId Label
  callouts : Table EntityId Callout

/-- An identifier that is held by one kind was to be given to another. -/
structure Clash where
  id     : EntityId
  /-- The kind that holds it. -/
  held   : Kind
  /-- The kind that was to have it. -/
  wanted : Kind
  deriving DecidableEq, Repr

/-- The clash in words. -/
def Clash.message (c : Clash) : String :=
  Category.scene.describe
    ("id '" ++ c.id.text ++ "' is already a " ++ c.held.name ++ ", cannot insert it as a " ++
      c.wanted.name)

namespace Scene

/-- The scene without anything in it. -/
def empty : Scene := ⟨∅, ∅, ∅, ∅, ∅, ∅⟩

instance : Inhabited Scene := ⟨empty⟩

/-! ### Looking things up -/

/-- The thing of this kind under this identifier. -/
def get? (s : Scene) : Kind → EntityId → Option Entity
  | .node, id => (s.nodes.find? id).map .node
  | .edge, id => (s.edges.find? id).map .edge
  | .array, id => (s.rows.find? id).map .row
  | .pointer, id => (s.pointers.find? id).map .pointer
  | .label, id => (s.labels.find? id).map .label
  | .callout, id => (s.callouts.find? id).map .callout

/-- Whether a thing of this kind has this identifier. -/
def has (s : Scene) (k : Kind) (id : EntityId) : Bool := (s.get? k id).isSome

/-- The kind that holds an identifier. -/
def kindOf? (s : Scene) (id : EntityId) : Option Kind := Kind.all.find? fun k => s.has k id

/-- All things of a kind, in the order of their identifiers. -/
def all (s : Scene) : Kind → List Entity
  | .node => s.nodes.values.map .node
  | .edge => s.edges.values.map .edge
  | .array => s.rows.values.map .row
  | .pointer => s.pointers.values.map .pointer
  | .label => s.labels.values.map .label
  | .callout => s.callouts.values.map .callout

/-- How many things of a kind there are. -/
def count (s : Scene) (k : Kind) : Nat := (s.all k).length

/-- How many things there are. -/
def size (s : Scene) : Nat := Kind.all.foldr (fun k n => s.count k + n) 0

/-- Whether there is nothing. -/
def isEmpty (s : Scene) : Bool := s.size == 0

/-- The edges that start or end at a node, in order. -/
def edgesTouching (s : Scene) (id : EntityId) : List EntityId :=
  (s.edges.values.filter fun e => e.source = id || e.target = id).map (·.id)

/-! ### Changing the scene -/

/-- Put a thing into the table of its kind. -/
def put (s : Scene) : Entity → Scene
  | .node n => { s with nodes := s.nodes.insert n.id n }
  | .edge e => { s with edges := s.edges.insert e.id e }
  | .row r => { s with rows := s.rows.insert r.id r }
  | .pointer p => { s with pointers := s.pointers.insert p.id p }
  | .label l => { s with labels := s.labels.insert l.id l }
  | .callout a => { s with callouts := s.callouts.insert a.id a }

/-- Insert a thing, in place of the one of its kind that had its identifier. -/
def insert (s : Scene) (e : Entity) : Except Clash Scene :=
  match s.kindOf? e.id with
  -- Only the kind that has the identifier may have it again.
  | some held => if held = e.kind then .ok (s.put e) else .error ⟨e.id, held, e.kind⟩
  | none => .ok (s.put e)

/-- Remove the thing of this kind under this identifier. -/
def erase (s : Scene) (k : Kind) (id : EntityId) : Scene :=
  match k with
  | .node => { s with nodes := s.nodes.erase id }
  | .edge => { s with edges := s.edges.erase id }
  | .array => { s with rows := s.rows.erase id }
  | .pointer => { s with pointers := s.pointers.erase id }
  | .label => { s with labels := s.labels.erase id }
  | .callout => { s with callouts := s.callouts.erase id }

/-- Change the node under an identifier. -/
def modifyNode (s : Scene) (id : EntityId) (f : Node → Node) : Scene :=
  { s with nodes := s.nodes.modify id f }

/-- Change the row under an identifier. -/
def modifyRow (s : Scene) (id : EntityId) (f : Row → Row) : Scene :=
  { s with rows := s.rows.modify id f }

end Scene

end Storyboard
