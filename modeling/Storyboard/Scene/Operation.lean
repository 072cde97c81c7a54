import Storyboard.Scene.Basic

/-! # Operations on a scene

    Everything that changes a scene, for things of all kinds alike, together
    with what is answered. A change leaves the identifier of a thing as it is;
    that is part of the operation. -/

namespace Storyboard

/-- What the things of a kind are. -/
abbrev Kind.Thing : Kind → Type
  | .node => Node
  | .edge => Edge
  | .array => Row
  | .pointer => Pointer
  | .label => Label
  | .callout => Callout

namespace Entity

/-- A thing of a kind. -/
def ofKind : (k : Kind) → k.Thing → Entity
  | .node => .node
  | .edge => .edge
  | .array => .row
  | .pointer => .pointer
  | .label => .label
  | .callout => .callout

/-- Change a thing if it is of a kind. -/
def change : (k : Kind) → (k.Thing → k.Thing) → Entity → Entity
  | .node, f, .node n => .node (f n)
  | .edge, f, .edge e => .edge (f e)
  | .array, f, .row r => .row (f r)
  | .pointer, f, .pointer p => .pointer (f p)
  | .label, f, .label l => .label (f l)
  | .callout, f, .callout a => .callout (f a)
  | _, _, e => e

end Entity

namespace Scene

/-- Change the thing of a kind under an identifier. -/
def modify (s : Scene) : (k : Kind) → EntityId → (k.Thing → k.Thing) → Scene
  | .node, id, f => s.modifyNode id f
  | .edge, id, f => { s with edges := s.edges.modify id f }
  | .array, id, f => s.modifyRow id f
  | .pointer, id, f => { s with pointers := s.pointers.modify id f }
  | .label, id, f => { s with labels := s.labels.modify id f }
  | .callout, id, f => { s with callouts := s.callouts.modify id f }

/-- Something asked of a scene. -/
inductive Operation where
  /-- Insert a thing. -/
  | insert (e : Entity)
  /-- Remove the thing of a kind under an identifier. -/
  | erase (k : Kind) (id : EntityId)
  /-- Change the thing of a kind under an identifier, but not its identifier. -/
  | modify (k : Kind) (id : EntityId) (f : k.Thing → k.Thing)
      (keeps : ∀ x, (Entity.ofKind k (f x)).id = (Entity.ofKind k x).id)
  /-- Remove everything. -/
  | reset

/-- Do what is asked. The answer is the thing that was found in the place of the new one, or to be
    removed or changed; only an insertion can be refused. -/
def perform (s : Scene) : Operation → Scene × Except Clash (Option Entity)
  | .insert e =>
    match s.insert e with
    | .ok t => (t, .ok (s.get? e.kind e.id))
    | .error c => (s, .error c)
  | .erase k id => (s.erase k id, .ok (s.get? k id))
  | .modify k id f _ => (s.modify k id f, .ok (s.get? k id))
  | .reset => (.empty, .ok none)

/-- The scene after some operations. -/
def afterAll (s : Scene) (operations : List Operation) : Scene :=
  operations.foldl (fun s o => (s.perform o).1) s

end Scene

end Storyboard
