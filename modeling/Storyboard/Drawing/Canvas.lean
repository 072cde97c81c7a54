import Storyboard.Drawing.Figure
import Storyboard.EntityId
import Storyboard.Motion.Transition
import Storyboard.Scene.Entity

/-! # The canvas

    The canvas holds what is drawn: items, each with a figure and with the
    transitions that it is going through. Items are known by handles, which
    count up and are never used again. Times are in ticks of a millisecond;
    where an item is and how much of it can be seen is a function of the time
    at which one looks. -/

namespace Storyboard

/-- A transition and the time at which it started. -/
structure Stamp where
  transition : Transition
  since      : Nat
  deriving DecidableEq, Repr, Inhabited

namespace Stamp

/-- A stamp for a transition that starts now, if it takes any time. -/
def start? (t : Transition) (now : Nat) : Option Stamp :=
  if t.change = .cut || t.span.isZero then none else some ⟨t, now⟩

/-- How long ago the transition started. -/
def elapsed (s : Stamp) (now : Nat) : Span := .ofMillis (now - s.since)

end Stamp

/-- One drawn thing. -/
structure Item where
  kind   : Kind
  id     : EntityId
  figure : Figure
  /-- How it came to be seen. -/
  appear : Option Stamp
  /-- Where it is on the move to. -/
  motion : Option Stamp
  /-- How it goes away. -/
  exit   : Option Stamp
  deriving DecidableEq, Repr, Inhabited

namespace Item

/-- Where the item is. -/
def originAt (i : Item) (now : Nat) : Point :=
  (i.motion.bind fun s => s.transition.position? (s.elapsed now)).getD i.figure.origin

/-- A factor that a transition may put on the opacity. -/
def dim (now : Nat) (s : Option Stamp) (opacity : Float) : Float :=
  match s with
  | some s => opacity * s.transition.opacity (s.elapsed now)
  | none => opacity

/-- How opaque the item is. -/
def opacityAt (i : Item) (now : Nat) : Float := dim now i.exit (dim now i.appear i.figure.opacity)

/-- The fraction of every stroke that can be seen. -/
def revealAt (i : Item) (now : Nat) : Float :=
  match i.appear with
  | some s => s.transition.reveal (s.elapsed now)
  | none => 1.0

end Item

/-- What a canvas can be told to do about one thing. -/
inductive Instruction where
  /-- Draw a new figure. -/
  | create (figure : Figure) (enter : Transition)
  /-- Draw another figure in place of the one there is. -/
  | update (figure : Figure) (transition : Transition)
  /-- Take the figure to another place. -/
  | move (destination : Point) (transition : Transition)
  /-- Let the figure go. It stays drawn until it is discarded. -/
  | exit (transition : Transition)
  /-- Take the figure away. -/
  | discard
  deriving DecidableEq, Repr, Inhabited

/-- What is drawn. -/
structure Canvas where
  /-- The items by their handles. -/
  items : Table Nat Item
  /-- The handle given last. -/
  last  : Nat

namespace Canvas

/-- A canvas with nothing on it. -/
def blank : Canvas := ⟨∅, 0⟩

instance : Inhabited Canvas := ⟨blank⟩

/-- Draw a new item. -/
def add (c : Canvas) (now : Nat) (kind : Kind) (id : EntityId) (f : Figure) (enter : Transition) :
    Canvas × Nat :=
  let handle := c.last + 1
  (⟨c.items.insert handle ⟨kind, id, f, Stamp.start? enter now, none, none⟩, handle⟩, handle)

/-- Change the item with a handle. -/
def change (c : Canvas) (handle : Nat) (f : Item → Item) : Canvas :=
  { c with items := c.items.modify handle f }

/-- Another figure ends any move; a transition that takes time starts afresh. -/
def redraw (now : Nat) (f : Figure) (t : Transition) (i : Item) : Item :=
  { i with
    figure := f
    motion := none
    appear := (Stamp.start? t now).orElse fun _ => i.appear }

/-- A move starts from where the item is just now. -/
def relocate (now : Nat) (destination : Point) (t : Transition) (i : Item) : Item :=
  { i with
    motion := Stamp.start? { t with change := .move (i.originAt now) destination } now
    figure := { i.figure with origin := destination } }

/-- An exit that takes no time leaves nothing to be seen. -/
def leave (now : Nat) (t : Transition) (i : Item) : Item :=
  match Stamp.start? t now with
  | some s => { i with exit := some s }
  | none => { i with exit := none, figure := { i.figure with opacity := 0.0 } }

/-- Follow an instruction about a thing whose handle is `target`; the result has the handle under
    which the thing is drawn afterwards. An update of what is not drawn draws it; any other
    instruction about what is not drawn does nothing. -/
def perform (c : Canvas) (now : Nat) (kind : Kind) (id : EntityId) (target : Option Nat)
    (i : Instruction) : Canvas × Nat :=
  match i, target.filter fun h => c.items.contains h with
  -- A creation draws an item of its own, also when the thing has one.
  | .create f enter, _ => c.add now kind id f enter
  | .update f enter, none => c.add now kind id f enter
  | .update f t, some h => (c.change h (redraw now f t), h)
  | .move destination t, some h => (c.change h (relocate now destination t), h)
  | .exit t, some h => (c.change h (leave now t), h)
  | .discard, some h => ({ c with items := c.items.erase h }, h)
  | _, none => (c, target.getD 0)

/-- Take everything away. Handles go on counting. -/
def clear (c : Canvas) : Canvas := { c with items := ∅ }

/-- How many items there are. -/
def size (c : Canvas) : Nat := c.items.size

/-- How many items of a kind there are. -/
def count (c : Canvas) (k : Kind) : Nat := (c.items.values.filter fun i => i.kind = k).length

/-- The first item drawn for a thing. -/
def item? (c : Canvas) (id : EntityId) : Option Item := c.items.values.find? fun i => i.id = id

/-- The items of a layer, in the order in which they were created. -/
def inLayer (c : Canvas) (l : Layer) : List Item :=
  c.items.values.filter fun i => i.figure.layer = l

/-- All items as they lie above one another, lowest first. -/
def stacked (c : Canvas) : List Item := c.inLayer .edges ++ c.inLayer .shapes ++ c.inLayer .overlay

end Canvas

end Storyboard
