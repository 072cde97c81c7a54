import Storyboard.Drawing.Canvas

/-! # Presenting things

    The presenter knows which thing is drawn under which handle. A thing that
    exits stays known until its exit is finished; showing it again in the
    meantime takes the exiting figure away at once, and the ticket for the old
    exit is then good for nothing: it names the incarnation that it was issued
    for, and incarnations are never numbered twice. -/

namespace Storyboard

/-- How a thing is drawn. -/
structure Live where
  kind        : Kind
  /-- The handle of its item. -/
  handle      : Nat
  /-- Which showing this is, over the whole life of the presenter. -/
  incarnation : Nat
  /-- Whether it is on its way out. -/
  exiting     : Bool
  deriving DecidableEq, Repr, Inhabited

/-- The right to finish an exit. -/
structure Ticket where
  id          : EntityId
  /-- The showing that exits. -/
  incarnation : Nat
  deriving DecidableEq, Repr, Inhabited

/-- Something that the canvas was told. -/
inductive JournalEntry where
  /-- An instruction about one thing, with the handles before and after it. -/
  | performed (time : Nat) (kind : Kind) (id : EntityId) (target : Option Nat)
      (instruction : Instruction) (handle : Nat)
  /-- Everything was taken away. -/
  | cleared (time : Nat)
  deriving DecidableEq, Repr, Inhabited

/-- What is drawn, and for which thing. -/
structure Presenter where
  canvas       : Canvas
  /-- The things that are drawn. -/
  live         : Table EntityId Live
  /-- How many showings there have been. -/
  incarnations : Nat
  /-- Everything that the canvas was told, the latest first. -/
  journal      : List JournalEntry

namespace Presenter

/-- Nothing is drawn yet. -/
def fresh : Presenter := ⟨.blank, ∅, 0, []⟩

instance : Inhabited Presenter := ⟨fresh⟩

/-- Pass an instruction on to the canvas and write it down. -/
def instruct (p : Presenter) (now : Nat) (kind : Kind) (id : EntityId) (target : Option Nat)
    (i : Instruction) : Presenter × Nat :=
  let (canvas, handle) := p.canvas.perform now kind id target i
  ({ p with canvas, journal := .performed now kind id target i handle :: p.journal }, handle)

/-- The thing under an identifier, unless it is exiting. -/
def staying? (p : Presenter) (id : EntityId) : Option Live :=
  (p.live.find? id).filter fun l => !l.exiting

/-- Whether a thing is drawn, exiting or not. -/
def shows (p : Presenter) (id : EntityId) : Bool := p.live.contains id

/-- Whether a thing is on its way out. -/
def isExiting (p : Presenter) (id : EntityId) : Bool :=
  match p.live.find? id with
  | some l => l.exiting
  | none => false

/-- Take a thing away at once; the second component tells whether it was drawn. -/
def discard (p : Presenter) (now : Nat) (id : EntityId) : Presenter × Bool :=
  match p.live.find? id with
  | some l =>
    let (p, _) := p.instruct now l.kind id (some l.handle) .discard
    ({ p with live := p.live.erase id }, true)
  | none => (p, false)

/-- Show a thing, in place of whatever is drawn under its identifier. -/
def present (p : Presenter) (now : Nat) (kind : Kind) (id : EntityId) (f : Figure)
    (enter : Transition) : Presenter × Nat :=
  let (p, _) := p.discard now id
  let (p, handle) := p.instruct now kind id none (.create f enter)
  -- A new incarnation makes the tickets of former exits void.
  let incarnation := p.incarnations + 1
  ({ p with
      incarnations := incarnation
      live := p.live.insert id ⟨kind, handle, incarnation, false⟩ }, handle)

/-- Pass an instruction on for a thing that stays; the second component tells whether it does. -/
def apply (p : Presenter) (now : Nat) (id : EntityId) (i : Instruction) : Presenter × Bool :=
  match p.staying? id with
  | some l =>
    let (p, handle) := p.instruct now l.kind id (some l.handle) i
    ({ p with live := p.live.insert id { l with handle } }, true)
  | none => (p, false)

/-- Draw another figure for a thing. -/
def refresh (p : Presenter) (now : Nat) (id : EntityId) (f : Figure) (t : Transition) :
    Presenter × Bool :=
  p.apply now id (.update f t)

/-- Take the figure of a thing to another place. -/
def move (p : Presenter) (now : Nat) (id : EntityId) (destination : Point) (t : Transition) :
    Presenter × Bool :=
  p.apply now id (.move destination t)

/-- Let a thing go. There is a ticket unless it is not drawn or on its way out already. -/
def beginExit (p : Presenter) (now : Nat) (id : EntityId) (t : Transition) :
    Presenter × Option Ticket :=
  match p.staying? id with
  | some l =>
    let (p, handle) := p.instruct now l.kind id (some l.handle) (.exit t)
    ({ p with live := p.live.insert id { l with handle, exiting := true } },
      some ⟨id, l.incarnation⟩)
  | none => (p, none)

/-- Finish an exit. Nothing happens when the thing was shown again since the ticket was issued, or
    is gone; the second component tells. -/
def finishExit (p : Presenter) (now : Nat) (t : Ticket) : Presenter × Bool :=
  match p.live.find? t.id with
  | some l => if l.incarnation = t.incarnation then p.discard now t.id else (p, false)
  | none => (p, false)

/-- Take everything away and forget it. Incarnations and handles go on counting. -/
def reset (p : Presenter) (now : Nat) : Presenter :=
  { p with live := ∅, canvas := p.canvas.clear, journal := .cleared now :: p.journal }

end Presenter

end Storyboard
