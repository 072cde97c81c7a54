import Storyboard.Proofs.Shift.Basic

/-! # Shifted presenters

    A presenter that was used before goes on like a fresh one, only that its
    handles and incarnations are higher and its journal is longer. -/

namespace Storyboard

variable {σ : Shift} {now : Nat}

/-! ### Items -/

namespace Stamp

/-- A transition that started later. -/
def shift (σ : Shift) (s : Stamp) : Stamp := { s with since := s.since + σ.time }

@[simp] theorem start?_shift (t : Transition) :
    start? t (now + σ.time) = (start? t now).map (shift σ) := by
  unfold start?
  split <;> rfl

@[simp] theorem elapsed_shift (s : Stamp) :
    (s.shift σ).elapsed (now + σ.time) = s.elapsed now :=
  congrArg Span.ofMillis (Nat.add_sub_add_right ..)

end Stamp

namespace Item

/-- An item whose transitions started later. -/
def shift (σ : Shift) (i : Item) : Item :=
  { i with
    appear := i.appear.map (Stamp.shift σ)
    motion := i.motion.map (Stamp.shift σ)
    exit := i.exit.map (Stamp.shift σ) }

@[simp] theorem originAt_shift (i : Item) :
    (i.shift σ).originAt (now + σ.time) = i.originAt now := by
  cases h : i.motion with
  | none => simp [originAt, shift, h]
  | some s => simp [originAt, shift, h, show (s.shift σ).transition = s.transition from rfl]

end Item

/-! ### The canvas -/

namespace Canvas

/-- A canvas on which so many items were drawn before. -/
def shift (σ : Shift) (c : Canvas) : Canvas :=
  ⟨c.items.later σ.handle (Item.shift σ), c.last + σ.handle⟩

theorem redraw_shift (f : Figure) (t : Transition) (i : Item) :
    redraw (now + σ.time) f t (i.shift σ) = (redraw now f t i).shift σ := by
  cases h : Stamp.start? t now <;> simp [redraw, Item.shift, h]

theorem relocate_shift (destination : Point) (t : Transition) (i : Item) :
    relocate (now + σ.time) destination t (i.shift σ) = (relocate now destination t i).shift σ := by
  unfold relocate
  rw [Item.originAt_shift, Stamp.start?_shift]
  rfl

theorem leave_shift (t : Transition) (i : Item) :
    leave (now + σ.time) t (i.shift σ) = (leave now t i).shift σ := by
  cases h : Stamp.start? t now <;> simp [leave, Item.shift, h]

theorem add_shift (c : Canvas) (kind : Kind) (id : EntityId) (f : Figure) (enter : Transition) :
    (c.shift σ).add (now + σ.time) kind id f enter =
      ((c.add now kind id f enter).1.shift σ, (c.add now kind id f enter).2 + σ.handle) := by
  have hitem : (⟨kind, id, f, Stamp.start? enter (now + σ.time), none, none⟩ : Item) =
      Item.shift σ ⟨kind, id, f, Stamp.start? enter now, none, none⟩ := by
    simp [Item.shift]
  have hlast : c.last + σ.handle + 1 = c.last + 1 + σ.handle := Nat.add_right_comm ..
  simp only [add, shift, hitem, hlast]
  rw [Table.insert_later]

theorem change_shift {handle : Nat} {f f' : Item → Item}
    (h : ∀ i, f' (i.shift σ) = (f i).shift σ) (c : Canvas) :
    (c.shift σ).change (handle + σ.handle) f' = (c.change handle f).shift σ := by
  simp only [change, shift]
  rw [Table.modify_later h]

/-- An instruction about something that has a handle. -/
theorem perform_shift (c : Canvas) (kind : Kind) (id : EntityId) (handle : Nat) (i : Instruction) :
    (c.shift σ).perform (now + σ.time) kind id (some (handle + σ.handle)) i =
      ((c.perform now kind id (some handle) i).1.shift σ,
        (c.perform now kind id (some handle) i).2 + σ.handle) := by
  have hheld : (c.shift σ).items.contains (handle + σ.handle) = c.items.contains handle :=
    Table.contains_later
  unfold perform
  -- An item is held under the handle on both canvases or on neither.
  cases h : c.items.contains handle with
  | false =>
    rw [h] at hheld
    cases i with
    | create f enter => exact add_shift c kind id f enter
    | update f t => simp [Option.filter, h, hheld, add_shift]
    | _ => simp [Option.filter, h, hheld]
  | true =>
    rw [h] at hheld
    cases i with
    | create f enter => exact add_shift c kind id f enter
    | update f t => simp [Option.filter, h, hheld, change_shift (redraw_shift f t)]
    | move d t => simp [Option.filter, h, hheld, change_shift (relocate_shift d t)]
    | exit t => simp [Option.filter, h, hheld, change_shift (leave_shift t)]
    | discard =>
      simp only [Option.filter, h, hheld, if_true]
      exact congrArg (fun items => (Canvas.mk items _, _)) Table.erase_later

/-- What is new is drawn under the next handle. -/
theorem perform_create_shift (c : Canvas) (kind : Kind) (id : EntityId) (f : Figure)
    (enter : Transition) :
    (c.shift σ).perform (now + σ.time) kind id none (.create f enter) =
      ((c.perform now kind id none (.create f enter)).1.shift σ,
        (c.perform now kind id none (.create f enter)).2 + σ.handle) := add_shift ..

/-- The items lie above one another in the same order. -/
theorem stacked_shift (c : Canvas) : (c.shift σ).stacked = c.stacked.map (Item.shift σ) := by
  have hlayer : ∀ l, (c.shift σ).inLayer l = (c.inLayer l).map (Item.shift σ) := by
    intro l
    rw [inLayer, shift, Table.values_later, List.filter_map]
    rfl
  simp only [stacked, hlayer, List.map_append]

end Canvas

/-! ### The presenter -/

/-- How a thing is drawn, under a higher handle. -/
def Live.shift (σ : Shift) (l : Live) : Live :=
  { l with handle := l.handle + σ.handle, incarnation := l.incarnation + σ.incarnation }

/-- The right to finish a later exit. -/
def Ticket.shift (σ : Shift) (t : Ticket) : Ticket :=
  { t with incarnation := t.incarnation + σ.incarnation }

/-- The same entry, made later. -/
def JournalEntry.shift (σ : Shift) : JournalEntry → JournalEntry
  | .performed time kind id target i handle =>
    .performed (time + σ.time) kind id (target.map (· + σ.handle)) i (handle + σ.handle)
  | .cleared time => .cleared (time + σ.time)

namespace Presenter

/-- A presenter that was used before. -/
def shift (σ : Shift) (p : Presenter) : Presenter where
  canvas := p.canvas.shift σ
  live := p.live.mapValues (Live.shift σ)
  incarnations := p.incarnations + σ.incarnation
  journal := p.journal.map (JournalEntry.shift σ) ++ σ.journal

variable (p : Presenter) (kind : Kind) (id : EntityId)

theorem live_shift : (p.shift σ).live.find? id = (p.live.find? id).map (Live.shift σ) :=
  Table.find?_mapValues

@[simp] theorem shows_shift : (p.shift σ).shows id = p.shows id := Table.contains_mapValues

theorem staying?_shift : (p.shift σ).staying? id = (p.staying? id).map (Live.shift σ) := by
  unfold staying?
  rw [live_shift]
  cases h : p.live.find? id with
  | none => rfl
  | some l => cases hx : l.exiting <;> simp [Option.filter, Live.shift, hx]

/-- What is live under an identifier changes in the same way. -/
theorem insert_live_shift (kind : Kind) (handle incarnation incarnations : Nat) (exiting : Bool) :
    ({ p.shift σ with
        incarnations := incarnations + σ.incarnation
        live := (p.shift σ).live.insert id
          ⟨kind, handle + σ.handle, incarnation + σ.incarnation, exiting⟩ } : Presenter) =
      shift σ { p with
        incarnations
        live := p.live.insert id ⟨kind, handle, incarnation, exiting⟩ } := by
  simp only [shift, ← Table.insert_mapValues]
  rfl

theorem instruct_shift (handle : Nat) (i : Instruction) :
    (p.shift σ).instruct (now + σ.time) kind id (some (handle + σ.handle)) i =
      ((p.instruct now kind id (some handle) i).1.shift σ,
        (p.instruct now kind id (some handle) i).2 + σ.handle) := by
  simp only [instruct, shift, Canvas.perform_shift]
  rfl

theorem instruct_create_shift (f : Figure) (enter : Transition) :
    (p.shift σ).instruct (now + σ.time) kind id none (.create f enter) =
      ((p.instruct now kind id none (.create f enter)).1.shift σ,
        (p.instruct now kind id none (.create f enter)).2 + σ.handle) := by
  simp only [instruct, shift, Canvas.perform_create_shift]
  rfl

theorem discard_shift : (p.shift σ).discard (now + σ.time) id =
    ((p.discard now id).1.shift σ, (p.discard now id).2) := by
  unfold discard
  rw [live_shift]
  cases p.live.find? id with
  | none => rfl
  | some l =>
    simp only [Option.map_some, Live.shift, instruct_shift]
    simp only [shift, Table.erase_mapValues]

theorem present_shift (f : Figure) (enter : Transition) :
    (p.shift σ).present (now + σ.time) kind id f enter =
      ((p.present now kind id f enter).1.shift σ,
        (p.present now kind id f enter).2 + σ.handle) := by
  unfold present
  simp only [discard_shift, instruct_create_shift]
  rw [← insert_live_shift]
  simp only [shift, Nat.add_right_comm _ σ.incarnation 1]

theorem apply_shift (i : Instruction) : (p.shift σ).apply (now + σ.time) id i =
    ((p.apply now id i).1.shift σ, (p.apply now id i).2) := by
  unfold apply
  rw [staying?_shift]
  cases p.staying? id with
  | none => rfl
  | some l =>
    simp only [Option.map_some, Live.shift, instruct_shift]
    rw [← insert_live_shift]
    rfl

theorem beginExit_shift (t : Transition) : (p.shift σ).beginExit (now + σ.time) id t =
    ((p.beginExit now id t).1.shift σ, (p.beginExit now id t).2.map (Ticket.shift σ)) := by
  unfold beginExit
  rw [staying?_shift]
  cases p.staying? id with
  | none => rfl
  | some l =>
    simp only [Option.map_some, Live.shift, instruct_shift]
    rw [← insert_live_shift]
    rfl

theorem finishExit_shift (t : Ticket) : (p.shift σ).finishExit (now + σ.time) (t.shift σ) =
    ((p.finishExit now t).1.shift σ, (p.finishExit now t).2) := by
  unfold finishExit
  rw [show (t.shift σ).id = t.id from rfl, live_shift]
  cases p.live.find? t.id with
  | none => rfl
  | some l =>
    simp only [Option.map_some, Live.shift, Ticket.shift, Nat.add_right_cancel_iff]
    split
    · exact discard_shift p t.id
    · rfl

end Presenter

end Storyboard
