import Mathlib.Data.List.Basic
import Storyboard.Proofs.Drawing.Sight

/-! # The record of a canvas

    The journal tells everything that the canvas was told, and so the whole
    life of every item. A record is well kept (`Recorded`) if each entry goes
    on from the earlier ones: an item that is created has a handle that was
    never used, and every other instruction is for an item that is there.

    Then every item was created, changed for a while, let go at most once and
    taken away at most once (`Orderly`). Every operation of a presenter keeps
    its record so. -/

namespace Storyboard

/-! ### Lives of items -/

namespace Instruction

/-- The instruction leaves the item where it is drawn, with another figure or at another place. -/
def Alters : Instruction → Prop
  | .update .. => True
  | .move .. => True
  | _ => False

/-- What an item was told that is still there: it was created and then altered, and let go if it
    is on its way out. -/
def Standing (exiting : Bool) (life : List Instruction) : Prop :=
  ∃ f enter changes, (∀ i ∈ changes, i.Alters) ∧
    if exiting then ∃ t, life = .create f enter :: (changes ++ [.exit t])
    else life = .create f enter :: changes

/-- What an item may be told in its whole life. -/
def Orderly (life : List Instruction) : Prop :=
  life = [] ∨ ∃ exiting stand, Standing exiting stand ∧ (life = stand ∨ life = stand ++ [.discard])

variable {life : List Instruction} {i : Instruction}

theorem standing_create (f : Figure) (enter : Transition) :
    Standing false [.create f enter] :=
  ⟨f, enter, [], fun _ hi => absurd hi List.not_mem_nil, rfl⟩

theorem Standing.alter (h : Standing false life) (hi : i.Alters) : Standing false (life ++ [i]) := by
  obtain ⟨f, enter, changes, hchanges, hlife⟩ := h
  have heq : life = .create f enter :: changes := hlife
  refine ⟨f, enter, changes ++ [i], ?_, ?_⟩
  · intro j hj
    rcases List.mem_append.1 hj with hj | hj
    · exact hchanges j hj
    · rw [List.mem_singleton.1 hj]
      exact hi
  · show life ++ [i] = _
    rw [heq, List.cons_append]

theorem Standing.exit (h : Standing false life) (t : Transition) :
    Standing true (life ++ [.exit t]) := by
  obtain ⟨f, enter, changes, hchanges, hlife⟩ := h
  have heq : life = .create f enter :: changes := hlife
  refine ⟨f, enter, changes, hchanges, t, ?_⟩
  rw [heq, List.cons_append]

theorem Standing.orderly {exiting : Bool} (h : Standing exiting life) : Orderly life :=
  .inr ⟨exiting, life, h, .inl rfl⟩

theorem Standing.discard {exiting : Bool} (h : Standing exiting life) :
    Orderly (life ++ [.discard]) :=
  .inr ⟨exiting, life, h, .inr rfl⟩

end Instruction

open Instruction

/-- The instruction that an entry has for the item with a handle. -/
def JournalEntry.for? (h : Nat) : JournalEntry → Option Instruction
  | .performed _ _ _ _ i handle => if handle = h then some i else none
  | .cleared _ => none

namespace Canvas

/-- Do what an entry says. -/
def follow (c : Canvas) : JournalEntry → Canvas
  | .performed now k id target i _ => (c.perform now k id target i).1
  | .cleared _ => c.clear

/-- The canvas that was told a record, the latest entry first. -/
def ofRecord (record : List JournalEntry) : Canvas := record.foldr (fun e c => c.follow e) blank

/-- What the item with a handle was told, in the order in which it was. -/
def life (record : List JournalEntry) (h : Nat) : List Instruction :=
  (record.filterMap (·.for? h)).reverse

variable {record earlier : List JournalEntry} {e : JournalEntry} {h : Nat}

@[simp] theorem ofRecord_cons : ofRecord (e :: record) = (ofRecord record).follow e := rfl

@[simp] theorem life_nil : life [] h = [] := rfl

@[simp] theorem life_cons : life (e :: record) h = life record h ++ (e.for? h).toList := by
  unfold life
  rw [List.filterMap_cons]
  cases e.for? h <;> simp

variable {now : Nat} {kind : Kind} {id : EntityId} {target : Option Nat} {i : Instruction}

theorem life_performed_self : life (.performed now kind id target i h :: record) h =
    life record h ++ [i] := by
  simp [JournalEntry.for?]

theorem life_performed_ne {handle : Nat} (hne : h ≠ handle) :
    life (.performed now kind id target i handle :: record) h = life record h := by
  simp [JournalEntry.for?, hne.symm]

end Canvas

open Canvas

/-- The entry goes on from the earlier ones. -/
def JournalEntry.Continues (earlier : List JournalEntry) : JournalEntry → Prop
  | .performed _ _ _ target (.create ..) handle => target = none ∧ life earlier handle = []
  | .performed _ k id target _ handle => target = some handle ∧
    ∃ i, (ofRecord earlier).items.find? handle = some i ∧ i.kind = k ∧ i.id = id
  | .cleared _ => True

/-- Every entry goes on from those before it. -/
def Canvas.WellKept (record : List JournalEntry) : Prop :=
  ∀ e earlier, e :: earlier <:+ record → e.Continues earlier

theorem Canvas.WellKept.cons {record : List JournalEntry} {e : JournalEntry} (h : WellKept record)
    (he : e.Continues record) : WellKept (e :: record) := by
  intro e' earlier hsuffix
  rcases List.suffix_cons_iff.1 hsuffix with heq | hsuffix
  · obtain ⟨rfl, rfl⟩ := List.cons.inj heq
    exact he
  · exact h e' earlier hsuffix

namespace Presenter

/-! ### Records that are well kept -/

/-- What the journal says, together with what was read off it before, is what became of the
    canvas. -/
structure Recorded (p : Presenter) (past : List JournalEntry) : Prop where
  canvas   : p.canvas = ofRecord (p.journal ++ past)
  kept     : WellKept (p.journal ++ past)
  standing : ∀ id l, p.live.find? id = some l →
    Standing l.exiting (life (p.journal ++ past) l.handle)
  unused   : ∀ h, p.canvas.last < h → life (p.journal ++ past) h = []
  orderly  : ∀ h, Orderly (life (p.journal ++ past) h)

variable {p q : Presenter} {past : List JournalEntry} {id : EntityId} {l : Live} {now : Nat}

theorem recorded_fresh : fresh.Recorded [] := by
  refine ⟨rfl, ?_, ?_, fun h _ => rfl, fun h => .inl rfl⟩
  · intro e earlier hsuffix
    have hnil := List.suffix_nil.1 hsuffix
    cases hnil
  · intro id l hl
    cases hl

/-- What is read off the journal is still part of the record. -/
theorem Recorded.readJournal (h : p.Recorded past) :
    Recorded { p with journal := [] } (p.journal ++ past) :=
  ⟨h.canvas, h.kept, h.standing, h.unused, h.orderly⟩

theorem Recorded.reset (h : p.Recorded past) (now : Nat) : (p.reset now).Recorded past := by
  have hlife : ∀ handle, life ((p.reset now).journal ++ past) handle =
      life (p.journal ++ past) handle := by
    intro handle
    show life (.cleared now :: (p.journal ++ past)) handle = _
    simp [JournalEntry.for?]
  refine ⟨?_, h.kept.cons trivial, ?_, ?_, ?_⟩
  · show p.canvas.clear = (ofRecord (p.journal ++ past)).clear
    rw [h.canvas]
  · intro id l hl
    cases hl
  · intro handle hlt
    rw [hlife]
    exact h.unused handle hlt
  · intro handle
    rw [hlife]
    exact h.orderly handle

/-- An instruction for a thing that is live goes on from the record. What is left to show is about
    its own item; all other items were told nothing. -/
theorem Recorded.instructed (h : p.Recorded past) (hp : p.Sound)
    (hl : p.live.find? id = some l) (now : Nat) (i : Instruction) (hi : ∀ f enter, i ≠ .create f enter)
    (hcanvas : q.canvas = (p.canvas.perform now l.kind id (some l.handle) i).1)
    (hlast : q.canvas.last = p.canvas.last)
    (hjournal : q.journal = .performed now l.kind id (some l.handle) i l.handle :: p.journal)
    (hlive : ∀ j, j ≠ id → q.live.find? j = p.live.find? j)
    (hown : ∀ l', q.live.find? id = some l' → l'.handle = l.handle ∧
      Standing l'.exiting (life (p.journal ++ past) l.handle ++ [i]))
    (horderly : Orderly (life (p.journal ++ past) l.handle ++ [i])) :
    q.Recorded past := by
  obtain ⟨item, hitem, hid, hkind⟩ := hp.drawn id l hl
  have hle : l.handle ≤ p.canvas.last := hp.counted _ _ hitem
  have hrecord : q.journal ++ past =
      .performed now l.kind id (some l.handle) i l.handle :: (p.journal ++ past) := by
    rw [hjournal, List.cons_append]
  have hlifeown : life (q.journal ++ past) l.handle = life (p.journal ++ past) l.handle ++ [i] := by
    rw [hrecord, life_performed_self]
  have hother : ∀ handle, handle ≠ l.handle →
      life (q.journal ++ past) handle = life (p.journal ++ past) handle := by
    intro handle hne
    rw [hrecord, life_performed_ne hne]
  -- The record grows by one line, and that line is about the item of the thing. The facts about
  -- the other items are those of before.
  refine ⟨?_, ?_, ?_, ?_, ?_⟩
  · rw [hcanvas, hrecord, ofRecord_cons, h.canvas]
    rfl
  · rw [hrecord]
    refine h.kept.cons ?_
    rw [h.canvas] at hitem
    cases i with
    | create f enter => exact absurd rfl (hi f enter)
    | _ => exact ⟨rfl, item, hitem, hkind, hid⟩
  · intro j l' hl'
    by_cases hj : j = id
    · subst hj
      obtain ⟨hhandle, hstanding⟩ := hown l' hl'
      rw [hhandle, hlifeown]
      exact hstanding
    · rw [hlive j hj] at hl'
      rw [hother _ (hp.handle_ne hl hl' hj)]
      exact h.standing j l' hl'
  · intro handle hlt
    rw [hother handle (by omega)]
    exact h.unused handle (by omega)
  · intro handle
    by_cases hhandle : handle = l.handle
    · rw [hhandle, hlifeown]
      exact horderly
    · rw [hother handle hhandle]
      exact h.orderly handle

/-- A new item has a handle that was never used, and is the item of the thing that is shown. -/
theorem Recorded.added (h : p.Recorded past) (hp : p.Sound) (now : Nat) (kind : Kind)
    (f : Figure) (enter : Transition) {incarnation : Nat}
    (hcanvas : q.canvas = (p.canvas.add now kind id f enter).1)
    (hjournal : q.journal = .performed now kind id none (.create f enter) (p.canvas.last + 1) ::
      p.journal)
    (hlive : q.live = p.live.insert id ⟨kind, p.canvas.last + 1, incarnation, false⟩) :
    q.Recorded past := by
  have hrecord : q.journal ++ past = .performed now kind id none (.create f enter)
      (p.canvas.last + 1) :: (p.journal ++ past) := by
    rw [hjournal, List.cons_append]
  have hlast : q.canvas.last = p.canvas.last + 1 := by
    rw [hcanvas]
    rfl
  have hunused : life (p.journal ++ past) (p.canvas.last + 1) = [] :=
    h.unused _ (Nat.lt_succ_self _)
  have hlifenew : life (q.journal ++ past) (p.canvas.last + 1) = [.create f enter] := by
    rw [hrecord, life_performed_self, hunused, List.nil_append]
  have hother : ∀ handle, handle ≠ p.canvas.last + 1 →
      life (q.journal ++ past) handle = life (p.journal ++ past) handle := by
    intro handle hne
    rw [hrecord, life_performed_ne hne]
  refine ⟨?_, ?_, ?_, ?_, ?_⟩
  · rw [hcanvas, hrecord, ofRecord_cons, ← h.canvas]
    rfl
  · rw [hrecord]
    exact h.kept.cons ⟨rfl, hunused⟩
  · intro j l' hl'
    rw [hlive, Table.find?_insert] at hl'
    by_cases hj : j = id
    · rw [if_pos hj] at hl'
      obtain rfl := Option.some.inj hl'
      show Standing false (life (q.journal ++ past) (p.canvas.last + 1))
      rw [hlifenew]
      exact standing_create f enter
    · rw [if_neg hj] at hl'
      -- All other items were given their handles before.
      obtain ⟨item, hitem, _, _⟩ := hp.drawn j l' hl'
      have hle := hp.counted _ _ hitem
      rw [hother _ (by omega)]
      exact h.standing j l' hl'
  · intro handle hlt
    rw [hlast] at hlt
    rw [hother handle (by omega)]
    exact h.unused handle (by omega)
  · intro handle
    by_cases hhandle : handle = p.canvas.last + 1
    · rw [hhandle, hlifenew]
      exact (standing_create f enter).orderly
    · rw [hother handle hhandle]
      exact h.orderly handle

/-! ### Operations -/

theorem Recorded.discard (hp : p.Sound) (h : p.Recorded past) (now : Nat) (id : EntityId) :
    (p.discard now id).1.Recorded past := by
  unfold Presenter.discard
  cases hl : p.live.find? id with
  | none => exact h
  | some l =>
    obtain ⟨item, hitem, _, _⟩ := hp.drawn id l hl
    have hperform : p.canvas.perform now l.kind id (some l.handle) .discard = _ :=
      perform_live hitem .discard
    simp only [instruct, hperform]
    refine h.instructed hp hl now .discard ?_ ?_ rfl rfl ?_ ?_ ?_
    · intro f enter heq
      cases heq
    · rw [hperform]
    · intro j hj
      exact (Table.find?_erase ..).trans (if_neg hj)
    · intro l' hl'
      have hnone : (p.live.erase id).find? id = none := (Table.find?_erase ..).trans (if_pos rfl)
      rw [hnone] at hl'
      cases hl'
    · exact (h.standing id l hl).discard

theorem Recorded.present (hp : p.Sound) (h : p.Recorded past) (now : Nat) (kind : Kind)
    (id : EntityId) (f : Figure) (enter : Transition) :
    (p.present now kind id f enter).1.Recorded past := by
  have hd := h.discard hp now id
  have hsound := (sound_discard hp now id).1
  exact hd.added hsound now kind f enter rfl rfl rfl

/-- What is live once a thing is told something: the thing as it is now, and all others. -/
theorem find?_insert_live (live : Table EntityId Live) (id : EntityId) (l : Live) :
    (∀ j, j ≠ id → (live.insert id l).find? j = live.find? j) ∧
      ∀ l', (live.insert id l).find? id = some l' → l' = l := by
  refine ⟨fun j hj => (Table.find?_insert ..).trans (if_neg hj), fun l' hl' => ?_⟩
  rw [Table.find?_insert, if_pos rfl] at hl'
  exact (Option.some.inj hl').symm

theorem Recorded.apply (hp : p.Sound) (h : p.Recorded past) (now : Nat) (id : EntityId)
    {i : Instruction} (hi : i.Alters) : (p.apply now id i).1.Recorded past := by
  unfold Presenter.apply
  cases hstays : p.staying? id with
  | none =>
    -- What is not live, and what leaves already, is told nothing.
    exact h
  | some l =>
    -- What stays is redrawn or moved in its item, and no new item is made for it.
    obtain ⟨hl, hx⟩ := staying?_eq_some hstays
    obtain ⟨item, hitem, _, _⟩ := hp.drawn id l hl
    have hresult : (p.canvas.perform now l.kind id (some l.handle) i).2 = l.handle ∧
        (p.canvas.perform now l.kind id (some l.handle) i).1.last = p.canvas.last := by
      rw [perform_live hitem]
      cases i with
      | update f t => exact ⟨rfl, rfl⟩
      | move d t => exact ⟨rfl, rfl⟩
      | _ => exact hi.elim
    have hstanding := h.standing id l hl
    rw [hx] at hstanding
    simp only [instruct, hresult.1]
    obtain ⟨hothers, hown⟩ := find?_insert_live p.live id { l with handle := l.handle }
    refine h.instructed hp hl now i ?_ rfl hresult.2 rfl hothers ?_ (hstanding.alter hi).orderly
    · rintro f enter rfl
      exact hi
    · intro l' hl'
      rw [hown l' hl']
      refine ⟨rfl, ?_⟩
      show Standing l.exiting _
      rw [hx]
      exact hstanding.alter hi

theorem Recorded.beginExit (hp : p.Sound) (h : p.Recorded past) (now : Nat) (id : EntityId)
    (t : Transition) : (p.beginExit now id t).1.Recorded past := by
  unfold Presenter.beginExit
  cases hstays : p.staying? id with
  | none => exact h
  | some l =>
    -- The exit is told to the item that the thing has, which stands until it is discarded.
    obtain ⟨hl, hx⟩ := staying?_eq_some hstays
    obtain ⟨item, hitem, _, _⟩ := hp.drawn id l hl
    have hperform : p.canvas.perform now l.kind id (some l.handle) (.exit t) = _ :=
      perform_live hitem (.exit t)
    have hstanding := h.standing id l hl
    rw [hx] at hstanding
    simp only [instruct, hperform]
    obtain ⟨hothers, hown⟩ := find?_insert_live p.live id
      { l with handle := l.handle, exiting := true }
    refine h.instructed hp hl now (.exit t) (by rintro f enter ⟨⟩) ?_ rfl rfl hothers ?_
      (hstanding.exit t).orderly
    · rw [hperform]
    · intro l' hl'
      rw [hown l' hl']
      exact ⟨rfl, hstanding.exit t⟩

theorem Recorded.finishExit (hp : p.Sound) (h : p.Recorded past) (now : Nat) (t : Ticket) :
    (p.finishExit now t).1.Recorded past := by
  unfold Presenter.finishExit
  cases p.live.find? t.id with
  | none => exact h
  | some l =>
    show Recorded (if l.incarnation = t.incarnation then p.discard now t.id else (p, false)).1 past
    by_cases hincarnation : l.incarnation = t.incarnation
    · rw [if_pos hincarnation]
      exact h.discard hp now t.id
    · rw [if_neg hincarnation]
      exact h

end Presenter

end Storyboard
