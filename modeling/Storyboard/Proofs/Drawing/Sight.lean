import Storyboard.Drawing.Presenter
import Storyboard.Proofs.Data.Lookup

/-! # What is seen of a thing

    The presenter keeps who is drawn under which handle, the canvas what is
    drawn under it. `sight?` joins the two: the kind, the incarnation and the
    figure under which a thing is seen. As long as the two agree (`Sound`),
    every operation of the presenter is an equation about `sight?`, and handles
    need not be looked at any more. -/

namespace Storyboard

/-- How a thing is seen. -/
structure Sight where
  kind        : Kind
  incarnation : Nat
  exiting     : Bool
  figure      : Figure

namespace Sight

/-- Another figure is drawn, unless the thing is on its way out. -/
def redrawn (f : Figure) (v : Sight) : Sight := if v.exiting then v else { v with figure := f }

/-- The figure is taken elsewhere, unless the thing is on its way out. -/
def relocated (destination : Point) (v : Sight) : Sight :=
  if v.exiting then v else { v with figure := { v.figure with origin := destination } }

/-- Everything but the figure. -/
def status (v : Sight) : Kind × Nat × Bool := (v.kind, v.incarnation, v.exiting)

@[simp] theorem status_redrawn (f : Figure) (v : Sight) : (v.redrawn f).status = v.status := by
  unfold redrawn
  split <;> rfl

@[simp] theorem status_relocated (destination : Point) (v : Sight) :
    (v.relocated destination).status = v.status := by
  unfold relocated
  split <;> rfl

theorem status_eq_iff {v w : Sight} : v.status = w.status ↔
    v.kind = w.kind ∧ v.incarnation = w.incarnation ∧ v.exiting = w.exiting := by
  simp [status]

end Sight

namespace Presenter

/-- How a thing is seen, if it is drawn. -/
def sight? (p : Presenter) (id : EntityId) : Option Sight :=
  (p.live.find? id).bind fun l =>
    (p.canvas.items.find? l.handle).map fun i => ⟨l.kind, l.incarnation, l.exiting, i.figure⟩

/-- The presenter and its canvas agree. -/
structure Sound (p : Presenter) : Prop where
  /-- Every thing that is live has an item of its own. -/
  drawn : ∀ id l, p.live.find? id = some l →
    ∃ i, p.canvas.items.find? l.handle = some i ∧ i.id = id ∧ i.kind = l.kind
  /-- Every item is that of a live thing. -/
  owned : ∀ h i, p.canvas.items.find? h = some i →
    ∃ l, p.live.find? i.id = some l ∧ l.handle = h
  /-- Handles are given in their order. -/
  counted : ∀ h i, p.canvas.items.find? h = some i → h ≤ p.canvas.last
  /-- And so are incarnations. -/
  numbered : ∀ id l, p.live.find? id = some l → l.incarnation ≤ p.incarnations

variable {p : Presenter} {id j : EntityId} {l : Live} {v : Sight} {now : Nat}

/-! ### What is seen is what is live -/

/-- Where nothing is live and nothing is drawn, there is nothing to agree on. -/
theorem sound_of_empty (hlive : p.live = .empty) (hitems : p.canvas.items = .empty) :
    p.Sound := by
  refine ⟨?_, ?_, ?_, ?_⟩
  · intro id l h
    rw [hlive] at h
    cases h
  · intro h i hi
    rw [hitems] at hi
    cases hi
  · intro h i hi
    rw [hitems] at hi
    cases hi
  · intro id l h
    rw [hlive] at h
    cases h

@[simp] theorem sight?_fresh : fresh.sight? id = none := rfl

theorem sight?_eq_some (h : p.sight? id = some v) :
    ∃ l i, p.live.find? id = some l ∧ p.canvas.items.find? l.handle = some i ∧
      v = ⟨l.kind, l.incarnation, l.exiting, i.figure⟩ := by
  obtain ⟨l, hl, h⟩ := Option.bind_eq_some_iff.1 h
  obtain ⟨i, hi, rfl⟩ := Option.map_eq_some_iff.1 h
  exact ⟨l, i, hl, hi, rfl⟩

theorem sight?_of_live {i : Item} (hl : p.live.find? id = some l)
    (hi : p.canvas.items.find? l.handle = some i) :
    p.sight? id = some ⟨l.kind, l.incarnation, l.exiting, i.figure⟩ := by
  simp [sight?, hl, hi]

theorem sight?_eq_none_of_live (h : p.live.find? id = none) : p.sight? id = none := by
  simp [sight?, h]

/-- What is seen of a thing depends on its own item only. -/
theorem sight?_congr {q : Presenter} (hlive : q.live.find? j = p.live.find? j)
    (hitem : ∀ l, p.live.find? j = some l →
      q.canvas.items.find? l.handle = p.canvas.items.find? l.handle) :
    q.sight? j = p.sight? j := by
  unfold sight?
  rw [hlive]
  cases h : p.live.find? j with
  | none => rfl
  | some l => simp [hitem l h]

theorem Sound.live_eq_none (hp : p.Sound) (h : p.sight? id = none) : p.live.find? id = none := by
  cases hl : p.live.find? id with
  | none => rfl
  | some l =>
    obtain ⟨i, hi, _, _⟩ := hp.drawn id l hl
    rw [sight?_of_live hl hi] at h
    cases h

theorem Sound.shows_iff (hp : p.Sound) : p.shows id = true ↔ ∃ v, p.sight? id = some v := by
  rw [shows, Table.contains_iff]
  constructor
  · rintro ⟨l, hl⟩
    obtain ⟨i, hi, _, _⟩ := hp.drawn id l hl
    exact ⟨_, sight?_of_live hl hi⟩
  · rintro ⟨v, hv⟩
    obtain ⟨l, _, hl, _, _⟩ := sight?_eq_some hv
    exact ⟨l, hl⟩

theorem Sound.isExiting_iff (hp : p.Sound) :
    p.isExiting id = true ↔ ∃ v, p.sight? id = some v ∧ v.exiting = true := by
  unfold isExiting
  cases hl : p.live.find? id with
  | none => simp [sight?_eq_none_of_live hl]
  | some l =>
    obtain ⟨i, hi, _, _⟩ := hp.drawn id l hl
    simp [sight?_of_live hl hi]

theorem isExiting_congr {q : Presenter} (hp : p.Sound) (hq : q.Sound)
    (h : (q.sight? id).map Sight.status = (p.sight? id).map Sight.status) :
    q.isExiting id = p.isExiting id := by
  have hsome : ∀ o : Option Sight, (∃ v, o = some v ∧ v.exiting = true) ↔
      (o.map Sight.status).map (·.2.2) = some true := by
    intro o
    rw [Option.map_map, Option.map_eq_some_iff]
    rfl
  rw [Bool.eq_iff_iff, hq.isExiting_iff, hp.isExiting_iff, hsome, hsome, h]

theorem Sound.incarnation_le (hp : p.Sound) (h : p.sight? id = some v) :
    v.incarnation ≤ p.incarnations := by
  obtain ⟨l, i, hl, _, rfl⟩ := sight?_eq_some h
  exact hp.numbered id l hl

/-- Different things are drawn under different handles. -/
theorem Sound.handle_ne (hp : p.Sound) {l' : Live} (hl : p.live.find? id = some l)
    (hl' : p.live.find? j = some l') (hne : j ≠ id) : l'.handle ≠ l.handle := by
  intro heq
  obtain ⟨i, hi, hid, _⟩ := hp.drawn id l hl
  obtain ⟨i', hi', hid', _⟩ := hp.drawn j l' hl'
  rw [heq, hi] at hi'
  exact hne (by rw [← hid', ← Option.some.inj hi', hid])

theorem staying?_of_live (h : p.live.find? id = some l) :
    p.staying? id = if l.exiting then none else some l := by
  cases hx : l.exiting <;> simp [staying?, h, Option.filter, hx]

theorem staying?_of_none (h : p.live.find? id = none) : p.staying? id = none := by
  simp [staying?, h]

theorem staying?_eq_some (h : p.staying? id = some l) :
    p.live.find? id = some l ∧ l.exiting = false := by
  obtain ⟨hl, hx⟩ := Option.filter_eq_some_iff.1 h
  exact ⟨hl, by simpa using hx⟩

/-! ### One item is taken away or changed -/

/-- The canvas follows an instruction about a live thing on the item that the thing has. -/
theorem perform_live {c : Canvas} {kind : Kind} {h : Nat} {i : Item}
    (hi : c.items.find? h = some i) (instruction : Instruction) :
    c.perform now kind id (some h) instruction =
      match instruction with
      | .create f enter => c.add now kind id f enter
      | .update f t => (c.change h (Canvas.redraw now f t), h)
      | .move d t => (c.change h (Canvas.relocate now d t), h)
      | .exit t => (c.change h (Canvas.leave now t), h)
      | .discard => ({ c with items := c.items.erase h }, h) := by
  have hc : (some h).filter (fun h => c.items.contains h) = some h := by
    rw [Option.filter_some, if_pos (Table.contains_iff.2 ⟨i, hi⟩)]
  unfold Canvas.perform
  rw [hc]
  cases instruction <;> rfl

/-- The item of a live thing changes, and with it whether the thing is on its way out. -/
theorem Sound.changed (hp : p.Sound) (hl : p.live.find? id = some l) {g : Item → Item}
    {r : Figure → Figure} (hid : ∀ i, (g i).id = i.id) (hkind : ∀ i, (g i).kind = i.kind)
    (hfig : ∀ i, (g i).figure = r i.figure) (b : Bool) (journal : List JournalEntry) :
    let p' : Presenter := { p with
      canvas := p.canvas.change l.handle g
      live := p.live.insert id { l with exiting := b }
      journal }
    p'.Sound ∧ ∀ j, p'.sight? j =
      if j = id then (p.sight? id).map fun v => { v with exiting := b, figure := r v.figure }
      else p.sight? j := by
  intro p'
  have hlive : ∀ j, p'.live.find? j = if j = id then some { l with exiting := b }
      else p.live.find? j := fun j => Table.find?_insert ..
  have hitem : ∀ h, p'.canvas.items.find? h = if h = l.handle then
      (p.canvas.items.find? h).map g else p.canvas.items.find? h := fun h => Table.find?_modify ..
  obtain ⟨i, hi, hiid, hikind⟩ := hp.drawn id l hl
  -- The items of the other things are under other handles.
  have hother : ∀ j l', p.live.find? j = some l' → j ≠ id →
      p'.canvas.items.find? l'.handle = p.canvas.items.find? l'.handle := by
    intro j l' hl' hne
    rw [hitem, if_neg (hp.handle_ne hl hl' hne)]
  have hown : p'.canvas.items.find? l.handle = some (g i) := by
    rw [hitem, if_pos rfl, hi]
    rfl
  refine ⟨⟨?_, ?_, ?_, ?_⟩, ?_⟩
  · intro j l' hl'
    rw [hlive] at hl'
    split at hl'
    · next hj =>
      obtain rfl := Option.some.inj hl'
      exact ⟨g i, hown, by rw [hid, hiid, hj], by rw [hkind, hikind]⟩
    · next hj =>
      rw [hother j l' hl' hj]
      exact hp.drawn j l' hl'
  · intro h i' hi'
    rw [hitem] at hi'
    -- Whatever stands under a handle now stood there before, under the same identifier.
    have hfound : ∃ i₀, p.canvas.items.find? h = some i₀ ∧ i'.id = i₀.id := by
      split at hi'
      · obtain ⟨i₀, hi₀, rfl⟩ := Option.map_eq_some_iff.1 hi'
        exact ⟨i₀, hi₀, hid i₀⟩
      · exact ⟨i', hi', rfl⟩
    obtain ⟨i₀, hi₀, hii⟩ := hfound
    obtain ⟨l₀, hl₀, hh⟩ := hp.owned h i₀ hi₀
    rw [hii, hlive]
    split
    · next hj =>
      rw [hj, hl] at hl₀
      obtain rfl := Option.some.inj hl₀
      exact ⟨_, rfl, hh⟩
    · exact ⟨l₀, hl₀, hh⟩
  · intro h i' hi'
    rw [hitem] at hi'
    split at hi'
    · obtain ⟨i₀, hi₀, _⟩ := Option.map_eq_some_iff.1 hi'
      exact hp.counted h i₀ hi₀
    · exact hp.counted h i' hi'
  · intro j l' hl'
    rw [hlive] at hl'
    split at hl'
    · obtain rfl := Option.some.inj hl'
      exact hp.numbered id l hl
    · exact hp.numbered j l' hl'
  · intro j
    split
    · next hj =>
      subst hj
      have hl' : p'.live.find? j = some { l with exiting := b } := by rw [hlive, if_pos rfl]
      rw [sight?_of_live hl' hown, sight?_of_live hl hi, hfig]
      rfl
    · next hj => exact sight?_congr (by rw [hlive, if_neg hj]) fun l' hl' => hother j l' hl' hj

/-- A live thing is taken away. -/
theorem Sound.removed (hp : p.Sound) (hl : p.live.find? id = some l)
    (journal : List JournalEntry) :
    let p' : Presenter := { p with
      canvas := { p.canvas with items := p.canvas.items.erase l.handle }
      live := p.live.erase id
      journal }
    p'.Sound ∧ ∀ j, p'.sight? j = if j = id then none else p.sight? j := by
  intro p'
  have hlive : ∀ j, p'.live.find? j = if j = id then none else p.live.find? j :=
    fun j => Table.find?_erase ..
  have hitem : ∀ h, p'.canvas.items.find? h = if h = l.handle then none
      else p.canvas.items.find? h := fun h => Table.find?_erase ..
  -- No two live things share an item. So the other live things keep theirs, and the items that
  -- remain keep their owners.
  have hother : ∀ j l', p.live.find? j = some l' → j ≠ id →
      p'.canvas.items.find? l'.handle = p.canvas.items.find? l'.handle := by
    intro j l' hl' hne
    rw [hitem, if_neg (hp.handle_ne hl hl' hne)]
  refine ⟨⟨?_, ?_, ?_, ?_⟩, ?_⟩
  · intro j l' hl'
    rw [hlive] at hl'
    split at hl'
    · cases hl'
    · next hj =>
      rw [hother j l' hl' hj]
      exact hp.drawn j l' hl'
  · intro h i hi
    rw [hitem] at hi
    split at hi
    · cases hi
    · next hne =>
      obtain ⟨l', hl', hh⟩ := hp.owned h i hi
      refine ⟨l', ?_, hh⟩
      rw [hlive, if_neg, hl']
      intro heq
      rw [heq, hl] at hl'
      exact hne (by rw [← hh, Option.some.inj hl'])
  · intro h i hi
    rw [hitem] at hi
    split at hi
    · cases hi
    · exact hp.counted h i hi
  · intro j l' hl'
    rw [hlive] at hl'
    split at hl'
    · cases hl'
    · exact hp.numbered j l' hl'
  · intro j
    split
    · next hj => exact sight?_eq_none_of_live (by rw [hlive, if_pos hj])
    · next hj => exact sight?_congr (by rw [hlive, if_neg hj]) fun l' hl' => hother j l' hl' hj

/-- A new item is drawn for a thing that was not. -/
theorem Sound.added (hp : p.Sound) (hl : p.live.find? id = none) (now : Nat) (kind : Kind)
    (f : Figure) (enter : Transition) (journal : List JournalEntry) :
    let p' : Presenter :=
      { canvas := (p.canvas.add now kind id f enter).1
        live := p.live.insert id ⟨kind, p.canvas.last + 1, p.incarnations + 1, false⟩
        incarnations := p.incarnations + 1
        journal }
    p'.Sound ∧ ∀ j, p'.sight? j =
      if j = id then some ⟨kind, p.incarnations + 1, false, f⟩ else p.sight? j := by
  intro p'
  have hlive : ∀ j, p'.live.find? j = if j = id then
      some ⟨kind, p.canvas.last + 1, p.incarnations + 1, false⟩ else p.live.find? j :=
    fun j => Table.find?_insert ..
  have hitem : ∀ h, p'.canvas.items.find? h = if h = p.canvas.last + 1 then
      some ⟨kind, id, f, Stamp.start? enter now, none, none⟩ else p.canvas.items.find? h :=
    fun h => Table.find?_insert ..
  have hother : ∀ j l', p.live.find? j = some l' →
      p'.canvas.items.find? l'.handle = p.canvas.items.find? l'.handle := by
    intro j l' hl'
    -- The handle of the new item is the next one, and all others were given before.
    obtain ⟨i, hi, _, _⟩ := hp.drawn j l' hl'
    have hle := hp.counted _ _ hi
    rw [hitem, if_neg (by omega)]
  refine ⟨⟨?_, ?_, ?_, ?_⟩, ?_⟩
  · intro j l' hl'
    rw [hlive] at hl'
    split at hl'
    · next hj =>
      obtain rfl := Option.some.inj hl'
      exact ⟨_, by rw [hitem, if_pos rfl], hj.symm, rfl⟩
    · rw [hother j l' hl']
      exact hp.drawn j l' hl'
  · intro h i hi
    rw [hitem] at hi
    split at hi
    · next hh =>
      obtain rfl := Option.some.inj hi
      exact ⟨_, by rw [hlive, if_pos rfl], hh.symm⟩
    · obtain ⟨l', hl', hh⟩ := hp.owned h i hi
      refine ⟨l', ?_, hh⟩
      rw [hlive, if_neg, hl']
      intro heq
      rw [heq, hl] at hl'
      cases hl'
  · intro h i hi
    change h ≤ p.canvas.last + 1
    rw [hitem] at hi
    split at hi
    · omega
    · have := hp.counted h i hi
      omega
  · intro j l' hl'
    change l'.incarnation ≤ p.incarnations + 1
    rw [hlive] at hl'
    split at hl'
    · obtain rfl := Option.some.inj hl'
      exact Nat.le_refl _
    · have := hp.numbered j l' hl'
      omega
  · intro j
    split
    · next hj =>
      exact sight?_of_live (by rw [hlive, if_pos hj]) (by rw [hitem, if_pos rfl])
    · next hj => exact sight?_congr (by rw [hlive, if_neg hj]) fun l' hl' => hother j l' hl'

/-! ### Taking things away -/

theorem sound_discard (hp : p.Sound) (now : Nat) (id : EntityId) : (p.discard now id).1.Sound ∧
    ∀ j, (p.discard now id).1.sight? j = if j = id then none else p.sight? j := by
  unfold discard
  cases hl : p.live.find? id with
  | none =>
    refine ⟨hp, fun j => ?_⟩
    by_cases hj : j = id
    · rw [if_pos hj, hj]
      exact sight?_eq_none_of_live hl
    · rw [if_neg hj]
  | some l =>
    obtain ⟨i, hi, _, _⟩ := hp.drawn id l hl
    simp only [instruct, perform_live hi]
    exact hp.removed hl _

theorem discard_live (h : p.sight? id = some v) (now : Nat) :
    (p.discard now id).2 = true := by
  obtain ⟨l, _, hl, _, _⟩ := sight?_eq_some h
  simp [discard, hl]

theorem discard_incarnations (p : Presenter) (now : Nat) (id : EntityId) :
    (p.discard now id).1.incarnations = p.incarnations := by
  unfold discard
  split <;> rfl

/-- A ticket is good for the incarnation that it was issued for. -/
theorem finishExit_of_match {t : Ticket} (h : p.sight? t.id = some v)
    (hv : v.incarnation = t.incarnation) : p.finishExit now t = ((p.discard now t.id).1, true) := by
  have htrue := discard_live h now
  obtain ⟨l, i, hl, hi, rfl⟩ := sight?_eq_some h
  unfold finishExit
  rw [hl]
  exact (if_pos hv).trans (Prod.ext rfl htrue)

/-- A ticket is good for nothing else. -/
theorem finishExit_of_stale (hp : p.Sound) {t : Ticket}
    (h : ∀ v, p.sight? t.id = some v → v.incarnation ≠ t.incarnation) :
    p.finishExit now t = (p, false) := by
  unfold finishExit
  cases hl : p.live.find? t.id with
  | none => rfl
  | some l =>
    obtain ⟨i, hi, _, _⟩ := hp.drawn t.id l hl
    exact if_neg (h _ (sight?_of_live hl hi))

@[simp] theorem sight?_reset : (p.reset now).sight? id = none := rfl

@[simp] theorem reset_incarnations : (p.reset now).incarnations = p.incarnations := rfl

/-! ### Showing things -/

theorem sound_present (hp : p.Sound) (now : Nat) (kind : Kind) (id : EntityId) (f : Figure)
    (enter : Transition) :
    (p.present now kind id f enter).1.Sound ∧
    ∀ j, (p.present now kind id f enter).1.sight? j =
      if j = id then some ⟨kind, p.incarnations + 1, false, f⟩ else p.sight? j := by
  -- What was shown under the id is discarded first, so the id is free for what is added.
  obtain ⟨hd, hsight⟩ := sound_discard hp now id
  have hnone : (p.discard now id).1.live.find? id = none :=
    hd.live_eq_none (by rw [hsight, if_pos rfl])
  obtain ⟨hs, hadd⟩ := hd.added hnone now kind f enter
    (.performed now kind id none (.create f enter) ((p.discard now id).1.canvas.last + 1) ::
      (p.discard now id).1.journal)
  rw [discard_incarnations] at hs hadd
  have heq : (p.present now kind id f enter).1 =
      { canvas := ((p.discard now id).1.canvas.add now kind id f enter).1
        live := (p.discard now id).1.live.insert id
          ⟨kind, (p.discard now id).1.canvas.last + 1, p.incarnations + 1, false⟩
        incarnations := p.incarnations + 1
        journal := .performed now kind id none (.create f enter)
          ((p.discard now id).1.canvas.last + 1) :: (p.discard now id).1.journal } := by
    rw [← discard_incarnations p now id]
    rfl
  rw [heq]
  refine ⟨hs, fun j => (hadd j).trans ?_⟩
  split
  · rfl
  · next hj => rw [hsight, if_neg hj]

theorem present_incarnations {kind : Kind} {f : Figure} {enter : Transition} :
    (p.present now kind id f enter).1.incarnations = p.incarnations + 1 := by
  exact congrArg (· + 1) (discard_incarnations p now id)

/-! ### Changing what is shown -/

theorem apply_incarnations {i : Instruction} :
    (p.apply now id i).1.incarnations = p.incarnations := by
  unfold apply
  split <;> rfl

/-- An instruction that leaves the thing in its place changes the figure of a thing that stays. -/
theorem sound_apply (hp : p.Sound) {instruction : Instruction} {g : Item → Item}
    {r : Figure → Figure} (hid : ∀ i, (g i).id = i.id) (hkind : ∀ i, (g i).kind = i.kind)
    (hfig : ∀ i, (g i).figure = r i.figure)
    (hperform : ∀ (c : Canvas) kind h i, c.items.find? h = some i →
      c.perform now kind id (some h) instruction = (c.change h g, h)) :
    (p.apply now id instruction).1.Sound ∧
    ∀ j, (p.apply now id instruction).1.sight? j =
      if j = id then (p.sight? id).map fun v =>
        if v.exiting then v else { v with figure := r v.figure }
      else p.sight? j := by
  -- Nothing is to be seen of the instruction on a thing that is on its way out.
  have hsame (hx : ∀ v, p.sight? id = some v → v.exiting = true) (j : EntityId) :
      p.sight? j = if j = id then (p.sight? id).map fun v =>
        if v.exiting then v else { v with figure := r v.figure } else p.sight? j := by
    split
    · next hj =>
      subst hj
      cases hv : p.sight? j with
      | none => rfl
      | some v => simp [hx v hv]
    · rfl
  unfold apply
  cases hl : p.live.find? id with
  | none =>
    rw [staying?_of_none hl]
    exact ⟨hp, hsame fun v hv => by rw [sight?_eq_none_of_live hl] at hv; cases hv⟩
  | some l =>
    obtain ⟨i, hi, _, _⟩ := hp.drawn id l hl
    rw [staying?_of_live hl]
    cases hx : l.exiting with
    | true =>
      have hgone : ∀ v, p.sight? id = some v → v.exiting = true := by
        intro v hv
        rw [sight?_of_live hl hi] at hv
        rw [← Option.some.inj hv]
        exact hx
      exact ⟨hp, hsame hgone⟩
    | false =>
      simp only [Bool.false_eq_true, if_false, instruct, hperform _ _ _ _ hi]
      -- The thing stays live as it was, with the item that it had.
      have hlive : ({ l with handle := l.handle } : Live) = { l with exiting := false } := by
        rw [← hx]
      rw [hlive]
      refine ⟨(hp.changed hl hid hkind hfig false _).1, fun j => ?_⟩
      refine ((hp.changed hl hid hkind hfig false _).2 j).trans ?_
      rw [sight?_of_live hl hi]
      simp [hx]

theorem sound_refresh (hp : p.Sound) (now : Nat) (id : EntityId) (f : Figure) (t : Transition) :
    (p.refresh now id f t).1.Sound ∧
    ∀ j, (p.refresh now id f t).1.sight? j =
      if j = id then (p.sight? id).map (.redrawn f) else p.sight? j :=
  sound_apply hp (g := Canvas.redraw now f t) (r := fun _ => f) (fun _ => rfl) (fun _ => rfl)
    (fun _ => rfl) fun _ _ _ _ hi => perform_live hi _

theorem sound_move (hp : p.Sound) (now : Nat) (id : EntityId) (destination : Point)
    (t : Transition) :
    (p.move now id destination t).1.Sound ∧
    ∀ j, (p.move now id destination t).1.sight? j =
      if j = id then (p.sight? id).map (.relocated destination) else p.sight? j :=
  sound_apply hp (g := Canvas.relocate now destination t)
    (r := fun f => { f with origin := destination }) (fun _ => rfl) (fun _ => rfl)
    (fun _ => rfl) fun _ _ _ _ hi => perform_live hi _

theorem status_move (hp : p.Sound) (now : Nat) (id : EntityId) (destination : Point)
    (t : Transition) (j : EntityId) :
    ((p.move now id destination t).1.sight? j).map Sight.status =
      (p.sight? j).map Sight.status := by
  rw [(sound_move hp now id destination t).2]
  split
  · next hj =>
    rw [hj]
    cases p.sight? id <;> simp
  · rfl

/-- The figure of a thing that goes away can be seen no more if it goes at once. -/
def leaving (now : Nat) (t : Transition) (f : Figure) : Figure :=
  if (Stamp.start? t now).isSome then f else { f with opacity := 0.0 }

theorem leave_figure (t : Transition) (i : Item) :
    (Canvas.leave now t i).figure = leaving now t i.figure := by
  unfold Canvas.leave leaving
  cases Stamp.start? t now <;> rfl

/-- A thing is there to stay, or is on its way out if it is seen at all. -/
theorem stays_or_leaves (p : Presenter) (id : EntityId) :
    (∃ v, p.sight? id = some v ∧ v.exiting = false) ∨
      ∀ v, p.sight? id = some v → v.exiting = true := by
  cases hv : p.sight? id with
  | none => exact .inr nofun
  | some v =>
    cases hx : v.exiting with
    | false => exact .inl ⟨v, rfl, hx⟩
    | true =>
      right
      rintro _ ⟨⟩
      exact hx

/-- Nothing happens to a thing that is not there or on its way out already. -/
theorem beginExit_of_not_staying (hp : p.Sound) (t : Transition)
    (h : ∀ v, p.sight? id = some v → v.exiting = true) : p.beginExit now id t = (p, none) := by
  unfold beginExit
  cases hl : p.live.find? id with
  | none => rw [staying?_of_none hl]
  | some l =>
    obtain ⟨i, hi, _, _⟩ := hp.drawn id l hl
    have hx : l.exiting = true := h _ (sight?_of_live hl hi)
    rw [staying?_of_live hl, hx]
    rfl

/-- A thing that stays gets a ticket for its incarnation. -/
theorem beginExit_of_staying (hp : p.Sound) (now : Nat) (t : Transition)
    (h : p.sight? id = some v)
    (hv : v.exiting = false) :
    (p.beginExit now id t).2 = some ⟨id, v.incarnation⟩ ∧
    (p.beginExit now id t).1.incarnations = p.incarnations ∧
    (p.beginExit now id t).1.Sound ∧
    ∀ j, (p.beginExit now id t).1.sight? j =
      if j = id then some { v with exiting := true, figure := leaving now t v.figure }
      else p.sight? j := by
  obtain ⟨l, i, hl, hi, rfl⟩ := sight?_eq_some h
  have hx : l.exiting = false := hv
  unfold beginExit
  rw [staying?_of_live hl, hx]
  simp only [Bool.false_eq_true, if_false, instruct, perform_live hi, true_and]
  -- To leave changes how an item is drawn, not whose it is.
  have hid : ∀ i, (Canvas.leave now t i).id = i.id := by
    intro i
    unfold Canvas.leave
    split <;> rfl
  have hkind : ∀ i, (Canvas.leave now t i).kind = i.kind := by
    intro i
    unfold Canvas.leave
    split <;> rfl
  refine ⟨(hp.changed hl hid hkind (leave_figure t) true _).1, fun j => ?_⟩
  refine ((hp.changed hl hid hkind (leave_figure t) true _).2 j).trans ?_
  rw [h]
  rfl

/-- To let a thing go changes no other. -/
theorem sound_beginExit (hp : p.Sound) (now : Nat) (id : EntityId) (t : Transition) :
    (p.beginExit now id t).1.Sound ∧
    ∀ j, j ≠ id → (p.beginExit now id t).1.sight? j = p.sight? j := by
  rcases p.stays_or_leaves id with ⟨v, hv, hx⟩ | hgone
  · obtain ⟨_, _, hsound, hsight⟩ := beginExit_of_staying hp now t hv hx
    exact ⟨hsound, fun j hj => by rw [hsight, if_neg hj]⟩
  · rw [beginExit_of_not_staying hp t hgone]
    exact ⟨hp, fun _ _ => rfl⟩

end Presenter

end Storyboard
