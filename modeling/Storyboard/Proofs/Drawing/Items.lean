import Storyboard.Proofs.Drawing.Sight

/-! # The items of things that stay

    Of a thing that stays, `sight?` tells the figure. Here the whole item is
    told, with the transitions that it is going through. An operation of the
    presenter changes the item of the thing that it is about, and leaves the
    items of all other things as they are. -/

namespace Storyboard.Presenter

/-- The item by which a thing is drawn that stays. -/
def stayingItem? (p : Presenter) (id : EntityId) : Option Item :=
  (p.staying? id).bind fun l => p.canvas.items.find? l.handle

variable {p q : Presenter} {id j : EntityId} {l : Live} {i : Item} {v : Sight} {now : Nat}

/-! ### Items and live things -/

theorem stayingItem?_of_live (h : p.live.find? id = some l) : p.stayingItem? id =
    if l.exiting then none else p.canvas.items.find? l.handle := by
  rw [stayingItem?, staying?_of_live h]
  cases l.exiting <;> rfl

theorem stayingItem?_of_none (h : p.live.find? id = none) : p.stayingItem? id = none := by
  rw [stayingItem?, staying?_of_none h]
  rfl

/-- The item of a thing depends on how the thing is live, and on nothing else on the canvas. -/
theorem stayingItem?_congr (hlive : q.live.find? j = p.live.find? j)
    (hitem : ∀ l, p.live.find? j = some l →
      q.canvas.items.find? l.handle = p.canvas.items.find? l.handle) :
    q.stayingItem? j = p.stayingItem? j := by
  cases h : p.live.find? j with
  | none => rw [stayingItem?_of_none h, stayingItem?_of_none (hlive.trans h)]
  | some l => rw [stayingItem?_of_live h, stayingItem?_of_live (hlive.trans h), hitem l h]

/-- A thing that is seen to stay has an item. -/
theorem exists_stayingItem? (h : p.sight? id = some v) (hv : v.exiting = false) :
    ∃ i, p.stayingItem? id = some i ∧ i.figure = v.figure := by
  obtain ⟨l, i, hl, hi, rfl⟩ := sight?_eq_some h
  refine ⟨i, ?_, rfl⟩
  rw [stayingItem?_of_live hl, if_neg (ne_true_of_eq_false hv), hi]

/-- The item of a thing that stays is the only one that is drawn for it. -/
theorem Sound.item?_eq (hp : p.Sound) (h : p.stayingItem? id = some i) :
    p.canvas.item? id = some i := by
  cases hl : p.live.find? id with
  | none =>
    rw [stayingItem?_of_none hl] at h
    cases h
  | some l =>
    rw [stayingItem?_of_live hl] at h
    split at h
    · cases h
    · obtain ⟨i', hi', hid, _⟩ := hp.drawn id l hl
      obtain rfl := Option.some.inj (hi'.symm.trans h)
      have hmem : i' ∈ p.canvas.items.values := Table.mem_values_iff.2 ⟨_, h⟩
      cases hfound : p.canvas.item? id with
      | none =>
        have hnone := List.find?_eq_none.1 hfound i' hmem
        simp [hid] at hnone
      | some k =>
        -- Whatever is found is drawn under the handle of the thing.
        have hk : k.id = id := by simpa using List.find?_some hfound
        obtain ⟨h', hh'⟩ := Table.mem_values_iff.1 (List.mem_of_find?_eq_some hfound)
        obtain ⟨l', hl', rfl⟩ := hp.owned h' k hh'
        rw [hk, hl] at hl'
        rw [← Option.some.inj hl', h] at hh'
        exact hh'.symm

/-! ### What becomes of items -/

/-- An instruction that leaves the thing in its place changes its item, if the thing stays. -/
theorem stayingItem?_apply (hp : p.Sound) {instruction : Instruction} {g : Item → Item}
    (hperform : ∀ (c : Canvas) kind h i, c.items.find? h = some i →
      c.perform now kind id (some h) instruction = (c.change h g, h)) :
    (p.apply now id instruction).1.stayingItem? j =
      if j = id then (p.stayingItem? id).map g else p.stayingItem? j := by
  -- Where the thing does not stay, nothing happens, and there is no item to change.
  have hsame (hnone : p.stayingItem? id = none) : p.stayingItem? j =
      if j = id then (p.stayingItem? id).map g else p.stayingItem? j := by
    split
    · next hj => rw [hj, hnone, Option.map_none]
    · rfl
  unfold apply
  cases hstays : p.staying? id with
  | none => exact hsame (by rw [stayingItem?, hstays, Option.bind_none])
  | some l =>
    obtain ⟨hl, hx⟩ := staying?_eq_some hstays
    obtain ⟨i, hi, _, _⟩ := hp.drawn id l hl
    simp only [instruct, hperform _ _ _ _ hi]
    split
    · next hj =>
      subst hj
      refine (stayingItem?_of_live ((Table.find?_insert ..).trans (if_pos rfl))).trans ?_
      rw [stayingItem?_of_live hl, hx]
      exact (Table.find?_modify ..).trans (if_pos rfl)
    · next hj =>
      refine stayingItem?_congr ((Table.find?_insert ..).trans (if_neg hj)) fun l' hl' => ?_
      exact (Table.find?_modify ..).trans (if_neg (hp.handle_ne hl hl' hj))

theorem stayingItem?_refresh (hp : p.Sound) (now : Nat) (id : EntityId) (f : Figure)
    (t : Transition) (j : EntityId) :
    (p.refresh now id f t).1.stayingItem? j =
      if j = id then (p.stayingItem? id).map (Canvas.redraw now f t) else p.stayingItem? j :=
  stayingItem?_apply hp fun _ _ _ _ hi => perform_live hi _

theorem stayingItem?_move (hp : p.Sound) (now : Nat) (id : EntityId) (destination : Point)
    (t : Transition) (j : EntityId) :
    (p.move now id destination t).1.stayingItem? j =
      if j = id then (p.stayingItem? id).map (Canvas.relocate now destination t)
      else p.stayingItem? j :=
  stayingItem?_apply hp fun _ _ _ _ hi => perform_live hi _

/-- To take a thing away changes no other. -/
theorem stayingItem?_discard (hp : p.Sound) (now : Nat) (hj : j ≠ id) :
    (p.discard now id).1.stayingItem? j = p.stayingItem? j := by
  unfold discard
  cases hl : p.live.find? id with
  | none => rfl
  | some l =>
    obtain ⟨i, hi, _, _⟩ := hp.drawn id l hl
    simp only [instruct, perform_live hi]
    refine stayingItem?_congr ((Table.find?_erase ..).trans (if_neg hj)) fun l' hl' => ?_
    exact (Table.find?_erase ..).trans (if_neg (hp.handle_ne hl hl' hj))

/-- To show a thing changes no other. -/
theorem stayingItem?_present (hp : p.Sound) (now : Nat) (hj : j ≠ id) (kind : Kind) (f : Figure)
    (enter : Transition) : (p.present now kind id f enter).1.stayingItem? j = p.stayingItem? j := by
  have hd := (sound_discard hp now id).1
  rw [← stayingItem?_discard hp now hj]
  refine stayingItem?_congr ((Table.find?_insert ..).trans (if_neg hj)) fun l hl => ?_
  -- The handle of the new item is the next one, and all others were given before.
  obtain ⟨i, hi, _, _⟩ := hd.drawn j l hl
  have hlt := Nat.lt_succ_of_le (hd.counted _ _ hi)
  exact (Table.find?_insert ..).trans (if_neg (Nat.ne_of_lt hlt))

/-- To let a thing go changes no other. -/
theorem stayingItem?_beginExit (hp : p.Sound) (now : Nat) (hj : j ≠ id) (t : Transition) :
    (p.beginExit now id t).1.stayingItem? j = p.stayingItem? j := by
  unfold beginExit
  cases hstays : p.staying? id with
  | none => rfl
  | some l =>
    have hl := (staying?_eq_some hstays).1
    obtain ⟨i, hi, _, _⟩ := hp.drawn id l hl
    simp only [instruct, perform_live hi]
    refine stayingItem?_congr ((Table.find?_insert ..).trans (if_neg hj)) fun l' hl' => ?_
    exact (Table.find?_modify ..).trans (if_neg (hp.handle_ne hl hl' hj))

/-- To finish an exit changes nothing but the thing that goes. -/
theorem stayingItem?_finishExit (hp : p.Sound) (now : Nat) {t : Ticket} (hj : j ≠ t.id) :
    (p.finishExit now t).1.stayingItem? j = p.stayingItem? j := by
  unfold finishExit
  split
  · split
    · exact stayingItem?_discard hp now hj
    · rfl
  · rfl

end Storyboard.Presenter
