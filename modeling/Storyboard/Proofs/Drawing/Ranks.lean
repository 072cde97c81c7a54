import Mathlib.Data.List.Forall2
import Storyboard.Proofs.Stage.Segment

/-! # The order of painting

    Items lie above one another in the order of their handles. As long as
    things are shown by the presenter only, that is the order in which they
    were shown, so it can be told from their incarnations (`Ranked`). Two
    presenters that show the same things in the same order have the same things
    on their canvases in the same order (`forall₂_values`). -/

namespace Storyboard.Presenter

/-- Of two things, the one with the greater handle was shown later. -/
def Ranked (p : Presenter) : Prop :=
  ∀ i j l l', p.live.find? i = some l → p.live.find? j = some l' → l.handle < l'.handle →
    l.incarnation < l'.incarnation

variable {p q : Presenter} {now : Nat} {id : EntityId}

/-! ### Every operation keeps the order -/

theorem ranked_of_empty (h : p.live = .empty) : p.Ranked := by
  intro i j l l' hl
  rw [h] at hl
  cases hl

/-- Nothing is shown that was not, and what is still shown has its handle and its incarnation. -/
theorem Ranked.keep (h : p.Ranked) (hkeep : ∀ j l', q.live.find? j = some l' →
    ∃ l, p.live.find? j = some l ∧ l.handle = l'.handle ∧ l.incarnation = l'.incarnation) :
    q.Ranked := by
  intro i j l l' hl hl' hlt
  obtain ⟨m, hm, hhandle, hinc⟩ := hkeep i l hl
  obtain ⟨m', hm', hhandle', hinc'⟩ := hkeep j l' hl'
  rw [← hinc, ← hinc']
  exact h i j m m' hm hm' (by rwa [hhandle, hhandle'])

theorem Ranked.discard (h : p.Ranked) (now : Nat) (id : EntityId) :
    (p.discard now id).1.Ranked := by
  refine h.keep fun j l' hl' => ⟨l', ?_, rfl, rfl⟩
  unfold Presenter.discard at hl'
  split at hl'
  · have hold := (Table.find?_erase ..).symm.trans hl'
    split at hold
    · cases hold
    · exact hold
  · exact hl'

theorem Ranked.present (hp : p.Sound) (h : p.Ranked) (now : Nat) (kind : Kind) (id : EntityId)
    (f : Figure) (enter : Transition) : (p.present now kind id f enter).1.Ranked := by
  have hd := h.discard now id
  have hsound := (sound_discard hp now id).1
  have hlive : ∀ j, (p.present now kind id f enter).1.live.find? j =
      if j = id then some ⟨kind, (p.discard now id).1.canvas.last + 1,
        (p.discard now id).1.incarnations + 1, false⟩
      else (p.discard now id).1.live.find? j := fun j => Table.find?_insert ..
  -- All handles and all incarnations were given before.
  have hlast : ∀ {j l}, (p.discard now id).1.live.find? j = some l →
      l.handle ≤ (p.discard now id).1.canvas.last ∧
        l.incarnation ≤ (p.discard now id).1.incarnations := by
    intro j l hl
    obtain ⟨i, hi, _⟩ := hsound.drawn j l hl
    exact ⟨hsound.counted _ _ hi, hsound.numbered j l hl⟩
  intro i j l l' hl hl' hlt
  rw [hlive] at hl hl'
  split at hl
  · obtain rfl := Option.some.inj hl
    split at hl'
    · obtain rfl := Option.some.inj hl'
      exact absurd hlt (Nat.lt_irrefl _)
    · have := (hlast hl').1
      dsimp only at hlt
      omega
  · split at hl'
    · obtain rfl := Option.some.inj hl'
      exact Nat.lt_succ_of_le (hlast hl).2
    · exact hd i j l l' hl hl' hlt

/-- A live thing keeps its handle when an instruction about it is passed on. -/
theorem perform_handle (hp : p.Sound) {l : Live} (hl : p.live.find? id = some l) {i : Instruction}
    (hi : ∀ f enter, i ≠ .create f enter) (now : Nat) :
    (p.canvas.perform now l.kind id (some l.handle) i).2 = l.handle := by
  obtain ⟨item, hitem, _⟩ := hp.drawn id l hl
  rw [perform_live hitem]
  cases i with
  | create f enter => exact absurd rfl (hi f enter)
  | _ => rfl

/-- A live thing is told something, and keeps its handle and its incarnation. -/
theorem Ranked.instructed (h : p.Ranked) {l l' : Live} (hl : p.live.find? id = some l)
    (hlive : q.live = p.live.insert id l') (hhandle : l'.handle = l.handle)
    (hinc : l'.incarnation = l.incarnation) : q.Ranked := by
  refine h.keep fun j m hm => ?_
  rw [hlive] at hm
  have hnew := (Table.find?_insert ..).symm.trans hm
  split at hnew
  · next hj =>
    obtain rfl := Option.some.inj hnew
    exact ⟨l, hj ▸ hl, hhandle.symm, hinc.symm⟩
  · exact ⟨m, hnew, rfl, rfl⟩

theorem Ranked.apply (hp : p.Sound) (h : p.Ranked) (now : Nat) (id : EntityId) {i : Instruction}
    (hi : i.Alters) : (p.apply now id i).1.Ranked := by
  unfold Presenter.apply
  cases hstays : p.staying? id with
  | none => exact h
  | some l =>
    have hl := (staying?_eq_some hstays).1
    exact h.instructed hl rfl (perform_handle hp hl (by rintro f enter rfl; exact hi) now) rfl

theorem Ranked.beginExit (hp : p.Sound) (h : p.Ranked) (now : Nat) (id : EntityId)
    (t : Transition) : (p.beginExit now id t).1.Ranked := by
  unfold Presenter.beginExit
  cases hstays : p.staying? id with
  | none => exact h
  | some l =>
    have hl := (staying?_eq_some hstays).1
    exact h.instructed hl rfl (perform_handle hp hl (by rintro f enter ⟨⟩) now) rfl

theorem Ranked.finishExit (h : p.Ranked) (now : Nat) (t : Ticket) :
    (p.finishExit now t).1.Ranked := by
  unfold Presenter.finishExit
  split
  · split
    · exact h.discard now t.id
    · exact h
  · exact h

/-- To be sound and to have things in their order is kept by every operation. -/
theorem kept_ranked : Kept fun p => p.Sound ∧ p.Ranked where
  present h now kind id f enter :=
    ⟨kept_sound.present h.1 now kind id f enter, h.2.present h.1 now kind id f enter⟩
  apply h now id i hi := ⟨kept_sound.apply h.1 now id i hi, h.2.apply h.1 now id hi⟩
  beginExit h now id t := ⟨kept_sound.beginExit h.1 now id t, h.2.beginExit h.1 now id t⟩
  finishExit h now t := ⟨kept_sound.finishExit h.1 now t, h.2.finishExit now t⟩

/-! ### From the order to the canvas -/

/-- Every item is that of a thing that is seen with its figure. -/
theorem Sound.sight?_of_item (hp : p.Sound) {i : Item} (hi : i ∈ p.canvas.items.values) :
    ∃ v, p.sight? i.id = some v ∧ v.kind = i.kind ∧ v.figure = i.figure := by
  obtain ⟨h, hfind⟩ := Table.mem_values_iff.1 hi
  obtain ⟨l, hl, rfl⟩ := hp.owned h i hfind
  obtain ⟨i', hi', _, hkind⟩ := hp.drawn i.id l hl
  obtain rfl := Option.some.inj (hfind.symm.trans hi')
  exact ⟨_, sight?_of_live hl hfind, hkind.symm, rfl⟩

theorem Sound.mem_ids_iff (hp : p.Sound) :
    id ∈ p.canvas.items.values.map (·.id) ↔ ∃ v, p.sight? id = some v := by
  constructor
  · intro h
    obtain ⟨i, hi, rfl⟩ := List.mem_map.1 h
    obtain ⟨v, hv, _⟩ := hp.sight?_of_item hi
    exact ⟨v, hv⟩
  · rintro ⟨v, hv⟩
    obtain ⟨l, i, hl, hi, _⟩ := sight?_eq_some hv
    obtain ⟨i', hi', hid, _⟩ := hp.drawn id l hl
    obtain rfl := Option.some.inj (hi.symm.trans hi')
    exact List.mem_map.2 ⟨i, Table.mem_values_iff.2 ⟨_, hi⟩, hid⟩

/-- Of two things that are seen, one was shown before the other. -/
def Before (p : Presenter) (i j : EntityId) : Prop :=
  ∃ v w, p.sight? i = some v ∧ p.sight? j = some w ∧ v.incarnation < w.incarnation

theorem Before.asymm {i j : EntityId} (h : p.Before i j) : ¬p.Before j i := by
  obtain ⟨v, w, hv, hw, hlt⟩ := h
  rintro ⟨w', v', hw', hv', hlt'⟩
  obtain rfl := Option.some.inj (hv.symm.trans hv')
  obtain rfl := Option.some.inj (hw.symm.trans hw')
  omega

/-- Things lie above one another as they were shown one after another. -/
theorem Ranked.pairwise (hp : p.Sound) (h : p.Ranked) :
    (p.canvas.items.values.map (·.id)).Pairwise p.Before := by
  rw [Table.values, List.map_map, List.pairwise_map]
  refine p.canvas.items.sorted.imp_of_mem ?_
  rintro ⟨a, i⟩ ⟨b, j⟩ ha hb hlt
  obtain ⟨l, hl, rfl⟩ := hp.owned a i (Table.mem_entries_iff.1 ha)
  obtain ⟨l', hl', rfl⟩ := hp.owned b j (Table.mem_entries_iff.1 hb)
  exact ⟨_, _, sight?_of_live hl (Table.mem_entries_iff.1 ha),
    sight?_of_live hl' (Table.mem_entries_iff.1 hb),
    h i.id j.id l l' hl hl' (Nat.compare_eq_lt.1 hlt)⟩

/-- Presenters that show the same things in the same order have them on their canvases in the same
    order. -/
theorem ids_eq (hp : p.Sound) (hq : q.Sound) (hpr : p.Ranked) (hqr : q.Ranked)
    (hseen : ∀ id, (∃ v, p.sight? id = some v) ↔ ∃ v, q.sight? id = some v)
    (hbefore : ∀ i j, q.Before i j → p.Before i j) :
    p.canvas.items.values.map (·.id) = q.canvas.items.values.map (·.id) := by
  have hpairs := hpr.pairwise hp
  have hpairs' := (hqr.pairwise hq).imp (hbefore _ _)
  have hnodup : ∀ {l : List EntityId}, l.Pairwise p.Before → l.Nodup := fun hl =>
    hl.imp (fun {a b} hab hne => by
      subst hne
      exact hab.asymm hab)
  have hperm := (List.perm_ext_iff_of_nodup (hnodup hpairs) (hnodup hpairs')).2 fun id => by
    rw [hp.mem_ids_iff, hq.mem_ids_iff, hseen]
  exact hperm.eq_of_pairwise (fun a b _ _ hab hba => absurd hba hab.asymm) hpairs hpairs'

/-- A relation between the items of every thing is one between the items in their order. -/
theorem forall₂_values {R : Item → Item → Prop}
    (hids : p.canvas.items.values.map (·.id) = q.canvas.items.values.map (·.id))
    (hR : ∀ i ∈ p.canvas.items.values, ∀ j ∈ q.canvas.items.values, i.id = j.id → R i j) :
    List.Forall₂ R p.canvas.items.values q.canvas.items.values := by
  have hids' : List.Forall₂ (fun i j : Item => i.id = j.id) p.canvas.items.values
      q.canvas.items.values := by
    rw [← List.forall₂_map_left_iff (R := fun a (j : Item) => a = j.id) (f := Item.id),
      ← List.forall₂_map_right_iff (R := fun a b : EntityId => a = b) (f := Item.id), hids]
    exact List.forall₂_refl _
  rw [List.forall₂_iff_zip] at hids' ⊢
  refine ⟨hids'.1, fun {i j} hij => ?_⟩
  obtain ⟨hi, hj⟩ := List.of_mem_zip hij
  exact hR i hi j hj (hids'.2 hij)

end Storyboard.Presenter
