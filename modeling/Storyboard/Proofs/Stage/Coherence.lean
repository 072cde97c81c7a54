import Mathlib.Data.Set.Insert
import Storyboard.Proofs.Stage.Picture

/-! # Coherence of the stage

    The invariant of the stage, relative to the acts that are still owed: the
    scene and the presenter know the same things, whatever is on its way out
    will be taken away by an act that is owed, and whatever is not drawn as it
    follows from the scene will be restored by one.

    To perform an act that was owed keeps the stage coherent with what is owed
    then (`Coherent.perform`). A change of the scene keeps it coherent with
    some more acts owed: those that draw what depends on the change. -/

namespace Storyboard.Stage

/-- The stage is as it should be, once the acts that are owed are performed. -/
structure Coherent (s : Stage) (owed : Set Act) : Prop where
  sound  : s.presenter.Sound
  keyed  : s.scene.Keyed
  /-- What is in the scene is drawn, and nothing else is. -/
  listed : ∀ k id, s.scene.has k id = true ↔ ∃ v, s.presenter.sight? id = some v ∧ v.kind = k
  /-- A ticket that is good for something is that of an exit under way. -/
  tickets : ∀ t k id, Act.finishExit t k id ∈ owed →
    t.id = id ∧ t.incarnation ≤ s.presenter.incarnations ∧
    ∀ v, s.presenter.sight? id = some v → v.incarnation = t.incarnation →
      v.exiting = true ∧ v.kind = k
  /-- Every exit under way will be finished. -/
  exits : ∀ id v, s.presenter.sight? id = some v → v.exiting = true →
    Act.finishExit ⟨id, v.incarnation⟩ v.kind id ∈ owed
  /-- What stays is drawn as it follows from the scene, or will be. -/
  drawn : ∀ k id e f v, s.scene.get? k id = some e → s.scene.figureOf? e = some f →
    s.presenter.sight? id = some v → v.exiting = false →
    v.figure = f ∨ ∃ a ∈ owed, a.Restores e

variable {s s' : Stage} {owed owed' : Set Act} {now : Nat} {id : EntityId}

/-! ### What follows from it -/

theorem Coherent.exclusive (hs : s.Coherent owed) : s.scene.Exclusive := by
  intro j k id hj hk
  obtain ⟨v, hv, rfl⟩ := (hs.listed j id).1 hj
  obtain ⟨v', hv', rfl⟩ := (hs.listed k id).1 hk
  rw [hv] at hv'
  rw [Option.some.inj hv']

theorem Coherent.kindOf? (hs : s.Coherent owed) (id : EntityId) :
    s.scene.kindOf? id = (s.presenter.sight? id).map (·.kind) := by
  cases hv : s.presenter.sight? id with
  | none =>
    refine Scene.kindOf?_eq_none.2 fun k => ?_
    cases hk : s.scene.has k id with
    | false => rfl
    | true =>
      obtain ⟨v, hv', _⟩ := (hs.listed k id).1 hk
      rw [hv] at hv'
      cases hv'
  | some v => exact (Scene.kindOf?_eq_some hs.exclusive).2 ((hs.listed _ _).2 ⟨v, hv, rfl⟩)

/-- More acts may be owed, as long as they finish no exit. -/
theorem Coherent.mono (hs : s.Coherent owed) (hsub : owed ⊆ owed')
    (hexit : ∀ a ∈ owed', a.IsExit → a ∈ owed) : s.Coherent owed' := by
  refine ⟨hs.sound, hs.keyed, hs.listed, ?_, ?_, ?_⟩
  · intro t k id h
    exact hs.tickets t k id (hexit _ h trivial)
  · intro id v hv hx
    exact hsub (hs.exits id v hv hx)
  · intro k id e f v he hf hv hx
    rcases hs.drawn k id e f v he hf hv hx with h | ⟨a, ha, hr⟩
    · exact .inl h
    · exact .inr ⟨a, hsub ha, hr⟩

/-- Acts that finish no exit may be owed besides. -/
theorem Coherent.oweAll {more : Set Act} (hs : s.Coherent owed)
    (hmore : ∀ a ∈ more, ¬a.IsExit) : s.Coherent (more ∪ owed) := by
  refine hs.mono Set.subset_union_right ?_
  rintro a (ha | ha) hx
  · exact absurd hx (hmore a ha)
  · exact ha

theorem Coherent.owe {a : Act} (hs : s.Coherent owed) (ha : ¬a.IsExit) :
    s.Coherent (insert a owed) := by
  rw [Set.insert_eq]
  refine hs.oweAll ?_
  rintro b rfl
  exact ha

/-! ### Performing what is owed -/

/-- Nothing happened but that figures were drawn and that things in the scene changed. -/
theorem Coherent.repaint (hs : s.Coherent owed) (hsound : s'.presenter.Sound)
    (hinc : s'.presenter.incarnations = s.presenter.incarnations)
    (hstatus : ∀ j, (s'.presenter.sight? j).map Sight.status =
      (s.presenter.sight? j).map Sight.status)
    (hkeyed : s'.scene.Keyed) (hhas : ∀ k j, s'.scene.has k j = s.scene.has k j)
    (hexit : ∀ a : Act, a.IsExit → (a ∈ owed' ↔ a ∈ owed))
    (hdrawn : ∀ k j e f v, s'.scene.get? k j = some e → s'.scene.figureOf? e = some f →
      s'.presenter.sight? j = some v → v.exiting = false →
      v.figure = f ∨ ∃ a ∈ owed', a.Restores e) :
    s'.Coherent owed' := by
  -- Before and after, the same things are seen, each with the same status.
  have hold : ∀ {j v'}, s'.presenter.sight? j = some v' →
      ∃ v, s.presenter.sight? j = some v ∧ v.status = v'.status := by
    intro j v' hv'
    have h := hstatus j
    rw [hv'] at h
    exact Option.map_eq_some_iff.1 h.symm
  have hnew : ∀ {j v}, s.presenter.sight? j = some v →
      ∃ v', s'.presenter.sight? j = some v' ∧ v'.status = v.status := by
    intro j v hv
    have h := hstatus j
    rw [hv] at h
    exact Option.map_eq_some_iff.1 h
  refine ⟨hsound, hkeyed, ?_, ?_, ?_, hdrawn⟩
  · intro k j
    rw [hhas, hs.listed]
    constructor
    · rintro ⟨v, hv, rfl⟩
      obtain ⟨v', hv', h⟩ := hnew hv
      exact ⟨v', hv', (Sight.status_eq_iff.1 h).1⟩
    · rintro ⟨v', hv', rfl⟩
      obtain ⟨v, hv, h⟩ := hold hv'
      exact ⟨v, hv, (Sight.status_eq_iff.1 h).1⟩
  · intro t k j h
    obtain ⟨hid, hle, hmatch⟩ := hs.tickets t k j ((hexit (.finishExit t k j) trivial).1 h)
    refine ⟨hid, hinc ▸ hle, fun v' hv' hi => ?_⟩
    obtain ⟨v, hv, h⟩ := hold hv'
    obtain ⟨hk, hinc, hx⟩ := Sight.status_eq_iff.1 h
    rw [← hx, ← hk]
    exact hmatch v hv (hinc.trans hi)
  · intro j v' hv' hx'
    obtain ⟨v, hv, h⟩ := hold hv'
    obtain ⟨hk, hinc, hx⟩ := Sight.status_eq_iff.1 h
    rw [← hk, ← hinc]
    exact (hexit (.finishExit ..) trivial).2 (hs.exits j v hv (hx.trans hx'))

/-- To draw figures keeps the stage coherent, if what undoes an act is owed after it. -/
theorem Coherent.redraw {a : Act} (hs : s.Coherent (insert a owed)) (ha : ¬a.IsExit)
    (hundo : ∀ b, a.undo? = some b → b ∈ owed) : (s.perform now a).Coherent owed := by
  have hd := perform_redraws hs.sound hs.keyed now ha
  refine hs.repaint hd.sound hd.incarnations hd.status (hd.scene ▸ hs.keyed)
    (fun k j => by rw [hd.scene]) ?_ ?_
  · intro b hb
    rw [Set.mem_insert_iff, or_iff_right]
    rintro rfl
    exact ha hb
  · intro k j e f v' he hf hv' hx'
    rw [hd.scene] at he hf
    rw [hd.sight] at hv'
    cases hg : a.figure? s.scene j with
    | some g =>
      rw [hg] at hv'
      obtain ⟨v, _, rfl⟩ := Option.map_eq_some_iff.1 hv'
      -- The act draws this thing: as it follows from the scene, or so that its undoing restores it.
      have hx : v.exiting = false := by
        cases hx : v.exiting
        · rfl
        · simp [Sight.redrawn, hx] at hx'
      have hfigure : (v.redrawn g).figure = g := by simp [Sight.redrawn, hx]
      rw [hfigure]
      rcases Act.figure?_or_undo hs.keyed hs.exclusive hg he with h | ⟨b, hb, hr⟩
      · exact .inl (Option.some.inj (h.symm.trans hf))
      · exact .inr ⟨b, hundo b hb, hr⟩
    | none =>
      rw [hg] at hv'
      -- The act does not draw this thing, so it is not the act that was to restore it.
      rcases hs.drawn k j e f v' he hf hv' hx' with h | ⟨b, hb, hr⟩
      · exact .inl h
      · rcases Set.mem_insert_iff.1 hb with rfl | hb
        · rw [Act.figure?_of_restores hs.keyed he hr hf] at hg
          cases hg
        · exact .inr ⟨b, hb, hr⟩

/-- An exit that is owed takes its thing off the stage if it is still under way, and else changes
    nothing: the thing is gone, or another one has come in its place. -/
theorem Coherent.finishExit_cases {t : Ticket} {k : Kind}
    (hs : s.Coherent (insert (.finishExit t k id) owed)) (now : Nat) :
    (∀ v, s.presenter.sight? id = some v → v.incarnation ≠ t.incarnation) ∧
      s.finishExit now t k id = s ∨
    ∃ v, s.presenter.sight? id = some v ∧ v.exiting = true ∧ v.kind = k ∧
      s.finishExit now t k id = ⟨s.scene.erase k id, (s.presenter.discard now id).1⟩ := by
  obtain ⟨rfl, _, hmatch⟩ := hs.tickets t k id (Set.mem_insert _ _)
  unfold finishExit
  by_cases hstale : ∀ v, s.presenter.sight? t.id = some v → v.incarnation ≠ t.incarnation
  · rw [Presenter.finishExit_of_stale hs.sound hstale]
    exact .inl ⟨hstale, rfl⟩
  · simp only [not_forall, not_not] at hstale
    obtain ⟨v, hv, hi⟩ := hstale
    obtain ⟨hx, hk⟩ := hmatch v hv hi
    rw [Presenter.finishExit_of_match hv hi]
    exact .inr ⟨v, hv, hx, hk, rfl⟩

/-- Nothing of another kind has the identifier of a thing that is seen. -/
theorem Coherent.get?_eq_none (hs : s.Coherent owed) {v : Sight}
    (hv : s.presenter.sight? id = some v) {k : Kind} (hk : k ≠ v.kind) :
    s.scene.get? k id = none := by
  refine Scene.get?_eq_none_of_has ?_
  rw [Bool.eq_false_iff, Ne, hs.listed, hv]
  rintro ⟨v', hv', rfl⟩
  exact hk (by rw [Option.some.inj hv'])

theorem Coherent.exit {t : Ticket} {k : Kind}
    (hs : s.Coherent (insert (.finishExit t k id) owed)) :
    (s.finishExit now t k id).Coherent owed := by
  -- The exits of all other incarnations are still owed.
  have hlive : ∀ {j v}, s.presenter.sight? j = some v → v.exiting = true →
      (j = id → v.incarnation ≠ t.incarnation) →
      Act.finishExit ⟨j, v.incarnation⟩ v.kind j ∈ owed := by
    intro j v hv hx hne
    rcases Set.mem_insert_iff.1 (hs.exits j v hv hx) with heq | h
    · obtain ⟨rfl, _, rfl⟩ := Act.finishExit.inj heq
      exact absurd rfl (hne rfl)
    · exact h
  -- The act that is no longer owed restores nothing.
  have hrestores : ∀ {e : Entity}, (∃ a ∈ insert (Act.finishExit t k id) owed, a.Restores e) →
      ∃ a ∈ owed, a.Restores e := by
    rintro e ⟨a, ha, hr⟩
    rcases Set.mem_insert_iff.1 ha with rfl | ha
    · exact absurd hr (Act.not_restores_of_isExit trivial)
    · exact ⟨a, ha, hr⟩
  rcases hs.finishExit_cases now with ⟨hstale, heq⟩ | ⟨v, hv, _, rfl, heq⟩
  · rw [heq]
    refine ⟨hs.sound, hs.keyed, hs.listed, ?_, ?_, ?_⟩
    · intro t' k' j h
      exact hs.tickets t' k' j (Set.mem_insert_of_mem _ h)
    · intro j v hv hx
      exact hlive hv hx fun hj => hstale v (hj ▸ hv)
    · intro k' j e f v he hf hv hx
      rcases hs.drawn k' j e f v he hf hv hx with h | h
      · exact .inl h
      · exact .inr (hrestores h)
  · rw [heq]
    obtain ⟨hsound, hsight⟩ := Presenter.sound_discard hs.sound now id
    have hsome : ∀ {j v'}, (s.presenter.discard now id).1.sight? j = some v' →
        j ≠ id ∧ s.presenter.sight? j = some v' := by
      intro j v' hv'
      rw [hsight] at hv'
      split at hv'
      · cases hv'
      · next hj => exact ⟨hj, hv'⟩
    refine ⟨hsound, hs.keyed.erase _ _, ?_, ?_, ?_, ?_⟩
    · intro k' j
      rw [Scene.has, Scene.get?_erase, hsight]
      by_cases hj : j = id
      · subst hj
        by_cases hk : k' = v.kind
        · simp [hk]
        · simp [hk, hs.get?_eq_none hv hk]
      · simp only [hj, and_false, if_false]
        exact hs.listed k' j
    · intro t' k' j h
      obtain ⟨hid', hle, hmatch'⟩ := hs.tickets t' k' j (Set.mem_insert_of_mem _ h)
      refine ⟨hid', by rwa [Presenter.discard_incarnations], fun v' hv' => ?_⟩
      exact hmatch' v' (hsome hv').2
    · intro j v' hv' hx
      exact hlive (hsome hv').2 hx fun hj => absurd hj (hsome hv').1
    · intro k' j e f v' he hf hv' hx
      rw [Scene.get?_erase, if_neg fun h => (hsome hv').1 h.2] at he
      rcases hs.drawn k' j e f v' he (Scene.figureOf?_erase hf) (hsome hv').2 hx with h | h
      · exact .inl h
      · exact .inr (hrestores h)

/-- To perform an act that was owed keeps the stage coherent, if what undoes it is owed then. -/
theorem Coherent.perform {a : Act} (hs : s.Coherent (insert a owed))
    (hundo : ∀ b, a.undo? = some b → b ∈ owed) : (s.perform now a).Coherent owed := by
  cases a with
  | finishExit t k id => exact hs.exit
  | _ => exact hs.redraw (fun h => h) hundo

end Storyboard.Stage
