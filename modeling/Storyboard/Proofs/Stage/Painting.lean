import Storyboard.Proofs.Drawing.Ranks
import Storyboard.Proofs.Stage.Telling

/-! # What is painted when commands are told twice

    However lists of commands are told one after another, the same items lie
    above one another in the same order on the canvas in the end, with the same
    figures. The only ones that may differ are those of edges that have lost an
    end and were torn on the way (`Staged.forall₂_stacked`). -/

namespace Storyboard

/-- Two items are of the same thing in the same layer, and unless it is excepted they have the same
    figure. -/
structure Item.Like (excepted : Prop) (i j : Item) : Prop where
  kind   : i.kind = j.kind
  id     : i.id = j.id
  layer  : i.figure.layer = j.figure.layer
  figure : ¬excepted → i.figure = j.figure

/-! ### The order of what was performed -/

namespace Presenter.Kept

open Stage

variable {I : Presenter → Prop} {A : Set Act} {s s' : Stage} {commands : List Json}

theorem acted (hI : Kept I) (h : Acted A s s') (hs : I s.presenter) : I s'.presenter := by
  induction h with
  | refl => exact hs
  | act now _ _ ih => exact ih (hI.perform hs now _)

theorem startAll (hI : Kept I) (h : I s.presenter) (now : Nat) (pacing : Pacing)
    (commands : List Json) : I (Course.startAll now pacing s commands).1.presenter := by
  induction commands generalizing s with
  | nil => exact h
  | cons command rest ih => exact ih (hI.start h now pacing command)

theorem performed (hI : Kept I) (h : Performed s commands s') (hs : I s.presenter) :
    I s'.presenter := by
  obtain ⟨p, hperforming, _⟩ := h
  obtain ⟨⟨start, pacing, hacted⟩, _⟩ := hperforming.acted
  exact hI.acted hacted (hI.startAll hs start pacing commands)

end Presenter.Kept

namespace Stage

variable {base base' : Nat} {lost : Edge → Prop} {lists : List (List Json)} {s s' : Stage}

theorem Staged.ranked (h : Staged lists s) : s.presenter.Ranked := by
  have hboth : s.presenter.Sound ∧ s.presenter.Ranked := by
    induction h with
    | blank h => exact ⟨h.coherent.sound, Presenter.ranked_of_empty h.live⟩
    | snoc _ hp ih => exact Presenter.kept_ranked.performed hp ih
  exact hboth.2

/-! ### The order between segments -/

namespace Interleaving

end Interleaving

/-! ### The items of stages that are alike -/

/-- On stages that are alike things were shown in the same order. -/
theorem Alike.ids_eq (h : Alike base base' lost s s') (hs : s.presenter.Ranked)
    (hs' : s'.presenter.Ranked) :
    s.presenter.canvas.items.values.map (·.id) = s'.presenter.canvas.items.values.map (·.id) := by
  have hseen : ∀ {id v'}, s'.presenter.sight? id = some v' →
      ∃ v, s.presenter.sight? id = some v ∧ v'.incarnation + base = v.incarnation + base' := by
    intro id v' hv'
    have hrel := h.sights id
    rw [hv'] at hrel
    generalize hv : s.presenter.sight? id = o at hrel
    cases hrel with
    | some hlike => exact ⟨_, rfl, hlike.incarnation⟩
  refine Presenter.ids_eq h.neat.sound h.neat'.sound hs hs' (fun id => ?_) ?_
  · have hrel := h.sights id
    generalize s.presenter.sight? id = o at hrel
    generalize s'.presenter.sight? id = o' at hrel
    cases hrel <;> simp
  · rintro i j ⟨v', w', hv', hw', hlt⟩
    obtain ⟨v, hv, hinc⟩ := hseen hv'
    obtain ⟨w, hw, hinc'⟩ := hseen hw'
    exact ⟨v, w, hv, hw, by omega⟩

/-- An edge that lacks an end and was torn by one of some lists of commands. -/
def Frayed (s : Scene) (lists : List (List Json)) (id : EntityId) : Prop :=
  ∃ e, s.edges.find? id = some e ∧ edgeFigure? s e = none ∧ TornIn lists e

/-- The items of a thing on two stages where nothing is owed. -/
theorem Alike.like_of_id (h : Alike base base' (TornIn lists) s s') (hs : s.Coherent ∅)
    (hs' : s'.Coherent ∅) {i j : Item} (hi : i ∈ s.presenter.canvas.items.values)
    (hj : j ∈ s'.presenter.canvas.items.values) (hid : i.id = j.id) :
    i.Like (Frayed s.scene lists i.id) j := by
  obtain ⟨v, hv, hkind, hfigure⟩ := h.neat.sound.sight?_of_item hi
  obtain ⟨v', hv', hkind', hfigure'⟩ := h.neat'.sound.sight?_of_item hj
  rw [← hid] at hv'
  have hrel := h.sights i.id
  rw [hv, hv'] at hrel
  cases hrel with
  | some hlike =>
    have hstays := hs.exiting_eq_false hv
    have hsame : ¬Frayed s.scene lists i.id → i.figure = j.figure := by
      intro hwhole
      rw [← hfigure, ← hfigure']
      by_cases hlost : IsEdge s.scene (TornIn lists) i.id
      · -- A torn edge that has both its ends follows them.
        obtain ⟨e, he, htorn⟩ := hlost
        have hget := Scene.get?_edge.2 he
        cases hf : edgeFigure? s.scene e with
        | none => exact absurd ⟨e, he, hf, htorn⟩ hwhole
        | some f =>
          rw [hs.figure_eq hget hf hv, hs'.figure_eq (h.scene ▸ hget) (h.scene ▸ hf) hv']
      · exact (hlike.figure hstays hlost).symm
    refine ⟨?_, hid, ?_, hsame⟩
    · rw [← hkind, ← hkind', hlike.kind]
    · by_cases hfrayed : Frayed s.scene lists i.id
      · obtain ⟨e, he, _⟩ := hfrayed
        rw [← hfigure, ← hfigure', h.neat.lined _ e v he hv,
          h.neat'.lined _ e v' (h.scene ▸ he) hv']
      · rw [hsame hfrayed]

/-- On stages that are alike and where nothing is owed the same is painted in the same order, but
    for the figures of edges that lack an end and were torn. -/
theorem Alike.forall₂_stacked (h : Alike base base' (TornIn lists) s s') (hs : s.Coherent ∅)
    (hs' : s'.Coherent ∅) (hranked : s.presenter.Ranked) (hranked' : s'.presenter.Ranked) :
    List.Forall₂ (fun i j => i.Like (Frayed s.scene lists i.id) j)
      s.presenter.canvas.stacked s'.presenter.canvas.stacked := by
  have hvalues := Presenter.forall₂_values (h.ids_eq hranked hranked')
    fun i hi j hj => h.like_of_id hs hs' hi hj
  have hlayer : ∀ l, List.Forall₂ (fun i j => i.Like (Frayed s.scene lists i.id) j)
      (s.presenter.canvas.inLayer l) (s'.presenter.canvas.inLayer l) := by
    intro l
    refine List.rel_filter (fun i j hij => ?_) hvalues
    dsimp only
    rw [hij.layer]
  exact List.rel_append (List.rel_append (hlayer _) (hlayer _)) (hlayer _)

/-- However lists of commands are told, the same is painted in the same order, but for the figures
    of edges that lack an end and were torn. -/
theorem Staged.forall₂_stacked (h : Staged lists s) (h' : Staged lists s') :
    List.Forall₂ (fun i j => i.Like (Frayed s.scene lists i.id) j)
      s.presenter.canvas.stacked s'.presenter.canvas.stacked := by
  obtain ⟨base, base', halike⟩ := h.alike h'
  exact halike.forall₂_stacked h.coherent h'.coherent h.ranked h'.ranked

end Stage

end Storyboard
