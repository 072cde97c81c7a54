import Storyboard.Proofs.Stage.Rest

/-! # Neat stages

    A stage is neat if its presenter agrees with its canvas, every identifier
    belongs to one thing that is kept under it, and edges are drawn among
    edges. Every operation of a stage keeps it neat; no acts need to be owed
    for that. Besides, the only acts that draw an edge are those that let it
    follow one of its ends (`Act.figure?_edge`). -/

namespace Storyboard

variable {s t : Scene} {id : EntityId} {e : Edge} {f : Figure}

/-- The figure of an edge lies in the layer of edges. -/
theorem Stage.edgeFigure?_layer (h : Stage.edgeFigure? s e = some f) : f.layer = .edges := by
  simp only [Stage.edgeFigure?] at h
  obtain ⟨a, _, h⟩ := Option.bind_eq_some_iff.1 h
  obtain ⟨b, _, h⟩ := Option.bind_eq_some_iff.1 h
  obtain rfl := Option.some.inj h
  rfl

/-- Everything in one scene is in another. -/
def Scene.Within (t s : Scene) : Prop := ∀ k id e, t.get? k id = some e → s.get? k id = some e

theorem Scene.within_refl (s : Scene) : s.Within s := fun _ _ _ h => h

theorem Scene.Within.trans {s t u : Scene} (h : t.Within s) (h' : u.Within t) : u.Within s :=
  fun k id e he => h k id e (h' k id e he)

/-! ### What acts draw -/

/-- What an act draws is in the scene: a node, a row, an edge that follows an end, or a pointer
    that follows its row. -/
theorem Act.figure?_cases {a : Act} (h : a.figure? s id = some f) :
    (∃ n, s.nodes.find? id = some n) ∨ (∃ r, s.rows.find? id = some r) ∨
    (∃ e, s.edges.find? id = some e ∧ Stage.edgeFigure? s e = some f ∧
      (a = .followNode e.source ∨ a = .followNode e.target)) ∨
    ∃ p r, s.pointers.find? id = some p ∧ s.rows.find? p.row = some r ∧
      r.hasCell p.index = true := by
  -- By the act: each looks for what it draws in its own table of the scene.
  cases a with
  | highlight j hl =>
    simp only [Act.figure?] at h
    split at h
    · next heq =>
      obtain ⟨n, hn, _⟩ := Option.map_eq_some_iff.1 h
      exact .inl ⟨n, heq ▸ hn⟩
    · cases h
  | tint j tints =>
    simp only [Act.figure?] at h
    split at h
    · next heq =>
      obtain ⟨r, hr, _⟩ := Option.map_eq_some_iff.1 h
      exact .inr (.inl ⟨r, heq ▸ hr⟩)
    · cases h
  | followNode j =>
    obtain ⟨e, he, h⟩ := Option.bind_eq_some_iff.1 h
    split at h
    · next hend =>
      refine .inr (.inr (.inl ⟨e, he, h, ?_⟩))
      rcases hend with rfl | rfl
      · exact .inl rfl
      · exact .inr rfl
    · cases h
  | followRow j =>
    obtain ⟨r, hr, h⟩ := Option.bind_eq_some_iff.1 h
    obtain ⟨p, hp, h⟩ := Option.bind_eq_some_iff.1 h
    split at h
    · next hcell =>
      obtain ⟨rfl, hcell⟩ := hcell
      exact .inr (.inr (.inr ⟨p, r, hp, hr, hcell⟩))
    · cases h
  | finishExit t k j => cases h

/-- No act draws an edge but those that let it follow its ends. -/
theorem Act.figure?_edge {a : Act} (ht : t.Within s) (hx : s.Exclusive)
    (he : s.edges.find? id = some e) (h : a.figure? t id = some f) :
    Stage.edgeFigure? t e = some f ∧ (a = .followNode e.source ∨ a = .followNode e.target) := by
  have honly : ∀ {k e'}, t.get? k id = some e' → k = .edge := fun hget =>
    hx _ _ id (Scene.has_of_get? (ht _ _ _ hget)) (Scene.has_of_get? (Scene.get?_edge.2 he))
  rcases Act.figure?_cases h with ⟨n, hn⟩ | ⟨r, hr⟩ | ⟨e', he', hdrawn⟩ | ⟨p, r, hp, _⟩
  · cases honly (Scene.get?_node.2 hn)
  · cases honly (Scene.get?_row.2 hr)
  · have hsame := ht _ _ _ (Scene.get?_edge.2 he')
    rw [Scene.get?_edge.2 he] at hsame
    cases hsame
    exact hdrawn
  · cases honly (Scene.get?_pointer.2 hp)

/-- No act draws a pointer that has lost its cell. -/
theorem Act.figure?_pointer {a : Act} {p : Pointer} (ht : t.Within s) (hx : s.Exclusive)
    (hp : s.pointers.find? id = some p) (h : a.figure? t id = some f) :
    ∃ r, t.rows.find? p.row = some r ∧ r.hasCell p.index = true := by
  have honly : ∀ {k e'}, t.get? k id = some e' → k = .pointer := fun hget =>
    hx _ _ id (Scene.has_of_get? (ht _ _ _ hget)) (Scene.has_of_get? (Scene.get?_pointer.2 hp))
  rcases Act.figure?_cases h with ⟨n, hn⟩ | ⟨r, hr⟩ | ⟨e, he, _⟩ | ⟨p', r, hp', hr, hcell⟩
  · cases honly (Scene.get?_node.2 hn)
  · cases honly (Scene.get?_row.2 hr)
  · cases honly (Scene.get?_edge.2 he)
  · have hsame := ht _ _ _ (Scene.get?_pointer.2 hp')
    rw [Scene.get?_pointer.2 hp] at hsame
    cases hsame
    exact ⟨r, hr, hcell⟩

/-! ### One kind for every identifier -/

/-- Only one kind is given an identifier of its own. -/
theorem Scene.Exclusive.put {e : Entity} (hs : s.Exclusive)
    (honly : ∀ k, s.has k e.id = true → k = e.kind) : (s.put e).Exclusive := by
  -- What is there now was there before under another id, or is what was put.
  have hhas : ∀ {k i}, (s.put e).has k i = true →
      i = e.id ∧ k = e.kind ∨ i ≠ e.id ∧ s.has k i = true := by
    intro k i h
    obtain ⟨e', he'⟩ := has_iff.1 h
    rw [get?_put] at he'
    split at he'
    · next hk => exact .inl ⟨hk.2, hk.1⟩
    · next hk =>
      have hold := has_of_get? he'
      by_cases hi : i = e.id
      · exact absurd ⟨honly k (hi ▸ hold), hi⟩ hk
      · exact .inr ⟨hi, hold⟩
  intro j k i hj hk
  rcases hhas hj with ⟨hi, rfl⟩ | ⟨hi, hj⟩
  · rcases hhas hk with ⟨_, rfl⟩ | ⟨hne, _⟩
    · rfl
    · exact absurd hi hne
  · rcases hhas hk with ⟨heq, _⟩ | ⟨_, hk⟩
    · exact absurd heq hi
    · exact hs j k i hj hk

theorem Scene.Exclusive.congr (hs : s.Exclusive) (h : ∀ k i, t.has k i = s.has k i) :
    t.Exclusive := by
  intro j k i hj hk
  rw [h] at hj hk
  exact hs j k i hj hk

theorem Scene.Exclusive.erase (hs : s.Exclusive) (k : Kind) (i : EntityId) :
    (s.erase k i).Exclusive := by
  have hhas : ∀ {j id}, (s.erase k i).has j id = true → s.has j id = true := by
    intro j id h
    obtain ⟨e, he⟩ := has_iff.1 h
    rw [get?_erase] at he
    split at he
    · cases he
    · exact has_of_get? he
  exact fun j l id hj hl => hs j l id (hhas hj) (hhas hl)

namespace Stage

/-- The presenter and its canvas agree, the scene is in order, and edges are drawn among edges. -/
structure Neat (s : Stage) : Prop where
  sound     : s.presenter.Sound
  keyed     : s.scene.Keyed
  exclusive : s.scene.Exclusive
  lined     : ∀ id e v, s.scene.edges.find? id = some e → s.presenter.sight? id = some v →
    v.figure.layer = .edges

variable {s s' t t' : Stage} {now now' : Nat} {a : Act}

/-- Figures are drawn by an act. -/
theorem Neat.redrawn (h : s.Neat) (hd : Redrawn s t (a.figure? s.scene)) : t.Neat := by
  refine ⟨hd.sound, hd.scene ▸ h.keyed, hd.scene ▸ h.exclusive, fun id e v' he hv' => ?_⟩
  rw [hd.scene] at he
  rw [hd.sight] at hv'
  cases hf : a.figure? s.scene id with
  | none =>
    rw [hf] at hv'
    exact h.lined id e v' he hv'
  | some f =>
    rw [hf] at hv'
    obtain ⟨v, hv, rfl⟩ := Option.map_eq_some_iff.1 hv'
    obtain ⟨hfigure, _⟩ := Act.figure?_edge s.scene.within_refl h.exclusive he hf
    unfold Sight.redrawn
    split
    · exact h.lined id e v he hv
    · exact edgeFigure?_layer hfigure

/-- A thing enters, drawn as it follows from the scene. -/
theorem Neat.enter {e : Entity} {f : Figure} {enter : Transition} (h : s.Neat)
    (henter : s.enter now e f enter = .ok t) (hf : (s.scene.put e).figureOf? e = some f) :
    t.Neat := by
  unfold Stage.enter at henter
  split at henter
  · cases henter
  next scene hinsert =>
  cases henter
  obtain ⟨rfl, honly⟩ := Scene.insert_eq_ok h.exclusive hinsert
  obtain ⟨hsound, hsight⟩ := Presenter.sound_present h.sound now e.kind e.id f enter
  -- What is seen of an edge is in the layer of edges: of the one that enters by its figure, of the
  -- others as before.
  refine ⟨hsound, h.keyed.put e, h.exclusive.put honly, fun id edge v hedge hv => ?_⟩
  have hget := Scene.get?_edge.2 hedge
  rw [Scene.get?_put] at hget
  rw [hsight] at hv
  split at hv
  · next hid =>
    cases hv
    split at hget
    · cases hget
      exact edgeFigure?_layer hf
    · next hk =>
      have hkind := honly .edge (hid ▸ Scene.has_of_get? hget)
      exact absurd ⟨hkind, hid⟩ hk
  · next hid =>
    rw [if_neg fun hk => hid hk.2] at hget
    exact h.lined id edge v (Scene.get?_edge.1 hget) hv

/-- The scene changes, but no edge does. -/
theorem Neat.rescene {scene : Scene} (h : s.Neat) (hkeyed : scene.Keyed)
    (hhas : ∀ k i, scene.has k i = s.scene.has k i) (hedges : scene.edges = s.scene.edges) :
    Neat { s with scene } :=
  ⟨h.sound, hkeyed, h.exclusive.congr hhas, fun id e v he hv => h.lined id e v (hedges ▸ he) hv⟩

/-- A thing is taken elsewhere. -/
theorem Neat.move (h : s.Neat) (now : Nat) (id : EntityId) (destination : Point)
    (transition : Transition) :
    Neat { s with presenter := (s.presenter.move now id destination transition).1 } := by
  obtain ⟨hsound, hsight⟩ := Presenter.sound_move h.sound now id destination transition
  refine ⟨hsound, h.keyed, h.exclusive, fun j e v' he hv' => ?_⟩
  rw [hsight] at hv'
  split at hv'
  · next hj =>
    obtain ⟨v, hv, rfl⟩ := Option.map_eq_some_iff.1 hv'
    have hlayer := h.lined j e v he (hj ▸ hv)
    unfold Sight.relocated
    split <;> exact hlayer
  · exact h.lined j e v' he hv'

/-- A thing begins to leave. -/
theorem Neat.beginExit (h : s.Neat) (now : Nat) (id : EntityId) (transition : Transition) :
    Neat { s with presenter := (s.presenter.beginExit now id transition).1 } := by
  rcases s.presenter.stays_or_leaves id with ⟨v, hv, hx⟩ | hgone
  · obtain ⟨_, _, hsound, hsight⟩ := Presenter.beginExit_of_staying h.sound now transition hv hx
    refine ⟨hsound, h.keyed, h.exclusive, fun j e v' he hv' => ?_⟩
    rw [hsight] at hv'
    split at hv'
    · next hj =>
      cases hv'
      have hlayer := h.lined j e v he (hj ▸ hv)
      unfold Presenter.leaving
      split <;> exact hlayer
    · exact h.lined j e v' he hv'
  · rw [Presenter.beginExit_of_not_staying h.sound transition hgone]
    exact h

/-- A thing is gone. -/
theorem Neat.finishExit (h : s.Neat) (now : Nat) (ticket : Ticket) (k : Kind) (id : EntityId) :
    (s.finishExit now ticket k id).Neat := by
  unfold Stage.finishExit
  by_cases hmatch : ∃ v, s.presenter.sight? ticket.id = some v ∧
      v.incarnation = ticket.incarnation
  · obtain ⟨v, hv, heq⟩ := hmatch
    rw [Presenter.finishExit_of_match hv heq]
    obtain ⟨hsound, hsight⟩ := Presenter.sound_discard h.sound now ticket.id
    refine ⟨hsound, h.keyed.erase k id, h.exclusive.erase k id, fun j e v' he hv' => ?_⟩
    have hget := Scene.get?_edge.2 he
    rw [Scene.get?_erase] at hget
    rw [hsight] at hv'
    split at hget
    · cases hget
    · split at hv'
      · cases hv'
      · exact h.lined j e v' (Scene.get?_edge.1 hget) hv'
  · rw [Presenter.finishExit_of_stale h.sound fun v hv heq => hmatch ⟨v, hv, heq⟩]
    exact h

theorem Neat.perform (h : s.Neat) (now : Nat) (a : Act) : (s.perform now a).Neat := by
  cases a with
  | finishExit ticket k id => exact h.finishExit now ticket k id
  | _ => exact h.redrawn (perform_redraws h.sound h.keyed now (by rintro ⟨⟩))

end Stage

end Storyboard
