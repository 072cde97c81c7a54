import Storyboard.Proofs.Stage.Coherence

/-! # Changes of a coherent stage

    What commands do at once: things enter, change, move and begin to leave.
    Each of these keeps the stage coherent, with some more acts owed: those
    that draw what depends on the thing, and the one that finishes its exit. -/

namespace Storyboard

/-- The acts that draw what depends on a thing. -/
def Entity.followers : Entity → Set Act
  | .node n => {.followNode n.id}
  | .row r => {.followRow r.id}
  | _ => ∅

namespace Stage

variable {s s' : Stage} {owed : Set Act} {now : Nat} {id : EntityId}

/-! ### The beginning -/

theorem coherent_empty : empty.Coherent ∅ := by
  refine ⟨Presenter.sound_of_empty rfl rfl, Scene.keyed_empty, ?_, ?_, ?_, ?_⟩
  · intro k id
    simp [empty, Scene.has]
  · intro t k id h
    cases h
  · intro id v hv
    cases hv
  · intro k id e f v he
    simp [empty] at he

/-- Nothing that is owed matters to an empty stage. -/
theorem Coherent.reset (hs : s.Coherent owed) : (s.reset now).Coherent owed := by
  refine ⟨Presenter.sound_of_empty rfl rfl, Scene.keyed_empty, ?_, ?_, ?_, ?_⟩
  · intro k id
    simp [Stage.reset, Scene.has]
  · intro t k id h
    obtain ⟨hid, hle, _⟩ := hs.tickets t k id h
    exact ⟨hid, hle, fun v hv => by cases hv⟩
  · intro id v hv
    cases hv
  · intro k id e f v he
    simp [Stage.reset] at he

/-! ### Entering -/

/-- A thing that enters changes the figures of those that depend on it only. -/
theorem figureOf?_put {s : Scene} {e e' : Entity} (h : ¬∃ a ∈ e.followers, a.Restores e') :
    (s.put e).figureOf? e' = s.figureOf? e' := by
  refine Scene.figureOf?_congr ?_ ?_
  · intro i hi
    cases e with
    | node n =>
      have hne : i ≠ n.id := by
        rintro rfl
        exact h ⟨_, rfl, hi⟩
      simp only [Scene.put, Table.find?_insert, if_neg hne]
    | _ => rfl
  · intro i hi
    cases e with
    | row r =>
      have hne : i ≠ r.id := by
        rintro rfl
        exact h ⟨_, rfl, hi⟩
      simp only [Scene.put, Table.find?_insert, if_neg hne]
    | _ => rfl

/-- A thing that enters is drawn as it follows from the scene; what depends on it will be. -/
theorem Coherent.enter {e : Entity} {f : Figure} {t : Transition} (hs : s.Coherent owed)
    (h : s.enter now e f t = .ok s') (hf : (s.scene.put e).figureOf? e = some f)
    (howed : e.followers ⊆ owed) : s'.Coherent owed := by
  unfold Stage.enter at h
  split at h
  · cases h
  next scene hscene =>
  obtain rfl := Except.ok.inj h
  obtain ⟨rfl, honly⟩ := Scene.insert_eq_ok hs.exclusive hscene
  obtain ⟨hsound, hsight⟩ := Presenter.sound_present hs.sound now e.kind e.id f t
  -- Under the identifier of the thing there is nothing of another kind.
  have hother : ∀ {k j}, ¬(k = e.kind ∧ j = e.id) → j = e.id → s.scene.get? k j = none := by
    intro k j hne hj
    refine Scene.get?_eq_none_of_has ?_
    rw [Bool.eq_false_iff]
    intro hk
    exact hne ⟨honly k (hj ▸ hk), hj⟩
  refine ⟨hsound, hs.keyed.put e, ?_, ?_, ?_, ?_⟩
  · intro k j
    rw [Scene.has, Scene.get?_put, hsight]
    by_cases hj : j = e.id
    · by_cases hk : k = e.kind
      · simp [hj, hk]
      · rw [if_neg fun h => hk h.1, hother (fun h => hk h.1) hj, if_pos hj]
        simpa using fun h : e.kind = k => hk h.symm
    · simp only [hj, and_false, if_false]
      exact hs.listed k j
  · intro t k j h
    obtain ⟨hid, hle, hmatch⟩ := hs.tickets t k j h
    dsimp only
    rw [Presenter.present_incarnations]
    refine ⟨hid, Nat.le_succ_of_le hle, fun v hv hi => ?_⟩
    rw [hsight] at hv
    split at hv
    · obtain rfl := Option.some.inj hv
      -- A new incarnation is the latest one, and the tickets are for earlier ones.
      dsimp only at hi
      omega
    · exact hmatch v hv hi
  · intro j v hv hx
    rw [hsight] at hv
    split at hv
    · obtain rfl := Option.some.inj hv
      cases hx
    · exact hs.exits j v hv hx
  · intro k j e' f' v he hf' hv hx
    rw [Scene.get?_put] at he
    rw [hsight] at hv
    by_cases hj : j = e.id
    · rw [if_pos hj] at hv
      obtain rfl := Option.some.inj hv
      split at he
      · obtain rfl := Option.some.inj he
        exact .inl (Option.some.inj (hf.symm.trans hf'))
      · next hne =>
        rw [hother hne hj] at he
        cases he
    · rw [if_neg fun h => hj h.2] at he
      rw [if_neg hj] at hv
      by_cases hfollow : ∃ a ∈ e.followers, a.Restores e'
      -- Either the thing depends on the one that enters, or its figure is what it was.
      · obtain ⟨a, ha, hr⟩ := hfollow
        exact .inr ⟨a, howed ha, hr⟩
      · dsimp only at hf'
        rw [figureOf?_put hfollow] at hf'
        exact hs.drawn k j e' f' v he hf' hv hx

/-! ### Changing -/

/-- The scene changes, and whatever is to be drawn otherwise will be. -/
theorem Coherent.rescene {t : Scene} (hs : s.Coherent owed) (hkeyed : t.Keyed)
    (hhas : ∀ k j, t.has k j = s.scene.has k j)
    (hget : ∀ k j e, t.get? k j = some e → (∃ a ∈ owed, a.Restores e) ∨
      s.scene.get? k j = some e ∧ t.figureOf? e = s.scene.figureOf? e) :
    Coherent { s with scene := t } owed := by
  refine hs.repaint hs.sound rfl (fun _ => rfl) hkeyed hhas (fun _ _ => Iff.rfl) ?_
  intro k j e f v he hf hv hx
  rcases hget k j e he with h | ⟨hold, hfigure⟩
  · exact .inr h
  · exact hs.drawn k j e f v hold (hfigure ▸ hf) hv hx

/-- A node that stays in its place changes. -/
theorem Coherent.modifyNode {f : Node → Node} (hs : s.Coherent owed)
    (howed : Act.highlight id none ∈ owed) (hid : ∀ n, (f n).id = n.id)
    (hposition : ∀ n, (f n).position = n.position) :
    Coherent { s with scene := s.scene.modifyNode id f } owed := by
  refine hs.rescene (hs.keyed.modifyNode hid) (Scene.has_modifyNode _ _ _) ?_
  intro k j e he
  rw [Scene.get?_modifyNode] at he
  split at he
  · obtain ⟨n, hn, rfl⟩ := Option.map_eq_some_iff.1 he
    have hkey : (f n).id = id := (hid n).trans (hs.keyed .node id _ (Scene.get?_node.2 hn))
    exact .inl ⟨_, howed, congrArg (Act.highlight · none) hkey.symm⟩
  · refine .inr ⟨he, Scene.figureOf?_congr ?_ fun _ _ => rfl⟩
    intro i _
    simp only [Scene.modifyNode, Table.find?_modify]
    split
    · rw [Option.map_map]
      exact congrArg (Option.map · _) (funext hposition)
    · rfl

/-- A row that stays in its place and keeps its length changes. -/
theorem Coherent.modifyRow {f : Row → Row} (hs : s.Coherent owed)
    (howed : Act.tint id [] ∈ owed) (hid : ∀ r, (f r).id = r.id)
    (hplace : ∀ r, ((f r).anchor, (f r).cells.length) = (r.anchor, r.cells.length)) :
    Coherent { s with scene := s.scene.modifyRow id f } owed := by
  refine hs.rescene (hs.keyed.modifyRow hid) (Scene.has_modifyRow _ _ _) ?_
  intro k j e he
  rw [Scene.get?_modifyRow] at he
  split at he
  · obtain ⟨r, hr, rfl⟩ := Option.map_eq_some_iff.1 he
    have hkey : (f r).id = id := (hid r).trans (hs.keyed .array id _ (Scene.get?_row.2 hr))
    exact .inl ⟨_, howed, congrArg (Act.tint · []) hkey.symm⟩
  · refine .inr ⟨he, Scene.figureOf?_congr (fun _ _ => rfl) ?_⟩
    intro i _
    simp only [Scene.modifyRow, Table.find?_modify]
    split
    · rw [Option.map_map]
      exact congrArg (Option.map · _) (funext hplace)
    · rfl

/-- A node moves, and its figure with it; its edges are to follow. -/
theorem Coherent.move (hs : s.Coherent owed) (howed : Act.followNode id ∈ owed)
    (hnode : s.scene.has .node id = true) (destination : Point) (t : Transition) :
    Coherent ⟨s.scene.modifyNode id fun n => { n with position := destination },
      (s.presenter.move now id destination t).1⟩ owed := by
  obtain ⟨hsound, hsight⟩ := Presenter.sound_move hs.sound now id destination t
  refine hs.repaint hsound Presenter.apply_incarnations
    (Presenter.status_move hs.sound now id destination t)
    (hs.keyed.modifyNode fun _ => rfl) (Scene.has_modifyNode _ _ _) (fun _ _ => Iff.rfl) ?_
  intro k j e f v he hf hv hx
  dsimp only at he hf hv
  rw [Scene.get?_modifyNode] at he
  rw [hsight] at hv
  by_cases hj : j = id
  · subst hj
    rw [if_pos rfl] at hv
    obtain ⟨v₀, hv₀, rfl⟩ := Option.map_eq_some_iff.1 hv
    have hx₀ : v₀.exiting = false := by
      rw [← hx]
      exact ((Sight.status_eq_iff.1 (Sight.status_relocated destination v₀)).2.2).symm
    -- What is seen moves as the node does, and a figure that was to be restored still is.
    have hrelocated : (v₀.relocated destination).figure =
        { v₀.figure with origin := destination } := by
      simp [Sight.relocated, hx₀]
    split at he
    · obtain ⟨n, hn, rfl⟩ := Option.map_eq_some_iff.1 he
      rcases hs.drawn .node j (.node n) _ v₀ (Scene.get?_node.2 hn) rfl hv₀ hx₀ with h | h
      · left
        rw [hrelocated, h]
        exact Option.some.inj hf
      · exact .inr h
    · next hk => exact absurd ⟨hs.exclusive k .node j (Scene.has_of_get? he) hnode, rfl⟩ hk
  · rw [if_neg fun h => hj h.2] at he
    rw [if_neg hj] at hv
    by_cases hfollow : (Act.followNode id).Restores e
    · exact .inr ⟨_, howed, hfollow⟩
    · refine hs.drawn k j e f v he (hf ▸ Scene.figureOf?_congr ?_ fun _ _ => rfl) hv hx
      intro i hi
      have hne : i ≠ id := by
        rintro rfl
        exact hfollow hi
      simp only [Scene.modifyNode, Table.find?_modify, if_neg hne]

/-! ### Leaving -/

/-- A thing begins to leave; its exit is to be finished. -/
theorem Coherent.beginExit {v : Sight} (hs : s.Coherent owed) (now : Nat) (t : Transition)
    (hv : s.presenter.sight? id = some v) (hx : v.exiting = false) :
    Coherent { s with presenter := (s.presenter.beginExit now id t).1 }
      (insert (.finishExit ⟨id, v.incarnation⟩ v.kind id) owed) := by
  obtain ⟨_, hinc, hsound, hsight⟩ := Presenter.beginExit_of_staying hs.sound now t hv hx
  refine ⟨hsound, hs.keyed, ?_, ?_, ?_, ?_⟩
  · intro k j
    dsimp only
    rw [hs.listed, hsight]
    split
    · next hj => simp [hj, hv]
    · rfl
  · intro t' k j h
    dsimp only
    rw [hinc]
    rcases Set.mem_insert_iff.1 h with heq | h
    · obtain ⟨rfl, rfl, rfl⟩ := Act.finishExit.inj heq
      refine ⟨rfl, hs.sound.incarnation_le hv, fun v' hv' _ => ?_⟩
      rw [hsight, if_pos rfl] at hv'
      obtain rfl := Option.some.inj hv'
      exact ⟨rfl, rfl⟩
    · obtain ⟨hid, hle, hmatch⟩ := hs.tickets t' k j h
      refine ⟨hid, hle, fun v' hv' hi => ?_⟩
      rw [hsight] at hv'
      split at hv'
      · next hj =>
        obtain rfl := Option.some.inj hv'
        -- No ticket was good for this incarnation before, since it was not on its way out.
        have hgone := (hmatch v (hj ▸ hv) hi).1
        rw [hx] at hgone
        cases hgone
      · exact hmatch v' hv' hi
  · intro j v' hv' hx'
    rw [hsight] at hv'
    split at hv'
    · next hj =>
      obtain rfl := Option.some.inj hv'
      rw [hj]
      exact Set.mem_insert _ _
    · exact Set.mem_insert_of_mem _ (hs.exits j v' hv' hx')
  · intro k j e f v' he hf hv' hx'
    rw [hsight] at hv'
    split at hv'
    · obtain rfl := Option.some.inj hv'
      cases hx'
    · rcases hs.drawn k j e f v' he hf hv' hx' with h | ⟨a, ha, hr⟩
      · exact .inl h
      · exact .inr ⟨a, Set.mem_insert_of_mem _ ha, hr⟩

end Stage

end Storyboard
