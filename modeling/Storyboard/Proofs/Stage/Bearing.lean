import Storyboard.Proofs.Drawing.Items
import Storyboard.Proofs.Stage.Agenda
import Storyboard.Proofs.Stage.Cues

/-! # What becomes of a motion

    A node that stays is drawn by one item, and that item may be on the move.
    Whatever happens on the stage either leaves the motion of the item as it is
    or ends it, and it is only ended by what draws this very node afresh
    (`Carries`). Acts do so if they highlight the node, and commands if they
    update it, put it elsewhere or highlight it as they open
    (`carries_enact`, `carries_opening`). -/

namespace Storyboard

open Stage

namespace Stage

/-- A node stays on the stage. Its item is drawn where the node is, but for this motion. -/
structure Bears (s : Stage) (n : EntityId) (m : Option Stamp) : Prop where
  sound     : s.presenter.Sound
  keyed     : s.scene.Keyed
  exclusive : s.scene.Exclusive
  item      : ∃ i node, s.presenter.stayingItem? n = some i ∧ s.scene.nodes.find? n = some node ∧
    i.motion = m ∧ i.figure.origin = node.position

/-- From one stage to another, the item of a node that stays keeps its motion, unless the node is
    drawn afresh, which ends the motion. -/
def Carries (n : EntityId) (redrawn : Prop) (s s' : Stage) : Prop :=
  ∀ m, s.Bears n m → (redrawn → s'.Bears n none) ∧ (¬redrawn → s'.Bears n m)

variable {s s' s'' : Stage} {n id : EntityId} {m : Option Stamp} {r r' : Prop} {now : Nat}
  {k : Kind} {tag : CommandTag} {cues : List (List Cue)}

theorem Bears.has_node (h : s.Bears n m) : s.scene.has .node n = true := by
  obtain ⟨_, node, _, hnode, _⟩ := h.item
  exact Scene.has_node_iff.2 ⟨node, hnode⟩

/-- Nothing else has the identifier of the node. -/
theorem Bears.ne_of_has (h : s.Bears n m) (hk : s.scene.has k id = true) (hkind : k ≠ .node) :
    id ≠ n := by
  rintro rfl
  exact hkind (h.exclusive _ _ id hk h.has_node)

namespace Carries

theorem refl (n : EntityId) (s : Stage) : Carries n False s s :=
  fun _ h => ⟨False.elim, fun _ => h⟩

theorem congr (h : Carries n r s s') (hr : r ↔ r') : Carries n r' s s' :=
  fun m hm => ⟨fun hr' => (h m hm).1 (hr.2 hr'), fun hr' => (h m hm).2 fun hold => hr' (hr.1 hold)⟩

theorem trans (h : Carries n r s s') (h' : Carries n r' s' s'') : Carries n (r ∨ r') s s'' := by
  intro m hm
  obtain ⟨hends, hkeeps⟩ := h m hm
  constructor
  · rintro hor
    by_cases hr : r
    · -- A motion that has ended stays so, whether the node is drawn once more or not.
      by_cases hr' : r'
      · exact (h' _ (hends hr)).1 hr'
      · exact (h' _ (hends hr)).2 hr'
    · exact (h' _ (hkeeps hr)).1 (hor.resolve_left hr)
  · intro hnot
    exact (h' _ (hkeeps fun hr => hnot (.inl hr))).2 fun hr' => hnot (.inr hr')

/-- What is to be shown may be shown for the stages only that bear the node. -/
theorem of_bears (h : ∀ m, s.Bears n m → Carries n r s s') : Carries n r s s' :=
  fun m hm => h m hm m hm

/-- The motion is kept on every stage that bears the node. -/
theorem of_keeps (h : ∀ m, s.Bears n m → s'.Bears n m) : Carries n False s s' :=
  fun m hm => ⟨False.elim, fun _ => h m hm⟩

/-- The motion is kept by many steps if every one keeps it. -/
theorem foldl {α : Type} {step : Stage → α → Stage} {l : List α}
    (hstep : ∀ x ∈ l, ∀ s, Carries n False s (step s x)) : Carries n False s (l.foldl step s) := by
  induction l generalizing s with
  | nil => exact refl n s
  | cons x l ih =>
    obtain ⟨hx, hl⟩ := List.forall_mem_cons.1 hstep
    exact ((hx s).trans (ih hl)).congr (or_self_iff ..)

end Carries

/-! ### Drawing afresh -/

/-- To draw a thing ends its motion, and no other. -/
theorem carries_redraw (now : Nat) {f : Figure}
    (hf : ∀ node, s.scene.nodes.find? n = some node → id = n → f.origin = node.position) :
    Carries n (id = n) s (s.redraw now id f) := by
  intro m h
  obtain ⟨i, node, hi, hnode, hmotion, hplace⟩ := h.item
  have hsound := (Presenter.sound_refresh h.sound now id f .cut).1
  have hitem := Presenter.stayingItem?_refresh h.sound now id f .cut n
  constructor
  · rintro rfl
    refine ⟨hsound, h.keyed, h.exclusive, Canvas.redraw now f .cut i, node, hitem.trans ?_, hnode,
      rfl, hf node hnode rfl⟩
    rw [if_pos rfl, hi, Option.map_some]
  · intro hid
    refine ⟨hsound, h.keyed, h.exclusive, i, node, hitem.trans ?_, hnode, hmotion, hplace⟩
    rw [if_neg (Ne.symm hid), hi]

/-- To draw anything but the node keeps the motion. -/
theorem carries_redraw_other (now : Nat) (f : Figure) (hid : id ≠ n) :
    Carries n False s (s.redraw now id f) :=
  (carries_redraw now fun _ _ heq => absurd heq hid).congr (iff_false_intro hid)

theorem carries_redrawNode (now : Nat) (id : EntityId) (h : Option Highlight) :
    Carries n (id = n) s (s.redrawNode now id h) := by
  unfold redrawNode
  cases hfound : s.scene.nodes.find? id with
  | some node =>
    refine carries_redraw now fun node' hnode' hid => ?_
    rw [hid, hnode'] at hfound
    rw [Option.some.inj hfound]
    rfl
  | none =>
    refine .of_bears fun m hm => (Carries.refl n s).congr (iff_of_false not_false fun hid => ?_)
    obtain ⟨_, node, _, hnode, _⟩ := hm.item
    rw [hid, hnode] at hfound
    cases hfound

theorem carries_redrawRow (now : Nat) (id : EntityId) (tints : List (Nat × Color)) :
    Carries n False s (s.redrawRow now id tints) := by
  unfold redrawRow
  cases hrow : s.scene.rows.find? id with
  | none => exact .refl n s
  | some row =>
    refine .of_bears fun m hm => carries_redraw_other now _ ?_
    exact hm.ne_of_has (Scene.has_of_get? (Scene.get?_row.2 hrow)) (by rintro ⟨⟩)

theorem carries_followNode (now : Nat) (id : EntityId) :
    Carries n False s (s.followNode now id) := by
  refine Carries.foldl fun j _ t => ?_
  unfold followEdge
  cases hedge : t.scene.edges.find? j with
  | none => exact .refl n t
  | some edge =>
    dsimp only [Option.bind_some]
    split
    · refine .of_bears fun m hm => carries_redraw_other now _ ?_
      exact hm.ne_of_has (Scene.has_of_get? (Scene.get?_edge.2 hedge)) (by rintro ⟨⟩)
    · exact .refl n t

theorem carries_followRow (now : Nat) (id : EntityId) :
    Carries n False s (s.followRow now id) := by
  unfold followRow
  split
  · exact .refl n s
  · next row hrow =>
    refine .of_bears fun m hm => Carries.foldl fun p hp t => carries_redraw_other now _ ?_
    -- The pointers are those of the scene, each under its own identifier.
    obtain ⟨j, hj⟩ := Table.mem_values_iff.1 (List.mem_filter.1 hp).1
    have hid : p.id = j := hm.keyed .pointer j _ (Scene.get?_pointer.2 hj)
    rw [hid]
    exact hm.ne_of_has (Scene.has_of_get? (Scene.get?_pointer.2 hj)) (by rintro ⟨⟩)

/-! ### Other things come and go -/

/-- To finish the exit of another thing keeps the motion. -/
theorem carries_finishExit (now : Nat) {ticket : Ticket} (hticket : ticket.id ≠ n) (k : Kind)
    (hid : id ≠ n) : Carries n False s (s.finishExit now ticket k id) := by
  refine .of_keeps fun m h => ?_
  obtain ⟨i, node, hi, hnode, hmotion, hplace⟩ := h.item
  have hitem := Presenter.stayingItem?_finishExit h.sound now (Ne.symm hticket)
  unfold finishExit
  by_cases hmatch : ∃ v, s.presenter.sight? ticket.id = some v ∧
      v.incarnation = ticket.incarnation
  · obtain ⟨v, hv, heq⟩ := hmatch
    rw [Presenter.finishExit_of_match hv heq] at hitem ⊢
    refine ⟨(Presenter.sound_discard h.sound now ticket.id).1, h.keyed.erase k id,
      h.exclusive.erase k id, i, node, hitem.trans hi, ?_, hmotion, hplace⟩
    rw [← Scene.get?_node, Scene.get?_erase, if_neg fun heq => hid heq.2.symm,
      Scene.get?_node.2 hnode]
  · rw [Presenter.finishExit_of_stale h.sound fun v hv heq => hmatch ⟨v, hv, heq⟩]
    exact h

/-- Another thing enters. -/
theorem carries_enter {e : Entity} {f : Figure} {t : Transition} (h : s.enter now e f t = .ok s')
    (he : ∀ node, e = .node node → node.id ≠ n) : Carries n False s s' := by
  refine .of_keeps fun m hm => ?_
  unfold enter at h
  split at h
  · cases h
  next scene hinsert =>
  cases h
  obtain ⟨rfl, honly⟩ := Scene.insert_eq_ok hm.exclusive hinsert
  -- No other kind can be given the identifier of the node.
  have hid : n ≠ e.id := by
    intro heq
    have hkind := honly .node (heq ▸ hm.has_node)
    cases e with
    | node node => exact he node rfl heq.symm
    | _ => cases hkind
  obtain ⟨i, node, hi, hnode, hmotion, hplace⟩ := hm.item
  refine ⟨(Presenter.sound_present hm.sound now e.kind e.id f t).1, hm.keyed.put e,
    hm.exclusive.put honly, i, node, ?_, ?_, hmotion, hplace⟩
  · exact (Presenter.stayingItem?_present hm.sound now hid e.kind f t).trans hi
  · rw [← Scene.get?_node, Scene.get?_put, if_neg fun heq => hid heq.2, Scene.get?_node.2 hnode]

/-- The scene changes, but the node stays in its place. -/
theorem carries_rescene {scene : Scene} (hkeyed : s.scene.Keyed → scene.Keyed)
    (hhas : ∀ k i, scene.has k i = s.scene.has k i)
    (hplace : (scene.nodes.find? n).map (·.position) =
      (s.scene.nodes.find? n).map (·.position)) :
    Carries n False s { s with scene } := by
  refine .of_keeps fun m h => ?_
  obtain ⟨i, node, hi, hnode, hmotion, hitem⟩ := h.item
  rw [hnode] at hplace
  obtain ⟨node', hnode', hposition⟩ := Option.map_eq_some_iff.1 hplace
  exact ⟨h.sound, hkeyed h.keyed, h.exclusive.congr hhas, i, node', hi, hnode', hmotion,
    hitem.trans hposition.symm⟩

/-- A node is put elsewhere. -/
theorem Bears.move {i : Item} (h : s.Bears n m) (hi : s.presenter.stayingItem? n = some i)
    (now : Nat) (id : EntityId) (destination : Point) (t : Transition) :
    Bears ⟨s.scene.modifyNode id fun node => { node with position := destination },
      (s.presenter.move now id destination t).1⟩ n
      (if id = n then Stamp.start? { t with change := .move (i.originAt now) destination } now
        else m) := by
  obtain ⟨i', node, hi', hnode, hmotion, hplace⟩ := h.item
  obtain rfl := Option.some.inj (hi.symm.trans hi')
  have hitem := Presenter.stayingItem?_move h.sound now id destination t n
  have hfound : ∀ f, (s.scene.modifyNode id f).nodes.find? n =
      if n = id then (s.scene.nodes.find? n).map f else s.scene.nodes.find? n :=
    fun f => Table.find?_modify ..
  refine ⟨(Presenter.sound_move h.sound now id destination t).1, h.keyed.modifyNode fun _ => rfl,
    h.exclusive.congr (Scene.has_modifyNode _ _ _), ?_⟩
  -- The node itself takes a motion to the place. The motion of any other stays as it is.
  by_cases hid : id = n
  · subst hid
    rw [if_pos rfl, hi] at hitem
    refine ⟨Canvas.relocate now destination t i, { node with position := destination }, hitem, ?_,
      (if_pos rfl).symm, rfl⟩
    rw [hfound, if_pos rfl, hnode]
    rfl
  · rw [if_neg (Ne.symm hid)] at hitem
    refine ⟨i, node, hitem.trans hi, ?_, hmotion.trans (if_neg hid).symm, hplace⟩
    rw [hfound, if_neg (Ne.symm hid), hnode]

/-- A node that is put elsewhere at once is on the move no more. -/
theorem carries_move (now : Nat) (destination : Point) {t : Transition}
    (hzero : id = n → t.span.isZero = true) :
    Carries n (id = n) s ⟨s.scene.modifyNode id fun node => { node with position := destination },
      (s.presenter.move now id destination t).1⟩ := by
  intro m h
  obtain ⟨i, _, hi, _⟩ := h.item
  have hmoved := h.move hi now id destination t
  constructor
  · intro hid
    rw [if_pos hid, Stamp.start?, hzero hid, Bool.or_true, if_pos rfl] at hmoved
    exact hmoved
  · intro hid
    rw [if_neg hid] at hmoved
    exact hmoved

/-! ### Acts -/

/-- An act that finishes no exit of the node ends the motion if it highlights the node. -/
theorem carries_perform {a : Act}
    (hexit : ∀ ticket k id, a = .finishExit ticket k id → ticket.id ≠ n ∧ id ≠ n) (now : Nat) :
    Carries n (∃ h, a = .highlight n h) s (s.perform now a) := by
  cases a with
  | highlight id h =>
    refine (carries_redrawNode now id h).congr ⟨?_, ?_⟩
    · rintro rfl
      exact ⟨h, rfl⟩
    · rintro ⟨_, heq⟩
      exact (Act.highlight.inj heq).1
  | tint id tints => exact (carries_redrawRow now id tints).congr (by simp)
  | followNode id => exact (carries_followNode now id).congr (by simp)
  | followRow id => exact (carries_followRow now id).congr (by simp)
  | finishExit ticket k id =>
    obtain ⟨hticket, hid⟩ := hexit ticket k id rfl
    exact (carries_finishExit now hticket k hid).congr (by simp)

/-- Acts end the motion if one of them highlights the node. -/
theorem carries_enact {deeds : List (Nat × Act)}
    (hexit : ∀ x ∈ deeds, ∀ ticket k id, x.2 = .finishExit ticket k id → ticket.id ≠ n ∧ id ≠ n) :
    Carries n (∃ x ∈ deeds, ∃ h, x.2 = .highlight n h) s (s.enact deeds) := by
  induction deeds generalizing s with
  | nil => exact (Carries.refl n s).congr (by simp)
  | cons x rest ih =>
    obtain ⟨hx, hrest⟩ := List.forall_mem_cons.1 hexit
    exact ((carries_perform hx x.1).trans (ih hrest)).congr (by simp)

end Stage

/-! ### Commands -/

namespace Command

/-- Whether a command neither creates nor deletes a node, nor takes it anywhere in its time. -/
def Spares (n : EntityId) : Command → Prop
  | .createNode node => node.id ≠ n
  | .deleteNode id => id ≠ n
  | .deleteEdge id => id ≠ n
  | .moveNode id _ span _ => id = n → span.isZero = true
  | _ => True

/-- Whether a command is to change what the scene says of a node. -/
def Changes (n : EntityId) : Command → Prop
  | .updateNode id _ _ => id = n
  | .moveNode id _ _ _ => id = n
  | _ => False

end Command

namespace Stage

variable {s s' : Stage} {n id : EntityId} {now : Nat} {pacing : Pacing} {k : Kind}
  {tag : CommandTag} {c : Command} {cues : List (List Cue)}

theorem carries_create {e : Entity} {f : Figure} {enter : Transition} {after : List Cue}
    (h : s.create now pacing tag e f enter after = .ok (s', cues))
    (he : ∀ node, e = .node node → node.id ≠ n) : Carries n False s s' := by
  unfold create at h
  dsimp only at h
  split at h
  · cases h
  · next henter =>
    cases h
    exact carries_enter henter he

theorem carries_erase (k : Kind) (hid : id ≠ n) :
    Carries n False s { s with scene := s.scene.erase k id } := by
  refine .of_keeps fun m h => ?_
  obtain ⟨i, node, hi, hnode, hmotion, hplace⟩ := h.item
  refine ⟨h.sound, h.keyed.erase k id, h.exclusive.erase k id, i, node, hi, ?_, hmotion, hplace⟩
  rw [← Scene.get?_node, Scene.get?_erase, if_neg fun heq => hid heq.2.symm,
    Scene.get?_node.2 hnode]

theorem carries_beginExit (now : Nat) (hid : id ≠ n) (t : Transition) :
    Carries n False s { s with presenter := (s.presenter.beginExit now id t).1 } := by
  refine .of_keeps fun m h => ?_
  obtain ⟨i, node, hi, hnode, hmotion, hplace⟩ := h.item
  refine ⟨(Presenter.sound_beginExit h.sound now id t).1, h.keyed, h.exclusive, i, node, ?_, hnode,
    hmotion, hplace⟩
  exact (Presenter.stayingItem?_beginExit h.sound now (Ne.symm hid) t).trans hi

theorem carries_delete (h : s.delete now pacing tag k id = .ok (s', cues))
    (hid : id ≠ n) : Carries n False s s' := by
  have hbegun := carries_beginExit (s := s) now hid (pacing.transition (.fadeOut exitSpan))
  unfold delete at h
  dsimp only at h
  split at h
  · cases h
  · split at h
    · cases h
      exact carries_erase k hid
    · split at h
      · next hbegin =>
        cases h
        rw [hbegin] at hbegun
        exact hbegun
      · next hbegin =>
        cases h
        rw [hbegin] at hbegun
        exact hbegun

/-- A row changes and is drawn afresh. -/
theorem carries_changeRow {f : Row → Row} (hf : ∀ r, (f r).id = r.id)
    (tints : List (Nat × Color)) :
    Carries n False s
      (redrawRow { s with scene := s.scene.modifyRow id f } now id tints) :=
  ((carries_rescene (fun hkeyed => hkeyed.modifyRow hf) (Scene.has_modifyRow _ _ _) rfl).trans
    (carries_redrawRow now id tints)).congr (or_self_iff ..)

/-- A command that opens keeps the motion of a node that it spares, unless it changes the node. -/
theorem carries_opening (hc : c.Spares n) (h : s.opening now .realtime c = .ok (s', cues)) :
    Carries n (c.Changes n) s s' := by
  cases effect_of_opening h with
  | @createNode node _ _ hcreate =>
    have hentered := carries_create hcreate fun node' heq => Entity.node.inj heq ▸ hc
    exact (hentered.trans (carries_followNode now node.id)).congr (or_self_iff ..)
  | @updateNode id value style =>
    refine ((carries_rescene ?_ (Scene.has_modifyNode _ _ _) ?_).trans
      (carries_redrawNode now id none)).congr (or_iff_right not_false)
    · exact fun hkeyed => hkeyed.modifyNode fun _ => rfl
    · -- Whatever of the node changes, its place does not.
      have hfound := Table.find?_modify s.scene.nodes id n fun node : Node => { node with
        value := value.getD node.value
        style := (style.filter fun t => !t.isEmpty).orElse fun _ => node.style }
      refine (congrArg _ hfound).trans ?_
      split
      · rw [Option.map_map]
        rfl
      · rfl
  | deleteNode hdelete | deleteEdge hdelete => exact carries_delete hdelete hc
  | @moveNode id destination _ _ _ _ _ ht =>
    rw [ht]
    exact carries_move now destination hc
  | highlight | compare | pulse | highlightPath => exact .refl n s
  | createEdge _ hcreate | createArray hcreate | setPointer _ hcreate | addLabel hcreate
  | addCallout _ hcreate => exact carries_create hcreate (by rintro _ ⟨⟩)
  | swap => exact carries_changeRow (swapCells_id _ _) _
  | @updateCell row i value =>
    exact carries_changeRow (f := fun r => r.setCell i value) (fun _ => rfl) _

end Stage

end Storyboard
