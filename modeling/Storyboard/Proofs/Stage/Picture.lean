import Storyboard.Proofs.Drawing.Sight
import Storyboard.Proofs.Scene.Lookup
import Storyboard.Stage.Cue

/-! # The picture of a scene

    Apart from highlights and tints, how a thing is drawn follows from the
    scene (`figureOf?`). Most acts on a stage only draw things afresh: which
    figure an act draws for a thing is a function of the scene as well
    (`Act.figure?`), and the act changes nothing else (`perform_redraws`).

    An act may restore a thing, that is draw it as it follows from the scene,
    or draw it otherwise for a while; then another act is to undo that. -/

namespace Storyboard

/-! ### Figures that follow from the scene -/

/-- The figure of a thing in a scene. There is none for an edge without its ends and for a pointer
    without its cell. -/
def Scene.figureOf? (s : Scene) : Entity → Option Figure
  | .node n => some (.ofNode n none)
  | .edge e => Stage.edgeFigure? s e
  | .row r => some (.ofRow r [])
  | .pointer p => (s.rows.find? p.row).bind fun r =>
      if r.hasCell p.index then some (.ofPointer p r) else none
  | .label l => some (.ofLabel l)
  | .callout a => some (.ofCallout a)

namespace Act

/-- The figure that an act draws for a thing, if it draws one. -/
def figure? (s : Scene) : Act → EntityId → Option Figure
  | .highlight id h, j => if j = id then (s.nodes.find? id).map (.ofNode · h) else none
  | .tint id tints, j => if j = id then (s.rows.find? id).map (.ofRow · tints) else none
  | .followNode id, j => (s.edges.find? j).bind fun e =>
      if e.source = id ∨ e.target = id then Stage.edgeFigure? s e else none
  | .followRow id, j => (s.rows.find? id).bind fun r => (s.pointers.find? j).bind fun p =>
      if p.row = id ∧ r.hasCell p.index then some (.ofPointer p r) else none
  | .finishExit .., _ => none

/-- Whether an act draws a thing as it follows from the scene. -/
def Restores (a : Act) : Entity → Prop
  | .node n => a = .highlight n.id none
  | .edge e => a = .followNode e.source ∨ a = .followNode e.target
  | .row r => a = .tint r.id []
  | .pointer p => a = .followRow p.row
  | .label _ => False
  | .callout _ => False

/-- What undoes an act that draws a thing otherwise. -/
def undo? : Act → Option Act
  | .highlight id (some _) => some (.highlight id none)
  | .tint id (_ :: _) => some (.tint id [])
  | _ => none

/-- Whether an act finishes an exit. -/
def IsExit : Act → Prop
  | .finishExit .. => True
  | _ => False

end Act

variable {s t : Scene} {a : Act} {j : EntityId} {k : Kind} {e : Entity} {f : Figure}

/-! ### Figures of entities -/

/-- The figure of an edge depends on the places of its ends. -/
theorem Stage.edgeFigure?_congr {e : Edge}
    (hsource : (s.nodes.find? e.source).map (·.position) =
      (t.nodes.find? e.source).map (·.position))
    (htarget : (s.nodes.find? e.target).map (·.position) =
      (t.nodes.find? e.target).map (·.position)) :
    Stage.edgeFigure? s e = Stage.edgeFigure? t e := by
  -- Of the ends of the edge only the places are looked at.
  have hmap : ∀ u : Scene, Stage.edgeFigure? u e =
      ((u.nodes.find? e.source).map (·.position)).bind fun a =>
        ((u.nodes.find? e.target).map (·.position)).bind fun b => some (.ofEdge e a b) := by
    intro u
    unfold Stage.edgeFigure?
    cases u.nodes.find? e.source <;> cases u.nodes.find? e.target <;> rfl
  rw [hmap s, hmap t, hsource, htarget]

/-- The figure of a thing depends on the places of nodes and on the places and lengths of rows, and
    only on those for which there is an act that restores the thing. -/
theorem Scene.figureOf?_congr
    (hnodes : ∀ id, (Act.followNode id).Restores e →
      (s.nodes.find? id).map (·.position) = (t.nodes.find? id).map (·.position))
    (hrows : ∀ id, (Act.followRow id).Restores e →
      (s.rows.find? id).map (fun r => (r.anchor, r.cells.length)) =
        (t.rows.find? id).map fun r => (r.anchor, r.cells.length)) :
    s.figureOf? e = t.figureOf? e := by
  -- Only edges and pointers are drawn by way of other things.
  cases e with
  | edge e => exact Stage.edgeFigure?_congr (hnodes _ (.inl rfl)) (hnodes _ (.inr rfl))
  | pointer p =>
    have h := hrows p.row rfl
    simp only [Scene.figureOf?]
    cases hs : s.rows.find? p.row with
    | none =>
      rw [hs] at h
      rw [Option.map_eq_none_iff.1 h.symm]
    | some r =>
      rw [hs] at h
      obtain ⟨r', hr', heq⟩ := Option.map_eq_some_iff.1 h.symm
      obtain ⟨hanchor, hlength⟩ := Prod.mk.inj heq
      have hcell : r'.hasCell p.index = r.hasCell p.index := by
        simp only [Row.hasCell, hlength]
      have hfigure : Figure.ofPointer p r' = Figure.ofPointer p r := by
        simp only [Figure.ofPointer, Row.cellRect, hanchor]
      simp only [hr', Option.bind_some, hcell, hfigure]
  | _ => rfl

/-- Taking a thing away changes no figure, though some may follow no more. -/
theorem Scene.figureOf?_erase {i : EntityId} (h : (s.erase k i).figureOf? e = some f) :
    s.figureOf? e = some f := by
  -- What is found in a table after something was taken out was in it before.
  have hfind : ∀ {α : Type} {u : Table EntityId α} {id : EntityId} {x : α},
      (u.erase i).find? id = some x → u.find? id = some x := by
    intro α u id x hx
    rw [Table.find?_erase] at hx
    split at hx
    · cases hx
    · exact hx
  cases k with
  | node =>
    cases e with
    | edge e =>
      simp only [Scene.figureOf?, Stage.edgeFigure?] at h ⊢
      obtain ⟨a, ha, h⟩ := Option.bind_eq_some_iff.1 h
      obtain ⟨b, hb, h⟩ := Option.bind_eq_some_iff.1 h
      exact Option.bind_eq_some_iff.2 ⟨a, hfind ha, Option.bind_eq_some_iff.2 ⟨b, hfind hb, h⟩⟩
    | _ => exact h
  | array =>
    cases e with
    | pointer p =>
      simp only [Scene.figureOf?] at h ⊢
      obtain ⟨r, hr, h⟩ := Option.bind_eq_some_iff.1 h
      exact Option.bind_eq_some_iff.2 ⟨r, hfind hr, h⟩
    | _ => exact h
  | _ => exact h

/-! ### Figures that acts draw -/

/-- An act that restores a thing draws the figure that follows from the scene. -/
theorem Act.figure?_of_restores (hs : s.Keyed) (he : s.get? k j = some e) (ha : a.Restores e)
    (hf : s.figureOf? e = some f) : a.figure? s j = some f := by
  have hid := hs k j e he
  have hk := Scene.kind_of_get? he
  subst hk
  -- By the thing: each is restored by one act, and an edge by an act for either of its ends. Labels
  -- and callouts are never redrawn.
  cases e with
  | node n =>
    obtain rfl : a = .highlight n.id none := ha
    have hn := Scene.get?_node.1 he
    rw [Entity.id] at hid
    subst hid
    simpa [Act.figure?, hn, Scene.figureOf?] using hf
  | edge e =>
    have hedge := Scene.get?_edge.1 he
    have hfollow : ∀ id, e.source = id ∨ e.target = id →
        (Act.followNode id).figure? s j = some f := by
      intro id hend
      simp only [Act.figure?, hedge, Option.bind_some, if_pos hend]
      exact hf
    rcases ha with rfl | rfl
    · exact hfollow _ (.inl rfl)
    · exact hfollow _ (.inr rfl)
  | row r =>
    obtain rfl : a = .tint r.id [] := ha
    have hr := Scene.get?_row.1 he
    rw [Entity.id] at hid
    subst hid
    simpa [Act.figure?, hr, Scene.figureOf?] using hf
  | pointer p =>
    obtain rfl : a = .followRow p.row := ha
    obtain ⟨r, hr, hf⟩ := Option.bind_eq_some_iff.1 hf
    simpa [Act.figure?, hr, Scene.get?_pointer.1 he] using hf
  | label l => cases ha
  | callout c => cases ha

/-- To finish an exit restores nothing. -/
theorem Act.not_restores_of_isExit {a : Act} {e : Entity} (ha : a.IsExit) : ¬a.Restores e := by
  cases a with
  | finishExit t k id => cases e <;> simp [Act.Restores]
  | _ => cases ha

/-- An act draws a thing as it follows from the scene, or what undoes the act restores it. -/
theorem Act.figure?_or_undo (hs : s.Keyed) (hx : s.Exclusive) (h : a.figure? s j = some f)
    (he : s.get? k j = some e) :
    s.figureOf? e = some f ∨ ∃ b, a.undo? = some b ∧ b.Restores e := by
  have hid := hs k j e he
  -- The act draws the thing that it finds under the identifier, and there is only one.
  have honly : ∀ {k' e'}, s.get? k' j = some e' → e' = e := by
    intro k' e' he'
    obtain rfl := hx k' k j (Scene.has_of_get? he') (Scene.has_of_get? he)
    exact Option.some.inj (he'.symm.trans he)
  cases a with
  | highlight id hl =>
    simp only [Act.figure?] at h
    split at h
    · next heq =>
      obtain ⟨n, hn, rfl⟩ := Option.map_eq_some_iff.1 h
      subst heq
      obtain rfl := honly (Scene.get?_node.2 hn)
      cases hl with
      | none => exact .inl rfl
      | some hl => exact .inr ⟨_, rfl, congrArg (Act.highlight · none) hid.symm⟩
    · cases h
  | tint id tints =>
    simp only [Act.figure?] at h
    split at h
    · next heq =>
      obtain ⟨r, hr, rfl⟩ := Option.map_eq_some_iff.1 h
      subst heq
      obtain rfl := honly (Scene.get?_row.2 hr)
      cases tints with
      | nil => exact .inl rfl
      | cons tint tints => exact .inr ⟨_, rfl, congrArg (Act.tint · []) hid.symm⟩
    · cases h
  | followNode id =>
    obtain ⟨edge, hedge, h⟩ := Option.bind_eq_some_iff.1 h
    obtain rfl := honly (Scene.get?_edge.2 hedge)
    split at h
    · exact .inl h
    · cases h
  | followRow id =>
    obtain ⟨r, hr, hfound⟩ := Option.bind_eq_some_iff.1 h
    obtain ⟨p, hp, hdrawn⟩ := Option.bind_eq_some_iff.1 hfound
    obtain rfl := honly (Scene.get?_pointer.2 hp)
    split at hdrawn
    · next hcell =>
      obtain ⟨rfl, hcell⟩ := hcell
      left
      simp only [Scene.figureOf?, hr, Option.bind_some, if_pos hcell]
      exact hdrawn
    · cases hdrawn
  | finishExit t k id => cases h

/-! ### What acts do to the stage -/

/-- What is seen after a figure was drawn, if one was. -/
def Sight.drawnOver (f : Option Figure) (v : Option Sight) : Option Sight :=
  match f with
  | some f => v.map (.redrawn f)
  | none => v

namespace Stage

/-- A stage on which nothing happened but that figures were drawn. -/
structure Redrawn (s s' : Stage) (figure? : EntityId → Option Figure) : Prop where
  scene        : s'.scene = s.scene
  incarnations : s'.presenter.incarnations = s.presenter.incarnations
  sound        : s'.presenter.Sound
  sight        : ∀ j, s'.presenter.sight? j = Sight.drawnOver (figure? j) (s.presenter.sight? j)

variable {s s' s'' : Stage} {now : Nat} {id : EntityId} {F G : EntityId → Option Figure}

/-- What is drawn over a thing changes nothing but its figure. -/
theorem Redrawn.status (h : Redrawn s s' F) (j : EntityId) :
    (s'.presenter.sight? j).map Sight.status = (s.presenter.sight? j).map Sight.status := by
  rw [h.sight]
  cases F j with
  | none => rfl
  | some f => cases s.presenter.sight? j <;> simp [Sight.drawnOver]

theorem Redrawn.refl (hs : s.presenter.Sound) : Redrawn s s fun _ => none :=
  ⟨rfl, rfl, hs, fun _ => rfl⟩

theorem Redrawn.congr (h : Redrawn s s' F) (hFG : ∀ j, F j = G j) : Redrawn s s' G :=
  ⟨h.scene, h.incarnations, h.sound, fun j => hFG j ▸ h.sight j⟩

/-- Of two figures the later one is seen. -/
theorem Redrawn.trans (h : Redrawn s s' F) (h' : Redrawn s' s'' G) :
    Redrawn s s'' fun j => (G j).or (F j) := by
  refine ⟨h'.scene.trans h.scene, h'.incarnations.trans h.incarnations, h'.sound, fun j => ?_⟩
  rw [h'.sight, h.sight]
  cases G j with
  | none => rfl
  | some g =>
    cases F j with
    | none => rfl
    | some f =>
      cases hv : s.presenter.sight? j with
      | none => rfl
      | some v =>
        cases hx : v.exiting <;> simp [Sight.drawnOver, Sight.redrawn, hx]

theorem redrawn_redraw (hs : s.presenter.Sound) (f : Figure) :
    Redrawn s (s.redraw now id f) fun j => if j = id then some f else none := by
  obtain ⟨hsound, hsight⟩ := Presenter.sound_refresh hs now id f .cut
  refine ⟨rfl, Presenter.apply_incarnations, hsound, fun j => (hsight j).trans ?_⟩
  split
  · next hj => rw [hj]; rfl
  · rfl

/-- Redrawing a thing if there is a figure for it. -/
theorem redrawn_redraw? (hs : s.presenter.Sound) (f : Option Figure) :
    Redrawn s (match f with | some f => s.redraw now id f | none => s)
      fun j => if j = id then f else none := by
  cases f with
  | none => exact (Redrawn.refl hs).congr fun j => by split <;> rfl
  | some f => exact redrawn_redraw hs f

/-- Redrawing several things, each with a figure that follows from the scene. -/
theorem redrawn_foldl {α : Type} {step : Stage → α → Stage} (name : α → EntityId)
    (figure? : EntityId → Option Figure) {l : List α}
    (hstep : ∀ x ∈ l, ∀ t : Stage, t.scene = s.scene → t.presenter.Sound →
      Redrawn t (step t x) fun j => if j = name x then figure? j else none)
    (hs : s.presenter.Sound) :
    Redrawn s (l.foldl step s) fun j => if j ∈ l.map name then figure? j else none := by
  induction l generalizing s with
  | nil => exact (Redrawn.refl hs).congr fun j => by simp
  | cons x l ih =>
    have hx := hstep x List.mem_cons_self s rfl hs
    have hl := ih (s := step s x)
      (fun y hy t ht => hstep y (List.mem_cons_of_mem _ hy) t (ht.trans hx.scene)) hx.sound
    refine (hx.trans hl).congr fun j => ?_
    rw [List.map_cons]
    -- A thing that comes again later in the list is seen as it is drawn then.
    by_cases hj : j ∈ l.map name
    · rw [if_pos hj, if_pos (List.mem_cons_of_mem _ hj)]
      cases figure? j <;> simp
    · rw [if_neg hj, Option.none_or]
      by_cases hjx : j = name x
      · rw [if_pos hjx, if_pos (List.mem_cons.2 (.inl hjx))]
      · rw [if_neg hjx, if_neg fun h => (List.mem_cons.1 h).elim hjx hj]

theorem redrawn_redrawNode (hs : s.presenter.Sound) (h : Option Highlight) :
    Redrawn s (s.redrawNode now id h) ((Act.highlight id h).figure? s.scene) := by
  have heq : s.redrawNode now id h =
      match (s.scene.nodes.find? id).map (Figure.ofNode · h) with
      | some f => s.redraw now id f
      | none => s := by
    unfold redrawNode
    cases s.scene.nodes.find? id <;> rfl
  rw [heq]
  exact redrawn_redraw? hs _

theorem redrawn_redrawRow (hs : s.presenter.Sound) (tints : List (Nat × Color)) :
    Redrawn s (s.redrawRow now id tints) ((Act.tint id tints).figure? s.scene) := by
  have heq : s.redrawRow now id tints =
      match (s.scene.rows.find? id).map (Figure.ofRow · tints) with
      | some f => s.redraw now id f
      | none => s := by
    unfold redrawRow
    cases s.scene.rows.find? id <;> rfl
  rw [heq]
  exact redrawn_redraw? hs _

theorem redrawn_followNode (hs : s.presenter.Sound) (hk : s.scene.Keyed) :
    Redrawn s (s.followNode now id) ((Act.followNode id).figure? s.scene) := by
  have hfollow : ∀ i ∈ s.scene.edgesTouching id, ∀ t : Stage, t.scene = s.scene →
      t.presenter.Sound → Redrawn t (t.followEdge now i) fun j =>
        if j = i then (s.scene.edges.find? j).bind (edgeFigure? s.scene) else none := by
    intro i _ t ht hsound
    refine (redrawn_redraw? hsound _).congr fun j => ?_
    rw [ht]
    split
    · next hj => rw [hj]
    · rfl
  refine (redrawn_foldl (fun i => i) _ hfollow hs).congr fun j => ?_
  rw [List.map_id']
  -- An edge is redrawn when it touches the node, and those that touch it are listed.
  cases he : s.scene.edges.find? j with
  | none => simp [Act.figure?, he]
  | some e =>
    have hmem : j ∈ s.scene.edgesTouching id ↔ _ := Scene.mem_edgesTouching hk
    simp only [he, Option.some.injEq, exists_eq_left'] at hmem
    simp only [Act.figure?, he, Option.bind_some]
    by_cases hend : e.source = id ∨ e.target = id
    · rw [if_pos (hmem.2 hend), if_pos hend]
    · rw [if_neg fun h => hend (hmem.1 h), if_neg hend]

theorem redrawn_followRow (hs : s.presenter.Sound) (hk : s.scene.Keyed) :
    Redrawn s (s.followRow now id) ((Act.followRow id).figure? s.scene) := by
  unfold followRow
  cases hr : s.scene.rows.find? id with
  | none => exact (Redrawn.refl hs).congr fun j => by simp [Act.figure?, hr]
  | some r =>
    -- A pointer in the list is the one that the scene has under its own identifier.
    have hnamed : ∀ p ∈ s.scene.pointers.values.filter fun p => p.row = id && r.hasCell p.index,
        s.scene.pointers.find? p.id = some p ∧ p.row = id ∧ r.hasCell p.index = true := by
      intro p hp
      obtain ⟨hmem, hcell⟩ := List.mem_filter.1 hp
      obtain ⟨i, hi⟩ := Table.mem_values_iff.1 hmem
      have hid : p.id = i := hk .pointer i _ (Scene.get?_pointer.2 hi)
      rw [Bool.and_eq_true, decide_eq_true_eq] at hcell
      exact ⟨hid ▸ hi, hcell⟩
    refine (redrawn_foldl Pointer.id ((Act.followRow id).figure? s.scene) ?_ hs).congr ?_
    · intro p hp t _ hsound
      obtain ⟨hfind, hcell⟩ := hnamed p hp
      refine (redrawn_redraw hsound _).congr fun j => ?_
      split
      · next hj => simp [hj, Act.figure?, hr, hfind, hcell]
      · rfl
    · intro j
      split
      · rfl
      · next hj =>
        cases hp : s.scene.pointers.find? j with
        | none => simp [Act.figure?, hr, hp]
        | some p =>
          have hid : p.id = j := hk .pointer j _ (Scene.get?_pointer.2 hp)
          simp only [Act.figure?, hr, hp, Option.bind_some]
          rw [if_neg]
          intro hcell
          have hmem : p ∈ s.scene.pointers.values := Table.mem_values_iff.2 ⟨j, hp⟩
          refine hj (List.mem_map.2 ⟨p, List.mem_filter.2 ⟨hmem, ?_⟩, hid⟩)
          rw [Bool.and_eq_true, decide_eq_true_eq]
          exact hcell

/-- An act that finishes no exit does nothing but draw figures. -/
theorem perform_redraws {a : Act} (hs : s.presenter.Sound) (hk : s.scene.Keyed) (now : Nat)
    (ha : ¬a.IsExit) : Redrawn s (s.perform now a) (a.figure? s.scene) := by
  cases a with
  | highlight id h => exact redrawn_redrawNode hs h
  | tint id tints => exact redrawn_redrawRow hs tints
  | followNode id => exact redrawn_followNode hs hk
  | followRow id => exact redrawn_followRow hs hk
  | finishExit t k id => exact absurd trivial ha

end Stage

end Storyboard
