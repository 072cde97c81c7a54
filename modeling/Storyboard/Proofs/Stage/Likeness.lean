import Storyboard.Proofs.Stage.Neat

/-! # Stages that are alike

    Two stages are alike if the same scene is drawn on both in the same way:
    every thing is shown on both or on neither, the showings follow one
    another in the same order, and the figures are the same, apart from some
    edges that are given up for lost and from what is on its way out.

    Commands that are opened on stages that are alike, each at a time and in a
    pacing of its own, leave them alike (`Alike.startAll`). -/

namespace Storyboard

/-! ### Things that are seen alike -/

namespace Sight

/-- Two sights of one thing. Incarnations are counted from different numbers on, and only the
    figure of a thing that stays and is not given up matters. -/
structure Like (base base' : Nat) (lost : Prop) (v v' : Sight) : Prop where
  kind        : v'.kind = v.kind
  exiting     : v'.exiting = v.exiting
  incarnation : v'.incarnation + base = v.incarnation + base'
  figure      : v.exiting = false → ¬lost → v'.figure = v.figure

variable {base base' : Nat} {lost : Prop} {v v' : Sight} {o o' : Option Sight}

theorem Like.redrawn (h : v.Like base base' lost v') (f : Figure) :
    (v.redrawn f).Like base base' lost (v'.redrawn f) := by
  unfold Sight.redrawn
  cases hx : v.exiting with
  | true => simpa [h.exiting, hx] using h
  | false =>
    have hx' : v'.exiting = false := h.exiting.trans hx
    simp only [hx', Bool.false_eq_true, ↓reduceIte]
    exact ⟨h.kind, rfl, h.incarnation, fun _ _ => rfl⟩

theorem Like.relocated (h : v.Like base base' lost v') (destination : Point) :
    (v.relocated destination).Like base base' lost (v'.relocated destination) := by
  unfold Sight.relocated
  cases hx : v.exiting with
  | true => simpa [h.exiting, hx] using h
  | false =>
    have hx' : v'.exiting = false := h.exiting.trans hx
    simp only [hx', Bool.false_eq_true, ↓reduceIte]
    refine ⟨h.kind, rfl, h.incarnation, fun _ hlost => ?_⟩
    dsimp only
    rw [h.figure hx hlost]

theorem rel_map {r r' : Sight → Sight → Prop} {g g' : Sight → Sight} (h : Option.Rel r o o')
    (hg : ∀ v v', r v v' → r' (g v) (g' v')) : Option.Rel r' (o.map g) (o'.map g') := by
  cases h with
  | some h => exact .some (hg _ _ h)
  | none => exact .none

theorem rel_drawnOver (h : Option.Rel (Like base base' lost) o o') (f : Option Figure) :
    Option.Rel (Like base base' lost) (drawnOver f o) (drawnOver f o') := by
  cases f with
  | none => exact h
  | some f => exact rel_map h fun v v' hv => hv.redrawn f

end Sight

namespace Stage

/-! ### Stages that are alike -/

/-- A thing is one of some edges. -/
def IsEdge (s : Scene) (lost : Edge → Prop) (id : EntityId) : Prop :=
  ∃ e, s.edges.find? id = some e ∧ lost e

/-- On two stages the same is seen, apart from the figures of the edges that are lost. -/
structure Alike (base base' : Nat) (lost : Edge → Prop) (s s' : Stage) : Prop where
  neat         : s.Neat
  neat'        : s'.Neat
  scene        : s'.scene = s.scene
  incarnations : s'.presenter.incarnations + base = s.presenter.incarnations + base'
  sights       : ∀ id, Option.Rel (Sight.Like base base' (IsEdge s.scene lost id))
    (s.presenter.sight? id) (s'.presenter.sight? id)

variable {base base' : Nat} {lost : Edge → Prop} {s s' t t' : Stage} {now now' : Nat}
  {pacing pacing' : Pacing} {id : EntityId} {k : Kind} {tag : CommandTag} {a : Act}

theorem Alike.redrawn (h : Alike base base' lost s s') (hd : Redrawn s t (a.figure? s.scene))
    (hd' : Redrawn s' t' (a.figure? s'.scene)) : Alike base base' lost t t' := by
  refine ⟨h.neat.redrawn hd, h.neat'.redrawn hd', ?_, ?_, fun id => ?_⟩
  · rw [hd'.scene, h.scene, hd.scene]
  · rw [hd'.incarnations, h.incarnations, hd.incarnations]
  · rw [hd.sight, hd'.sight, hd.scene, h.scene]
    exact Sight.rel_drawnOver (h.sights id) _

theorem Alike.performs (h : Alike base base' lost s s') (ha : ¬a.IsExit) (now now' : Nat) :
    Alike base base' lost (s.perform now a) (s'.perform now' a) :=
  h.redrawn (perform_redraws h.neat.sound h.neat.keyed now ha)
    (perform_redraws h.neat'.sound h.neat'.keyed now' ha)

/-- The scene changes, but no edge does. -/
theorem Alike.rescene (h : Alike base base' lost s s') (f : Scene → Scene)
    (hkeyed : (f s.scene).Keyed) (hhas : ∀ k i, (f s.scene).has k i = s.scene.has k i)
    (hedges : (f s.scene).edges = s.scene.edges) :
    Alike base base' lost { s with scene := f s.scene } { s' with scene := f s'.scene } := by
  have hsame := congrArg f h.scene
  refine ⟨h.neat.rescene hkeyed hhas hedges, h.neat'.rescene ?_ ?_ ?_, hsame, h.incarnations,
    fun id => ?_⟩
  · rwa [hsame]
  · rwa [hsame, h.scene]
  · rwa [hsame, h.scene]
  · have hlost : IsEdge (f s.scene) lost id = IsEdge s.scene lost id := by
      rw [IsEdge, hedges, IsEdge]
    exact hlost ▸ h.sights id

theorem Alike.move (h : Alike base base' lost s s') (id : EntityId) (destination : Point)
    (transition transition' : Transition) (now now' : Nat) :
    Alike base base' lost
      { s with presenter := (s.presenter.move now id destination transition).1 }
      { s' with presenter := (s'.presenter.move now' id destination transition').1 } := by
  obtain ⟨_, hsight⟩ := Presenter.sound_move h.neat.sound now id destination transition
  obtain ⟨_, hsight'⟩ := Presenter.sound_move h.neat'.sound now' id destination transition'
  refine ⟨h.neat.move now id destination transition, h.neat'.move now' id destination transition',
    h.scene, ?_, fun j => ?_⟩
  · exact (congrArg (· + base) Presenter.apply_incarnations).trans
      (h.incarnations.trans (congrArg (· + base') Presenter.apply_incarnations.symm))
  · dsimp only
    rw [hsight, hsight']
    split
    · next hj =>
      subst hj
      exact Sight.rel_map (h.sights j) fun v v' hv => hv.relocated destination
    · exact h.sights j

/-- A thing enters on both stages, or on neither. -/
theorem Alike.enter {e : Entity} {f : Figure} (h : Alike base base' lost s s')
    (hf : (s.scene.put e).figureOf? e = some f) (now now' : Nat) (enter enter' : Transition) :
    match s.enter now e f enter, s'.enter now' e f enter' with
    | .ok t, .ok t' => Alike base base' lost t t'
    | .error _, .error _ => True
    | _, _ => False := by
  cases hinsert : s.scene.insert e with
  | error c =>
    have hinsert' : s'.scene.insert e = .error c := h.scene ▸ hinsert
    simp only [Stage.enter, hinsert, hinsert']
  | ok scene =>
    have hinsert' : s'.scene.insert e = .ok scene := h.scene ▸ hinsert
    obtain ⟨rfl, honly⟩ := Scene.insert_eq_ok h.neat.exclusive hinsert
    have henter : s.enter now e f enter =
        .ok ⟨s.scene.put e, (s.presenter.present now e.kind e.id f enter).1⟩ := by
      simp only [Stage.enter, hinsert]
    have henter' : s'.enter now' e f enter' =
        .ok ⟨s.scene.put e, (s'.presenter.present now' e.kind e.id f enter').1⟩ := by
      simp only [Stage.enter, hinsert']
    obtain ⟨_, hsight⟩ := Presenter.sound_present h.neat.sound now e.kind e.id f enter
    obtain ⟨_, hsight'⟩ := Presenter.sound_present h.neat'.sound now' e.kind e.id f enter'
    have hcount := h.incarnations
    rw [henter, henter']
    refine ⟨h.neat.enter henter hf, h.neat'.enter henter' (h.scene ▸ hf), rfl, ?_, fun j => ?_⟩
    · dsimp only
      rw [Presenter.present_incarnations, Presenter.present_incarnations]
      omega
    · dsimp only
      rw [hsight, hsight']
      split
      · exact .some ⟨rfl, rfl, by dsimp only; omega, fun _ _ => rfl⟩
      · next hj =>
        -- What enters is another thing, so whether this one is a lost edge is decided as before.
        have hlost : IsEdge (s.scene.put e) lost j = IsEdge s.scene lost j := by
          have hsame : ∀ edge, (s.scene.put e).edges.find? j = some edge ↔
              s.scene.edges.find? j = some edge := by
            intro edge
            rw [← Scene.get?_edge, ← Scene.get?_edge, Scene.get?_put, if_neg fun hk => hj hk.2]
          simp only [IsEdge, hsame]
        rw [hlost]
        exact h.sights j

/-- A thing begins to leave both stages, or neither. -/
theorem Alike.beginExit (h : Alike base base' lost s s') (now now' : Nat) (id : EntityId)
    (transition transition' : Transition) :
    Alike base base' lost
      { s with presenter := (s.presenter.beginExit now id transition).1 }
      { s' with presenter := (s'.presenter.beginExit now' id transition').1 } ∧
    (s.presenter.beginExit now id transition).2.isSome =
      (s'.presenter.beginExit now' id transition').2.isSome := by
  have hneat := h.neat.beginExit now id transition
  have hneat' := h.neat'.beginExit now' id transition'
  rcases s.presenter.stays_or_leaves id with ⟨v, hv, hx⟩ | hgone
  · -- The thing stays on the one stage, so it stays on the other, and it is let go on both.
    have hrel := h.sights id
    rw [hv] at hrel
    generalize hsight' : s'.presenter.sight? id = o' at hrel
    cases hrel with
    | @some _ v' hlike =>
      have hx' : v'.exiting = false := hlike.exiting.trans hx
      obtain ⟨hticket, hcount, _, hseen⟩ :=
        Presenter.beginExit_of_staying h.neat.sound now transition hv hx
      obtain ⟨hticket', hcount', _, hseen'⟩ :=
        Presenter.beginExit_of_staying h.neat'.sound now' transition' hsight' hx'
      refine ⟨⟨hneat, hneat', h.scene, ?_, fun j => ?_⟩, by rw [hticket, hticket']; rfl⟩
      · dsimp only
        rw [hcount, hcount', h.incarnations]
      · dsimp only
        rw [hseen, hseen']
        split
        · exact .some ⟨hlike.kind, rfl, hlike.incarnation, by rintro ⟨⟩⟩
        · exact h.sights j
  · -- Nothing that stays is seen on the one stage, so nothing that stays is seen on the other.
    have hgone' : ∀ v', s'.presenter.sight? id = some v' → v'.exiting = true := by
      intro v' hv'
      have hrel := h.sights id
      rw [hv'] at hrel
      generalize hsight : s.presenter.sight? id = o at hrel
      cases hrel with
      | some hlike => rw [hlike.exiting, hgone _ hsight]
    rw [Presenter.beginExit_of_not_staying h.neat.sound transition hgone,
      Presenter.beginExit_of_not_staying h.neat'.sound transition' hgone']
    exact ⟨h, rfl⟩

/-- A thing that is not shown is taken out of the scene. -/
theorem Alike.erase (h : Alike base base' lost s s') (k : Kind)
    (hnone : s.presenter.shows id = false) :
    Alike base base' lost { s with scene := s.scene.erase k id }
      { s' with scene := s'.scene.erase k id } := by
  -- What is taken out adds no edge, so the edges that are left are drawn as before.
  have hedge : ∀ {t : Scene} {j e}, (t.erase k id).edges.find? j = some e →
      t.edges.find? j = some e := by
    intro t j e he
    have hget := Scene.get?_edge.2 he
    rw [Scene.get?_erase] at hget
    split at hget
    · cases hget
    · exact Scene.get?_edge.1 hget
  have hneat : ∀ {t : Stage}, t.Neat → Neat { t with scene := t.scene.erase k id } :=
    fun ht => ⟨ht.sound, ht.keyed.erase k id, ht.exclusive.erase k id,
      fun j e v he hv => ht.lined j e v (hedge he) hv⟩
  refine ⟨hneat h.neat, hneat h.neat', congrArg (Scene.erase · k id) h.scene, h.incarnations,
    fun j => ?_⟩
  have hrel := h.sights j
  dsimp only
  by_cases hj : j = id
  · -- Nothing is seen of the thing, so it does not matter whether it is lost.
    have hunseen : s.presenter.sight? id = none := by
      cases hv : s.presenter.sight? id with
      | none => rfl
      | some v =>
        rw [h.neat.sound.shows_iff.2 ⟨v, hv⟩] at hnone
        cases hnone
    rw [hj, hunseen] at hrel ⊢
    generalize s'.presenter.sight? id = o' at hrel ⊢
    cases hrel
    exact .none
  · have hlost : IsEdge (s.scene.erase k id) lost j = IsEdge s.scene lost j := by
      have hsame : ∀ e, (s.scene.erase k id).edges.find? j = some e ↔
          s.scene.edges.find? j = some e := by
        intro e
        rw [← Scene.get?_edge, ← Scene.get?_edge, Scene.get?_erase, if_neg fun hk => hj hk.2]
      simp only [IsEdge, hsame]
    rw [hlost]
    exact hrel

/-- The same things are shown on both stages. -/
theorem Alike.shows (h : Alike base base' lost s s') (id : EntityId) :
    s'.presenter.shows id = s.presenter.shows id := by
  rw [Bool.eq_iff_iff, h.neat'.sound.shows_iff, h.neat.sound.shows_iff]
  have hrel := h.sights id
  generalize s.presenter.sight? id = o at hrel
  generalize s'.presenter.sight? id = o' at hrel
  cases hrel <;> simp

end Stage

/-! ### Commands that are opened -/

namespace Cue

/-- The acts that come before the first wait. -/
def leading : List Cue → List Act
  | .act a :: rest => a :: leading rest
  | .flashes 0 _ _ _ :: rest => leading rest
  | .flashes (_ + 1) id h _ :: _ => [.highlight id (some h)]
  | _ => []

theorem leading_of_lingers {cues : List Cue} (h : Lingers cues) :
    ∀ a ∈ leading cues, ¬a.IsExit := by
  induction cues with
  | nil => exact List.forall_mem_nil _
  | cons c rest ih =>
    cases c with
    | act a => exact List.forall_mem_cons.2 ⟨h.1, ih h.2⟩
    | wait d => exact List.forall_mem_nil _
    | flashes n id hl hold =>
      cases n with
      | zero => exact ih h
      | succ n => exact List.forall_mem_singleton.2 (by rintro ⟨⟩)

end Cue

theorem Strand.follow_eq (now : Nat) (pacing : Pacing) (s : Stage) (cues : List Cue) :
    (follow now pacing s cues).1 = (Cue.leading cues).foldl (fun s a => s.perform now a) s := by
  induction cues generalizing s with
  | nil => rfl
  | cons c rest ih =>
    cases c with
    | act a => exact ih _
    | wait d => rfl
    | flashes n id hl hold =>
      cases n with
      | zero => exact ih s
      | succ n => rfl

namespace Stage

variable {base base' : Nat} {lost : Edge → Prop} {s s' t t' : Stage} {now now' : Nat}
  {pacing pacing' : Pacing} {id : EntityId} {k : Kind} {tag : CommandTag}
  {cues cues' : List (List Cue)}

/-- A command was opened on both stages, with the same acts to come before the first waits, or it
    was refused on both. -/
def OpensAlike (base base' : Nat) (lost : Edge → Prop) : Opening → Opening → Prop
  | .ok (t, cues), .ok (t', cues') =>
    Alike base base' lost t t' ∧ cues'.map Cue.leading = cues.map Cue.leading
  | .error _, .error _ => True
  | _, _ => False

theorem OpensAlike.bind {α : Type} {x x' : Except CommandProblem α} {f f' : α → Opening}
    (hx : x' = x) (hf : ∀ a, x = .ok a → OpensAlike base base' lost (f a) (f' a)) :
    OpensAlike base base' lost (x >>= f) (x' >>= f') := by
  subst hx
  cases x' with
  | error p => trivial
  | ok a => exact hf a rfl

/-- What is done to both stages once they are opened leaves them alike if it does so to any. -/
theorem OpensAlike.andThen {o o' : Opening} (h : OpensAlike base base' lost o o')
    (f g : Stage → Stage)
    (hfg : ∀ t t', Alike base base' lost t t' → Alike base base' lost (f t) (g t')) :
    OpensAlike base base' lost (do let (t, cues) ← o; .ok (f t, cues))
      (do let (t, cues) ← o'; .ok (g t, cues)) := by
  cases o with
  | error p =>
    cases o' with
    | error p' => trivial
    | ok opened' => exact h
  | ok opened =>
    cases o' with
    | error p' => exact h
    | ok opened' => exact ⟨hfg _ _ h.1, h.2⟩

theorem Alike.create {e : Entity} {f : Figure} {enter : Transition} {after : List Cue}
    (h : Alike base base' lost s s') (hf : (s.scene.put e).figureOf? e = some f) :
    OpensAlike base base' lost (s.create now pacing tag e f enter after)
      (s'.create now' pacing' tag e f enter after) := by
  have hentered := h.enter hf now now' (pacing.transition enter) (pacing'.transition enter)
  unfold Stage.create
  dsimp only
  cases henter : s.enter now e f (pacing.transition enter) with
  | error c =>
    cases henter' : s'.enter now' e f (pacing'.transition enter) with
    | error c' => trivial
    | ok t' =>
      rw [henter, henter'] at hentered
      exact hentered
  | ok t =>
    cases henter' : s'.enter now' e f (pacing'.transition enter) with
    | error c' =>
      rw [henter, henter'] at hentered
      exact hentered
    | ok t' =>
      rw [henter, henter'] at hentered
      exact ⟨hentered, rfl⟩

theorem Alike.delete (h : Alike base base' lost s s') :
    OpensAlike base base' lost (s.delete now pacing tag k id)
      (s'.delete now' pacing' tag k id) := by
  have hshows' := h.shows id
  unfold Stage.delete
  dsimp only
  rw [hshows', h.scene]
  cases hhas : s.scene.has k id with
  | false => trivial
  | true =>
    cases hshows : s.presenter.shows id with
    | false => exact ⟨h.scene ▸ h.erase k hshows, rfl⟩
    | true =>
      obtain ⟨halike, hsome⟩ := h.beginExit now now' id
        (pacing.transition (.fadeOut exitSpan)) (pacing'.transition (.fadeOut exitSpan))
      simp only [Bool.not_true, Bool.false_eq_true, ↓reduceIte]
      rcases hbegun : s.presenter.beginExit now id (pacing.transition (.fadeOut exitSpan)) with
        ⟨p, ticket⟩
      rcases hbegun' : s'.presenter.beginExit now' id (pacing'.transition (.fadeOut exitSpan)) with
        ⟨p', ticket'⟩
      rw [hbegun, hbegun', h.scene] at halike
      rw [hbegun, hbegun'] at hsome
      -- There is a ticket on both stages or on neither, and the exit waits before it is finished.
      cases ticket with
      | none =>
        cases ticket' with
        | none => exact ⟨halike, rfl⟩
        | some ticket' => cases hsome
      | some ticket =>
        cases ticket' with
        | none => cases hsome
        | some ticket' => exact ⟨halike, rfl⟩

/-- Only the scene says which nodes are missing. -/
theorem requireNodes_congr (h : s'.scene = s.scene) (tag : CommandTag) (ids : List EntityId) :
    s'.requireNodes tag ids = s.requireNodes tag ids := by
  rw [requireNodes, requireNodes, h]

theorem requireCells_congr (h : s'.scene = s.scene) (tag : CommandTag) (id : EntityId)
    (indices : List Nat) : s'.requireCells tag id indices = s.requireCells tag id indices := by
  rw [requireCells, requireCells, h]

/-- Cells are only asked for where there are. -/
theorem requireCells_eq_ok {indices : List Nat} {r : Row}
    (h : s.requireCells tag id indices = .ok r) :
    s.scene.rows.find? id = some r ∧ ∀ i ∈ indices, r.hasCell i = true := by
  unfold requireCells at h
  split at h
  · cases h
  · next r' hr =>
    split at h
    · cases h
    · next hfind =>
      cases h
      exact ⟨hr, fun i hi => by simpa using List.find?_eq_none.1 hfind i hi⟩

theorem Alike.changeRow (h : Alike base base' lost s s') {f : Row → Row}
    (hid : ∀ r, (f r).id = r.id) (tints : List (Nat × Color)) :
    Alike base base' lost
      (redrawRow { s with scene := s.scene.modifyRow id f } now id tints)
      (redrawRow { s' with scene := s'.scene.modifyRow id f } now' id tints) := by
  have hchanged := h.rescene (Scene.modifyRow · id f) (h.neat.keyed.modifyRow hid)
    (Scene.has_modifyRow _ _ _) rfl
  exact hchanged.performs (a := .tint id tints) (by rintro ⟨⟩) now now'

theorem Alike.changeNode (h : Alike base base' lost s s') (id : EntityId) {f : Node → Node}
    (hid : ∀ n, (f n).id = n.id) :
    Alike base base' lost { s with scene := s.scene.modifyNode id f }
      { s' with scene := s'.scene.modifyNode id f } :=
  h.rescene (Scene.modifyNode · id f) (h.neat.keyed.modifyNode hid)
    (Scene.has_modifyNode _ _ _) rfl

/-- Every command is opened alike. -/
theorem Alike.opening (h : Alike base base' lost s s') (now now' : Nat) (pacing pacing' : Pacing)
    (c : Command) :
    OpensAlike base base' lost (s.opening now pacing c) (s'.opening now' pacing' c) := by
  -- Whether a command is refused is decided on the scene, which is the same on both stages.
  have hnodes := requireNodes_congr h.scene
  have hcells := requireCells_congr h.scene
  cases c with
  | createNode n =>
    have hcreate : OpensAlike base base' lost
        (s.create now pacing .createNode (.node n) (.ofNode n none) (.fadeIn enterSpan) [])
        (s'.create now' pacing' .createNode (.node n) (.ofNode n none) (.fadeIn enterSpan) []) :=
      h.create rfl
    refine hcreate.andThen (Stage.perform · now (.followNode n.id))
      (Stage.perform · now' (.followNode n.id)) fun t t' ht => ?_
    exact ht.performs (by rintro ⟨⟩) now now'
  | updateNode id value style =>
    simp only [Stage.opening, Stage.updateNode, h.scene]
    cases hhas : s.scene.has .node id with
    | false => trivial
    | true =>
      have hchanged := h.changeNode id (f := fun n => { n with
        value := value.getD n.value
        style := (style.filter fun t => !t.isEmpty).orElse fun _ => n.style }) fun _ => rfl
      rw [h.scene] at hchanged
      exact ⟨hchanged.performs (a := .highlight id none) (by rintro ⟨⟩) now now', rfl⟩
  | deleteNode id => exact h.delete
  | deleteEdge id => exact h.delete
  | moveNode id destination span easing =>
    simp only [Stage.opening, Stage.moveNode, h.scene]
    cases hfind : s.scene.nodes.find? id with
    | none => trivial
    | some n =>
      have hchanged := h.changeNode id (f := fun n => { n with position := destination })
        fun _ => rfl
      rw [h.scene] at hchanged
      exact ⟨hchanged.move id destination _ _ now now', rfl⟩
  | highlight id color intensity span => exact .bind (hnodes _ _) fun _ _ => ⟨h, rfl⟩
  | compare elements operator result => exact .bind (hnodes _ _) fun _ _ => ⟨h, rfl⟩
  | pulse id count color => exact .bind (hnodes _ _) fun _ _ => ⟨h, rfl⟩
  | highlightPath nodes color span sequential => exact .bind (hnodes _ _) fun _ _ => ⟨h, rfl⟩
  | createEdge id source target directed weight style =>
    simp only [Stage.opening, Stage.createEdge, h.scene]
    cases missingNode? s.scene [source, target] with
    | some i => trivial
    | none =>
      cases hfigure : edgeFigure? s.scene ⟨id, source, target, directed, weight, .ofName style⟩ with
      | none => trivial
      | some f => exact h.create hfigure
  | createArray r => exact h.create rfl
  | swap row indices span =>
    obtain ⟨i, j⟩ := indices
    exact .bind (hcells _ _ _) fun _ _ => ⟨h.changeRow (swapCells_id i j) _, rfl⟩
  | updateCell row i value highlight =>
    refine .bind (hcells _ _ _) fun _ _ => ?_
    cases highlight <;>
    exact ⟨h.changeRow (f := fun r => r.setCell i value) (fun _ => rfl) _, rfl⟩
  | setPointer id row index label color =>
    refine .bind (hcells _ _ _) fun r hr => h.create ?_
    obtain ⟨hrow, hcell⟩ := requireCells_eq_ok hr
    have hindex : r.hasCell index = true := hcell index List.mem_cons_self
    simp only [Scene.figureOf?, Scene.put, hrow, Option.bind_some, hindex, ↓reduceIte]
  | addLabel id text position style => exact h.create rfl
  | addCallout id form start stop label =>
    simp only [Stage.opening, Stage.addCallout]
    split
    · exact h.create rfl
    · trivial

end Stage

open Stage

variable {base base' : Nat} {lost : Edge → Prop} {s s' : Stage} {now now' : Nat}
  {pacing pacing' : Pacing}

/-- Acts that finish no exit leave the stages alike. -/
theorem Stage.Alike.performAll (h : Alike base base' lost s s') (now now' : Nat) {acts : List Act}
    (hacts : ∀ a ∈ acts, ¬a.IsExit) :
    Alike base base' lost (acts.foldl (fun s a => s.perform now a) s)
      (acts.foldl (fun s a => s.perform now' a) s') := by
  induction acts generalizing s s' with
  | nil => exact h
  | cons a acts ih =>
    obtain ⟨ha, hrest⟩ := List.forall_mem_cons.1 hacts
    exact ih (h.performs ha now now') hrest

theorem Stage.Alike.followAll (h : Alike base base' lost s s') (now now' : Nat)
    (pacing pacing' : Pacing) {cues cues' : List (List Cue)}
    (hsame : cues'.map Cue.leading = cues.map Cue.leading)
    (hlingers : ∀ l ∈ cues, Cue.Lingers l) :
    Alike base base' lost (Strand.followAll now pacing s cues).1
      (Strand.followAll now' pacing' s' cues').1 := by
  induction cues generalizing s s' cues' with
  | nil =>
    obtain rfl := List.map_eq_nil_iff.1 hsame
    exact h
  | cons l rest ih =>
    cases cues' with
    | nil => cases hsame
    | cons l' rest' =>
      obtain ⟨hfirst, hrest⟩ := List.cons.inj hsame
      obtain ⟨hl, hothers⟩ := List.forall_mem_cons.1 hlingers
      have halike := h.performAll now now' (Cue.leading_of_lingers hl)
      rw [← Strand.follow_eq now pacing, ← hfirst, ← Strand.follow_eq now' pacing'] at halike
      exact ih halike hrest hothers

/-- A command that begins leaves the stages alike. -/
theorem Stage.Alike.start {owed : Set Act} (h : Alike base base' lost s s') (hs : s.Coherent owed)
    (now now' : Nat) (pacing pacing' : Pacing) (command : Json) :
    Alike base base' lost (Course.start now pacing s command).1
      (Course.start now' pacing' s' command).1 := by
  unfold Course.start
  cases hc : Command.ofJson command with
  | error p => exact h
  | ok c =>
    have hopening := h.opening now now' pacing pacing' c
    obtain ⟨d, hd⟩ := exists_matches s
    have hopens := opens now pacing hs hd c
    dsimp only
    -- The command is refused on both stages, or opened on both with the same acts before the first
    -- waits, and these are performed at once.
    cases hx : s.opening now pacing c with
    | error p =>
      cases hx' : s'.opening now' pacing' c with
      | error p' => exact h
      | ok opened' =>
        rw [hx, hx'] at hopening
        exact hopening.elim
    | ok opened =>
      cases hx' : s'.opening now' pacing' c with
      | error p' =>
        rw [hx, hx'] at hopening
        exact hopening.elim
      | ok opened' =>
        rw [hx, hx'] at hopening
        obtain ⟨halike, hcues⟩ := hopening
        refine halike.followAll now now' pacing pacing' hcues ?_
        cases htake : d.take c with
        | error p =>
          rw [htake, hx] at hopens
          cases hopens
        | ok d' =>
          rw [htake, hx] at hopens
          obtain ⟨_, _, heq, hopened⟩ := hopens
          cases heq
          exact hopened.lingers

/-- Commands that begin one after another leave the stages alike. -/
theorem Stage.Alike.startAll {owed : Set Act} (h : Alike base base' lost s s')
    (hs : s.Coherent owed) (now now' : Nat) (pacing pacing' : Pacing) (commands : List Json) :
    Alike base base' lost (Course.startAll now pacing s commands).1
      (Course.startAll now' pacing' s' commands).1 := by
  induction commands generalizing s s' owed with
  | nil => exact h
  | cons command rest ih =>
    obtain ⟨d, hd⟩ := exists_matches s
    have hcoherent := (Course.startAll_spec now pacing hs hd 0 [command]).1
    exact ih (h.start hs now now' pacing pacing' command) hcoherent

/-- A neat stage is like itself. -/
theorem Stage.Neat.alike (h : s.Neat) (lost : Edge → Prop) : Alike 0 0 lost s s := by
  refine ⟨h, h, rfl, rfl, fun id => ?_⟩
  cases s.presenter.sight? id with
  | none => exact .none
  | some v => exact .some ⟨rfl, rfl, rfl, fun _ _ => rfl⟩

/-- So it stays neat when a command begins. -/
theorem Stage.Neat.start {owed : Set Act} (h : s.Neat) (hs : s.Coherent owed) (now : Nat)
    (pacing : Pacing) (command : Json) : (Course.start now pacing s command).1.Neat :=
  ((h.alike fun _ => False).start hs now now pacing pacing command).neat

end Storyboard
