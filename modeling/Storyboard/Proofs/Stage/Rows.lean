import Storyboard.Proofs.Drawing.Cells
import Storyboard.Proofs.Stage.Cells
import Storyboard.Proofs.Stage.Neat
import Storyboard.Proofs.Stage.Segment

/-! # Rows as they are drawn

    A row that is in the scene is never on its way out, and between any two
    segments it is drawn with the cells that it has, some of them tinted
    (`showsRows_step`). So the texts that are drawn are those of its cells, in
    their order, also right after cells were exchanged or written to, and the
    cells that a command tints are tinted then (`cells_drawn_after`). -/

namespace Storyboard

/-- An act that draws a row draws it as it stands. -/
theorem Act.figure?_row {s : Scene} {a : Act} {id : EntityId} {r : Row} {f : Figure}
    (hx : s.Exclusive) (hr : s.rows.find? id = some r) (h : a.figure? s id = some f) :
    ∃ tints, f = .ofRow r tints := by
  -- Nothing of another kind is under the identifier of the row.
  have honly : ∀ {k e}, s.get? k id = some e → k = .array := fun hget =>
    hx _ _ id (Scene.has_of_get? hget) (Scene.has_of_get? (Scene.get?_row.2 hr))
  cases a with
  | highlight i hl =>
    simp only [figure?] at h
    split at h
    · next hi =>
      obtain ⟨n, hn, _⟩ := Option.map_eq_some_iff.1 h
      cases honly (Scene.get?_node.2 (hi ▸ hn))
    · cases h
  | tint i tints =>
    simp only [figure?] at h
    split at h
    · next hi =>
      rw [← hi, hr] at h
      exact ⟨tints, (Option.some.inj h).symm⟩
    · cases h
  | followNode i =>
    obtain ⟨e, he, _⟩ := Option.bind_eq_some_iff.1 h
    cases honly (Scene.get?_edge.2 he)
  | followRow i =>
    obtain ⟨_, _, hfound⟩ := Option.bind_eq_some_iff.1 h
    obtain ⟨p, hp, _⟩ := Option.bind_eq_some_iff.1 hfound
    cases honly (Scene.get?_pointer.2 hp)
  | finishExit t k i => cases h

/-- A thing stays, and is seen as the row that it is, with some cells tinted. -/
def Sight.Shows (r : Row) (v : Sight) : Prop :=
  v.exiting = false ∧ ∃ tints, v.figure = .ofRow r tints

namespace Stage

/-- Every row that is seen is seen as it stands. -/
structure ShowsRows (s : Stage) : Prop where
  sound     : s.presenter.Sound
  keyed     : s.scene.Keyed
  exclusive : s.scene.Exclusive
  shown     : ∀ id r v, s.row? id = some r → s.presenter.sight? id = some v → v.Shows r

variable {s s' : Stage} {now : Nat} {pacing : Pacing} {tag : CommandTag} {id : EntityId} {k : Kind}
  {cues : List (List Cue)}

namespace ShowsRows

/-! ### Acts -/

/-- Figures are drawn, and those of rows as the rows stand. -/
theorem redrawn {F : EntityId → Option Figure} (h : s.ShowsRows) (hd : Redrawn s s' F)
    (hF : ∀ j r f, s.row? j = some r → F j = some f → ∃ tints, f = .ofRow r tints) :
    s'.ShowsRows := by
  refine ⟨hd.sound, hd.scene ▸ h.keyed, hd.scene ▸ h.exclusive, fun j r v' hr hv' => ?_⟩
  rw [row?_of_scene hd.scene] at hr
  rw [hd.sight] at hv'
  cases hf : F j with
  | none =>
    rw [hf] at hv'
    exact h.shown j r v' hr hv'
  | some f =>
    rw [hf] at hv'
    obtain ⟨v, hv, rfl⟩ := Option.map_eq_some_iff.1 hv'
    have hx := (h.shown j r v hr hv).1
    unfold Sight.redrawn
    rw [hx]
    exact ⟨rfl, hF j r f hr hf⟩

/-- An exit may be over: then something is seen no more, and something is gone. -/
theorem finishExit (h : s.ShowsRows) (now : Nat) (ticket : Ticket) (k : Kind) (id : EntityId) :
    (s.finishExit now ticket k id).ShowsRows := by
  unfold Stage.finishExit
  by_cases hmatch : ∃ v, s.presenter.sight? ticket.id = some v ∧
      v.incarnation = ticket.incarnation
  · obtain ⟨v, hv, heq⟩ := hmatch
    rw [Presenter.finishExit_of_match hv heq]
    obtain ⟨hsound, hsight⟩ := Presenter.sound_discard h.sound now ticket.id
    refine ⟨hsound, h.keyed.erase k id, h.exclusive.erase k id, fun j r v' hr hv' => ?_⟩
    have hget := Scene.get?_row.2 hr
    rw [Scene.get?_erase] at hget
    rw [hsight] at hv'
    split at hget
    · cases hget
    · split at hv'
      · cases hv'
      · exact h.shown j r v' (Scene.get?_row.1 hget) hv'
  · rw [Presenter.finishExit_of_stale h.sound fun v hv heq => hmatch ⟨v, hv, heq⟩]
    exact h

theorem perform (h : s.ShowsRows) (now : Nat) (a : Act) : (s.perform now a).ShowsRows := by
  cases a with
  | finishExit ticket k id => exact h.finishExit now ticket k id
  | _ =>
    refine h.redrawn (perform_redraws h.sound h.keyed now (by rintro ⟨⟩)) fun j r f hr hf => ?_
    exact Act.figure?_row h.exclusive hr hf

theorem acted {A : Set Act} (h : s.ShowsRows) (hacted : Acted A s s') : s'.ShowsRows := by
  induction hacted with
  | refl => exact h
  | act now _ _ ih => exact ih (h.perform now _)

/-! ### Changes -/

/-- Under the identifier of a thing of another kind there is no row. -/
theorem row?_eq_none (h : s.ShowsRows) (hk : k ≠ .array) (hhas : s.scene.has k id = true) :
    s.row? id = none := by
  cases hr : s.row? id with
  | none => rfl
  | some r => exact absurd (h.exclusive _ _ id hhas (Scene.has_of_get? (Scene.get?_row.2 hr))) hk

/-- The scene changes, but no row does. -/
theorem rescene {scene : Scene} (h : s.ShowsRows) (hkeyed : scene.Keyed)
    (hhas : ∀ k i, scene.has k i = s.scene.has k i) (hrows : scene.rows = s.scene.rows) :
    ShowsRows { s with scene } := by
  refine ⟨h.sound, hkeyed, h.exclusive.congr hhas, fun j r v hr hv => ?_⟩
  exact h.shown j r v ((congrArg (·.find? j) hrows).symm.trans hr) hv

/-- A thing of another kind is seen otherwise, or not at all. -/
theorem represent {p : Presenter} (h : s.ShowsRows) (hp : p.Sound) (hnone : s.row? id = none)
    (hsight : ∀ j, j ≠ id → p.sight? j = s.presenter.sight? j) :
    ShowsRows { s with presenter := p } := by
  refine ⟨hp, h.keyed, h.exclusive, fun j r v hr hv => ?_⟩
  have hne : j ≠ id := by
    rintro rfl
    cases hnone.symm.trans hr
  exact h.shown j r v hr ((hsight j hne).symm.trans hv)

/-- A thing enters; a row is drawn as it stands. -/
theorem enter {e : Entity} {f : Figure} {t : Transition} (h : s.ShowsRows)
    (henter : s.enter now e f t = .ok s') (hf : ∀ r, e = .row r → ∃ tints, f = .ofRow r tints) :
    s'.ShowsRows := by
  unfold Stage.enter at henter
  split at henter
  · cases henter
  next scene hinsert =>
  cases henter
  obtain ⟨rfl, honly⟩ := Scene.insert_eq_ok h.exclusive hinsert
  obtain ⟨hsound, hsight⟩ := Presenter.sound_present h.sound now e.kind e.id f t
  refine ⟨hsound, h.keyed.put e, h.exclusive.put honly, fun j r v hr hv => ?_⟩
  have hget := Scene.get?_row.2 hr
  rw [Scene.get?_put] at hget
  rw [hsight] at hv
  by_cases hj : j = e.id
  · rw [if_pos hj] at hv
    cases hv
    split at hget
    · exact ⟨rfl, hf r (Option.some.inj hget)⟩
    · next hne =>
      -- A row that was there before would have to be of the same kind.
      exact absurd ⟨honly .array (hj ▸ Scene.has_of_get? hget), hj⟩ hne
  · rw [if_neg hj] at hv
    rw [if_neg fun hk => hj hk.2] at hget
    exact h.shown j r v (Scene.get?_row.1 hget) hv

theorem create {e : Entity} {f : Figure} {t : Transition} {after : List Cue} (h : s.ShowsRows)
    (heq : s.create now pacing tag e f t after = .ok (s', cues))
    (hf : ∀ r, e = .row r → ∃ tints, f = .ofRow r tints) : s'.ShowsRows := by
  unfold Stage.create at heq
  dsimp only at heq
  split at heq
  · cases heq
  · next henter =>
    cases heq
    exact h.enter henter hf

/-- Rows are not deleted. -/
theorem delete (h : s.ShowsRows) (hk : k ≠ .array)
    (heq : s.delete now pacing tag k id = .ok (s', cues)) : s'.ShowsRows := by
  unfold Stage.delete at heq
  dsimp only at heq
  split at heq
  · cases heq
  next hhas =>
  rw [Bool.not_eq_true', Bool.not_eq_false] at hhas
  -- What leaves is of another kind, so there is no row of its name.
  have hexit : ShowsRows { s with
      presenter := (s.presenter.beginExit now id (pacing.transition (.fadeOut exitSpan))).1 } := by
    obtain ⟨hsound, hsight⟩ := Presenter.sound_beginExit h.sound now id
      (pacing.transition (.fadeOut exitSpan))
    exact h.represent hsound (h.row?_eq_none hk hhas) hsight
  split at heq
  · cases heq
    refine ⟨h.sound, h.keyed.erase k id, h.exclusive.erase k id, fun j r v hr hv => ?_⟩
    refine h.shown j r v ?_ hv
    exact (congrArg (·.find? j) (rows_erase s.scene hk id)).symm.trans hr
  · split at heq
    · next hp =>
      rw [hp] at hexit
      cases heq
      exact hexit
    · next hp =>
      rw [hp] at hexit
      cases heq
      exact hexit

/-- A node moves. -/
theorem move (h : s.ShowsRows) (hnode : s.scene.has .node id = true) (now : Nat)
    (destination : Point) (t : Transition) :
    ShowsRows ⟨s.scene.modifyNode id fun n => { n with position := destination },
      (s.presenter.move now id destination t).1⟩ := by
  obtain ⟨hsound, hsight⟩ := Presenter.sound_move h.sound now id destination t
  have hmoved := h.represent hsound (h.row?_eq_none (by decide) hnode)
    fun j hj => by rw [hsight, if_neg hj]
  exact hmoved.rescene (h.keyed.modifyNode fun _ => rfl) (Scene.has_modifyNode _ _ _) rfl

/-- The cells of a row change, and the row is drawn at once with some of them tinted. -/
theorem changeRow {f : Row → Row} (h : s.ShowsRows) (hid : ∀ r, (f r).id = r.id) (now : Nat)
    (id : EntityId) (tints : List (Nat × Color)) :
    (redrawRow { s with scene := s.scene.modifyRow id f } now id tints).ShowsRows ∧
      ∀ r v, s.row? id = some r → s.presenter.sight? id = some v →
        (redrawRow { s with scene := s.scene.modifyRow id f } now id tints).presenter.sight? id =
          some { v with figure := .ofRow (f r) tints } := by
  have hd : Redrawn { s with scene := s.scene.modifyRow id f }
      (redrawRow { s with scene := s.scene.modifyRow id f } now id tints)
      ((Act.tint id tints).figure? (s.scene.modifyRow id f)) :=
    redrawn_redrawRow (s := { s with scene := s.scene.modifyRow id f }) h.sound tints
  -- What is drawn is the row as it stands after the change.
  have hfigure : ∀ j, (Act.tint id tints).figure? (s.scene.modifyRow id f) j =
      if j = id then ((s.row? id).map f).map (Figure.ofRow · tints) else none := by
    intro j
    have hrow : (s.scene.modifyRow id f).rows.find? id = (s.row? id).map f :=
      (row?_modifyRow s f id).trans (if_pos rfl)
    rw [Act.figure?, hrow]
  have hnow : ∀ r v, s.row? id = some r → s.presenter.sight? id = some v →
      (redrawRow { s with scene := s.scene.modifyRow id f } now id tints).presenter.sight? id =
        some { v with figure := .ofRow (f r) tints } := by
    intro r v hr hv
    have hx := (h.shown id r v hr hv).1
    rw [hd.sight, hfigure, if_pos rfl, hr, hv]
    simp [Sight.drawnOver, Sight.redrawn, hx]
  refine ⟨⟨hd.sound, ?_, ?_, fun j r v' hr hv' => ?_⟩, hnow⟩
  · rw [hd.scene]
    exact h.keyed.modifyRow hid
  · rw [hd.scene]
    exact h.exclusive.congr (Scene.has_modifyRow _ _ _)
  · rw [row?_of_scene hd.scene, row?_modifyRow] at hr
    split at hr
    · next hj =>
      subst hj
      obtain ⟨old, hold, rfl⟩ := Option.map_eq_some_iff.1 hr
      cases hv : s.presenter.sight? j with
      | none =>
        have hstatus := hd.status j
        rw [hv', show Presenter.sight? _ j = none from hv] at hstatus
        cases hstatus
      | some v =>
        rw [hnow old v hold hv] at hv'
        rw [← Option.some.inj hv']
        exact ⟨(h.shown j old v hold hv).1, tints, rfl⟩
    · next hj =>
      rw [hd.sight, hfigure, if_neg hj] at hv'
      exact h.shown j r v' hr hv'

/-! ### Commands -/

/-- A command that takes effect leaves every row seen as it stands. -/
theorem opening (h : s.ShowsRows) {c : Command} (heq : s.opening now pacing c = .ok (s', cues)) :
    s'.ShowsRows := by
  cases effect_of_opening heq with
  | @createNode n _ _ hcreate =>
    exact (h.create hcreate (by rintro r ⟨⟩)).perform now (.followNode n.id)
  | createEdge _ hcreate | setPointer _ hcreate | addLabel hcreate | addCallout _ hcreate =>
    exact h.create hcreate (by rintro r ⟨⟩)
  | createArray hcreate =>
    refine h.create hcreate ?_
    rintro _ ⟨⟩
    exact ⟨[], rfl⟩
  | @updateNode id =>
    refine perform (s := { s with scene := s.scene.modifyNode id _ }) ?_ now (.highlight id none)
    exact h.rescene (h.keyed.modifyNode fun _ => rfl) (Scene.has_modifyNode _ _ _) rfl
  | @moveNode _ destination _ _ n _ hnode =>
    exact h.move (Scene.has_node_iff.2 ⟨n, hnode⟩) now destination _
  | deleteNode hdelete | deleteEdge hdelete => exact h.delete (by decide) hdelete
  | highlight | compare | pulse | highlightPath => exact h
  | @swap row i j => exact (h.changeRow (swapCells_id i j) now row _).1
  | @updateCell row i value =>
    exact (h.changeRow (f := fun r => r.setCell i value) (fun _ => rfl) now row _).1

/-- So does a command that begins, whether it is refused or not. -/
theorem start (h : s.ShowsRows) (now : Nat) (pacing : Pacing) (command : Json) :
    (Course.start now pacing s command).1.ShowsRows := by
  unfold Course.start
  split
  · exact h
  · split
    · exact h
    · next s' cues hopen =>
      have hall : ∀ l ∈ cues, Cue.actsOf l ⊆ Set.univ := fun l _ => Set.subset_univ _
      exact (h.opening hopen).acted (Strand.followAll_acted now pacing hall).1

end ShowsRows

/-- Nothing is seen where nothing is drawn. -/
theorem showsRows_of_empty (hscene : s.scene = .empty) (hlive : s.presenter.live = .empty)
    (hitems : s.presenter.canvas.items = .empty) : s.ShowsRows := by
  refine ⟨Presenter.sound_of_empty hlive hitems, hscene ▸ Scene.keyed_empty, ?_, ?_⟩
  · intro j k id hj
    rw [hscene] at hj
    simp [Scene.has] at hj
  · intro id r v hr
    rw [row?, hscene] at hr
    cases hr

/-! ### Whatever comes of commands -/

namespace Interleaving

variable {i : Interleaving}

theorem showsRows_step (h : i.stage.ShowsRows) (segment : Segment) :
    (i.step segment).stage.ShowsRows := by
  cases segment with
  | start now pacing command => exact h.start now pacing command
  | resume now place =>
    cases hplace : i.strands[place]? with
    | none => simpa [step, hplace] using h
    | some strand =>
      have hacted := (Strand.resume_acted (s := i.stage) now strand.1
        (Set.subset_univ (Cue.actsOf strand.2.cues))).1
      simpa [step, hplace] using h.acted hacted
  | reset now => exact showsRows_of_empty rfl rfl rfl
  | readJournal =>
    exact ⟨⟨h.sound.drawn, h.sound.owned, h.sound.counted, h.sound.numbered⟩, h.keyed,
      h.exclusive, h.shown⟩

theorem showsRows_after (segments : List Segment) : (after segments).stage.ShowsRows :=
  List.foldlRecOn segments step (motive := fun i => i.stage.ShowsRows)
    (showsRows_of_empty rfl rfl rfl) fun _ h segment _ => showsRows_step h segment

/-- Between segments a row that is in the scene is seen as it stands. -/
theorem exists_shows {id : EntityId} {r : Row} (segments : List Segment)
    (hr : (after segments).stage.row? id = some r) :
    ∃ v, (after segments).stage.presenter.sight? id = some v ∧ v.kind = .array ∧ v.Shows r := by
  have hhas := Scene.has_of_get? (Scene.get?_row.2 hr)
  obtain ⟨v, hv, hkind⟩ := ((whole_after segments).coherent.listed .array id).1 hhas
  exact ⟨v, hv, hkind, (showsRows_after segments).shown id r v hr hv⟩

/-- When the cells of a row change, it is drawn at once as it stands then. -/
theorem draws_changeRow {id : EntityId} {r : Row} {f : Row → Row} (segments : List Segment)
    (hid : ∀ r, (f r).id = r.id) (now : Nat) (tints : List (Nat × Color)) :
    let s := (after segments).stage
    let s' := redrawRow { s with scene := s.scene.modifyRow id f } now id tints
    s.row? id = some r → s'.row? id = some (f r) ∧ s'.Draws .array id (.ofRow (f r) tints) := by
  intro s s' hr
  obtain ⟨v, hv, hkind, _⟩ := exists_shows segments hr
  obtain ⟨hshown, hsight⟩ := (showsRows_after segments).changeRow hid now id tints
  refine ⟨?_, hkind ▸ draws_of_sight hshown.sound (hsight r v hr hv)⟩
  rw [row?_of_scene (scene_redrawRow _ now id tints), row?_modifyRow, if_pos rfl]
  exact congrArg (Option.map f) hr

end Interleaving

/-- The row that a command about cells asks for is in the scene. -/
theorem row?_of_requireCells {indices : List Nat} {r : Row}
    (h : s.requireCells tag id indices = .ok r) : s.row? id = some r := by
  unfold requireCells at h
  split at h
  · cases h
  · next r' hr =>
    split at h
    · cases h
    · rw [← Except.ok.inj h]
      exact hr

/-- The figure of a row shows its cells, whatever the tints are. Between any two segments every row
    of the scene is drawn once, with the cells that it has. It is drawn afresh as soon as two of its
    cells are exchanged or one is written to, with the tints that the command gives. -/
theorem cells_drawn_after :
    (∀ r tints, (Figure.ofRow r tints).ShowsRow r tints) ∧
    ∀ segments, let s := (Interleaving.after segments).stage
      (∀ id r, s.row? id = some r → ∃ f tints, s.Draws .array id f ∧ f.ShowsRow r tints) ∧
      (∀ now pacing id i j span s' cues,
        s.opening now pacing (.swap id (i, j) span) = .ok (s', cues) →
          ∃ r f, s.row? id = some r ∧ s'.row? id = some (r.swapCells i j) ∧ s'.Draws .array id f ∧
            f.ShowsRow (r.swapCells i j) [(i, Color.amber.tint), (j, Color.amber.tint)]) ∧
      ∀ now pacing id i value lit s' cues,
        s.opening now pacing (.updateCell id i value lit) = .ok (s', cues) →
          ∃ r f, s.row? id = some r ∧ s'.row? id = some (r.setCell i value) ∧
            s'.Draws .array id f ∧
            f.ShowsRow (r.setCell i value) (if lit then [(i, Color.success.tint)] else []) := by
  refine ⟨Figure.showsRow_ofRow, fun segments => ⟨?_, ?_, ?_⟩⟩
  · intro id r hr
    -- Between the segments every row has an item with its figure, and that shows its cells.
    obtain ⟨v, hv, hkind, _, tints, hfigure⟩ := Interleaving.exists_shows segments hr
    refine ⟨_, tints, hkind ▸ draws_of_sight (Interleaving.showsRows_after segments).sound hv, ?_⟩
    rw [hfigure]
    exact Figure.showsRow_ofRow r tints
  · intro now pacing id i j span s' cues heq
    -- A command that was opened found its cells, and the row is drawn afresh with them changed.
    cases effect_of_opening heq with
    | @swap _ _ _ _ r hcells =>
      have hr := row?_of_requireCells hcells
      obtain ⟨hrow, hdraws⟩ := Interleaving.draws_changeRow segments (swapCells_id i j) now
        [(i, Color.amber.tint), (j, Color.amber.tint)] hr
      exact ⟨r, _, hr, hrow, hdraws, Figure.showsRow_ofRow _ _⟩
  · intro now pacing id i value lit s' cues heq
    cases effect_of_opening heq with
    | @updateCell _ _ _ _ r hcells =>
      have hr := row?_of_requireCells hcells
      obtain ⟨hrow, hdraws⟩ := Interleaving.draws_changeRow segments
        (f := fun r => r.setCell i value) (fun _ => rfl) now
        (if lit then [(i, Color.success.tint)] else []) hr
      exact ⟨r, _, hr, hrow, hdraws, Figure.showsRow_ofRow _ _⟩

/-- The first and the last of three cells are exchanged, and both are tinted then. -/
theorem cells_drawn_after_swap :
    let create : Json := .obj [("command", .str "CREATE_ARRAY"), ("id", .str "a"),
      ("position", .obj [("x", .int 0), ("y", .int 0)]),
      ("values", .arr [.str "p", .str "q", .str "r"])]
    let s := (Interleaving.after [.start 0 .instant create]).stage
    ∃ s' cues f, s.opening 0 .instant (.swap ⟨"a"⟩ (0, 2) .zero) = .ok (s', cues) ∧
      s'.Draws .array ⟨"a"⟩ f ∧ f.cellTexts = ["r", "q", "p"] ∧
      [0, 1, 2].map (fun i => (f.part? (.cell i)).map (·.paint.fill)) =
        [some (some Color.amber.tint), some (some (Color.white.fade 0.05)),
          some (some Color.amber.tint)] := by
  intro create s
  have hcells : (s.row? ⟨"a"⟩).map (·.cells) = some ["p", "q", "r"] := by decide +kernel
  obtain ⟨r, hr, hrcells⟩ := Option.map_eq_some_iff.1 hcells
  have hfits : Row.fits r.cells.length (0, 2) = true := by
    rw [hrcells]
    decide
  -- Both cells are there, so the command is taken and the row is drawn with it.
  have htaken : ∃ opened, s.opening 0 .instant (.swap ⟨"a"⟩ (0, 2) .zero) = .ok opened :=
    opening_swap_iff.2 ⟨r, hr, hfits⟩
  obtain ⟨⟨s', cues⟩, hopen⟩ := htaken
  obtain ⟨r', f, hr', _, hdraws, hshows⟩ :=
    (cells_drawn_after.2 [.start 0 .instant create]).2.1 0 .instant ⟨"a"⟩ 0 2 .zero s' cues hopen
  obtain rfl := Option.some.inj (hr.symm.trans hr')
  have hswapped : (r.swapCells 0 2).cells = ["r", "q", "p"] := by
    simp [Row.swapCells, hrcells]
  refine ⟨s', cues, f, hopen, hdraws, hshows.texts.trans hswapped, ?_⟩
  have hlength : (r.swapCells 0 2).cells.length = 3 := by rw [hswapped]; rfl
  have hfirst := hshows.tinted 0 (by omega) [] _ _ rfl (by decide)
  have hmiddle := hshows.plain 1 (by omega) (by decide)
  have hlast := hshows.tinted 2 (by omega) [(0, Color.amber.tint)] _ [] rfl (by decide)
  rw [List.map_cons, List.map_cons, List.map_cons, hfirst, hmiddle, hlast]
  rfl

end Stage

end Storyboard
