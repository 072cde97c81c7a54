import Storyboard.Proofs.Stage.Strand
import Storyboard.Stage.Rounds

/-! # Openings and drafts

    Every command has on a coherent stage the effect that it has on the draft
    of the stage, and is refused for the same reason; the stage is coherent
    again with what its cues owe (`opens`). The cues are tidy, finish no exit
    before they wait, and wait no more often than the command says. -/

namespace Storyboard.Stage

/-- The stage is that of a draft: what is marked is on its way out. -/
structure Matches (s : Stage) (d : Draft) : Prop where
  scene   : s.scene = d.scene
  leaving : ∀ id, s.presenter.isExiting id = true ↔ id ∈ d.leaving

/-- A command was opened in such a way that the stage is now that of a draft. -/
structure Opened (s : Stage) (cues : List (List Cue)) (owed : Set Act) (waits : Nat) (d : Draft) :
    Prop where
  coherent : s.Coherent (Cue.owedBy cues.flatten ∪ owed)
  tidy     : ∀ l ∈ cues, Cue.Tidy l
  lingers  : ∀ l ∈ cues, Cue.Lingers l
  waits    : (cues.map Cue.waitsOf).sum ≤ waits
  matched  : s.Matches d

/-- What a command does to a draft and how it is opened, with at most so many waits. -/
def Opens (owed : Set Act) (waits : Nat) : Except CommandProblem Draft → Opening → Prop
  | .error p, r => r = .error p
  | .ok d, r => ∃ s cues, r = .ok (s, cues) ∧ Opened s cues owed waits d

variable {s s' : Stage} {d : Draft} {owed : Set Act} {now waits : Nat} {pacing : Pacing}
  {tag : CommandTag} {id : EntityId}

/-! ### Stages and drafts -/

theorem Matches.redrawn {F : EntityId → Option Figure} (hd : s.Matches d) (h : Redrawn s s' F)
    (hs : s.presenter.Sound) : s'.Matches d :=
  ⟨h.scene.trans hd.scene, fun id => by rw [h.isExiting hs, hd.leaving]⟩

theorem Matches.rescene (hd : s.Matches d) (f : Scene → Scene) :
    Matches { s with scene := f s.scene } { d with scene := f d.scene } :=
  ⟨congrArg f hd.scene, hd.leaving⟩

/-- The outlook of a stage is what its draft comes to. -/
theorem Matches.outlook (hd : s.Matches d) (k : Kind) (id : EntityId) :
    s.outlook k id = d.settled.get? k id := by
  rw [Stage.outlook, Draft.get?_settled, hd.scene]
  by_cases h : id ∈ d.leaving
  · rw [if_pos ((hd.leaving id).2 h), if_pos h]
  · rw [if_neg fun hx => h ((hd.leaving id).1 hx), if_neg h]

/-! ### Entering and leaving -/

theorem opens_create {e : Entity} {f : Figure} {enter : Transition} {after : List Cue}
    (hs : s.Coherent owed) (hd : s.Matches d) (hf : (s.scene.put e).figureOf? e = some f)
    (hfollow : e.followers ⊆ Cue.owedBy after ∪ owed)
    (hafter : ∀ a ∈ Cue.owedBy after, ¬a.IsExit ∧ a.undo? = none)
    (hwaits : Cue.waitsOf after = 0) :
    Opens owed 1 (d.put tag e) (s.create now pacing tag e f enter after) := by
  unfold Draft.put create
  rw [← hd.scene]
  cases hins : s.scene.insert e with
  | error c => simp [Opens, Stage.enter, hins]
  | ok t =>
    have henter : s.enter now e f (pacing.transition enter) =
        .ok ⟨t, (s.presenter.present now e.kind e.id f (pacing.transition enter)).1⟩ := by
      simp [Stage.enter, hins]
    simp only [henter]
    refine ⟨_, _, rfl, ?_, ?_, ?_, ?_, rfl, ?_⟩
    · -- The figure that enters is the one the scene asks for, and its followers are owed their
      -- redraw.
      have hmore : s.Coherent (Cue.owedBy after ∪ owed) := hs.oweAll fun a ha => (hafter a ha).1
      simpa [Cue.owed] using hmore.enter henter hf hfollow
    · intro l hl
      rw [List.mem_singleton.1 hl]
      exact ⟨by rintro a ⟨⟩, Cue.tidy_of_undo? fun a ha => (hafter a ha).2⟩
    · intro l hl
      rw [List.mem_singleton.1 hl]
      trivial
    · simp [Cue.waits, hwaits]
    · intro id
      obtain ⟨hsound, hsight⟩ := Presenter.sound_present hs.sound now e.kind e.id f
        (pacing.transition enter)
      dsimp only
      rw [hsound.isExiting_iff, hsight, List.mem_filter, bne_iff_ne, ← hd.leaving,
        hs.sound.isExiting_iff]
      by_cases hid : id = e.id <;> simp [hid]

theorem opens_delete (hs : s.Coherent owed) (hd : s.Matches d) (k : Kind) :
    Opens owed 1 (d.mark tag k id) (s.delete now pacing tag k id) := by
  unfold Draft.mark delete
  rw [← hd.scene]
  cases hk : s.scene.has k id with
  | false => simp [Opens]
  | true =>
    obtain ⟨v, hv, rfl⟩ := (hs.listed k id).1 hk
    -- What is in the scene is drawn, so the command is not refused.
    have hshows : s.presenter.shows id = true := hs.sound.shows_iff.2 ⟨v, hv⟩
    simp only [hshows, if_true, Bool.not_true, Bool.false_eq_true, if_false]
    cases hx : v.exiting with
    | true =>
      -- It is on its way out already.
      have hgone : ∀ v', s.presenter.sight? id = some v' → v'.exiting = true := by
        intro v' hv'
        rw [hv] at hv'
        rw [← Option.some.inj hv', hx]
      rw [Presenter.beginExit_of_not_staying hs.sound _ hgone]
      refine ⟨_, _, rfl, ?_, ?_, ?_, ?_, rfl, ?_⟩
      · simpa using hs
      · intro l hl
        cases hl
      · intro l hl
        cases hl
      · exact Nat.zero_le _
      · intro j
        rw [List.mem_cons, ← hd.leaving]
        constructor
        · exact .inr
        · rintro (rfl | h)
          · exact hs.sound.isExiting_iff.2 ⟨v, hv, hx⟩
          · exact h
    | false =>
      obtain ⟨hticket, _, hsound, hsight⟩ := Presenter.beginExit_of_staying hs.sound now
        (pacing.transition (.fadeOut exitSpan)) hv hx
      have hbegin : s.presenter.beginExit now id (pacing.transition (.fadeOut exitSpan)) =
          ((s.presenter.beginExit now id (pacing.transition (.fadeOut exitSpan))).1,
            some ⟨id, v.incarnation⟩) := Prod.ext rfl hticket
      rw [hbegin]
      refine ⟨_, _, rfl, ?_, ?_, ?_, ?_, rfl, ?_⟩
      · simpa [Cue.owed, Set.insert_union] using
          hs.beginExit now (pacing.transition (.fadeOut exitSpan)) hv hx
      · intro l hl
        rw [List.mem_singleton.1 hl]
        exact Cue.tidy_of_undo? (by simp [Cue.owed, Act.undo?])
      · intro l hl
        rw [List.mem_singleton.1 hl]
        trivial
      · simp [Cue.waits]
      · intro j
        dsimp only
        rw [hsound.isExiting_iff, hsight, List.mem_cons, ← hd.leaving, hs.sound.isExiting_iff]
        by_cases hj : j = id <;> simp [hj]

/-! ### What commands require -/

theorem opens_requireNodes {ids : List EntityId} {f : Draft → Except CommandProblem Draft}
    {g : Unit → Opening} (hd : s.Matches d)
    (h : (∀ id ∈ ids, s.scene.has .node id = true) → Opens owed waits (f d) (g ())) :
    Opens owed waits (d.requireNodes tag ids >>= f) (s.requireNodes tag ids >>= g) := by
  unfold Draft.requireNodes requireNodes missingNode?
  rw [← hd.scene]
  cases hfind : ids.find? fun id => !s.scene.has .node id with
  | some id => rfl
  | none => exact h fun id hid => by simpa using List.find?_eq_none.1 hfind id hid

theorem opens_requireCells {indices : List Nat} {f : Draft → Except CommandProblem Draft}
    {g : Row → Opening} (hd : s.Matches d)
    (h : ∀ r, s.scene.rows.find? id = some r → (∀ i ∈ indices, r.hasCell i = true) →
      Opens owed waits (f d) (g r)) :
    Opens owed waits (d.requireCells tag id indices >>= f)
      (s.requireCells tag id indices >>= g) := by
  unfold Draft.requireCells requireCells
  rw [← hd.scene]
  cases hr : s.scene.rows.find? id with
  | none => rfl
  | some r =>
    dsimp only
    cases hfind : indices.find? fun i => !r.hasCell i with
    | some i => rfl
    | none => exact h r hr fun i hi => by simpa using List.find?_eq_none.1 hfind i hi

/-- A command that only shows something leaves the draft as it is. -/
theorem opens_show {cues : List (List Cue)} (hs : s.Coherent owed) (hd : s.Matches d)
    (htidy : ∀ l ∈ cues, Cue.Tidy l) (hexit : ∀ l ∈ cues, ∀ a ∈ Cue.owedBy l, ¬a.IsExit)
    (hwaits : (cues.map Cue.waitsOf).sum ≤ waits) :
    Opens owed waits (.ok d) (.ok (s, cues)) := by
  refine ⟨s, cues, rfl, ?_, htidy, ?_, hwaits, hd⟩
  · refine hs.oweAll ?_
    rintro a ⟨c, hc, ha⟩
    obtain ⟨l, hl, hcl⟩ := List.mem_flatten.1 hc
    exact hexit l hl a ⟨c, hcl, ha⟩
  · exact fun l hl => Cue.lingers_of_not_isExit (hexit l hl)

/-! ### Highlights -/

theorem tidy_flash (h : Highlight) (hold : Span) : Cue.Tidy (flash id h hold) := by
  simp [flash, Cue.Tidy, Cue.owed, Act.undo?]

theorem not_isExit_of_flash {h : Highlight} {hold : Span} {a : Act}
    (ha : a ∈ Cue.owedBy (flash id h hold)) : ¬a.IsExit := by
  simp only [flash, Cue.owedBy_cons, Cue.owedBy_nil, Cue.owed, Set.mem_union] at ha
  rcases ha with rfl | ⟨⟨⟩⟩ | rfl | ⟨⟨⟩⟩ <;> rintro ⟨⟩

/-- Every node of a path is lit up for a while after a wait of its own. -/
theorem exists_flash_of_mem_pathCues {h : Highlight} {i : Nat} {nodes : List EntityId}
    {l : List Cue} (hl : l ∈ pathCues h i nodes) :
    ∃ d id, l = .wait d :: flash id h pathSpan := by
  induction nodes generalizing i with
  | nil => cases hl
  | cons id rest ih =>
    rcases List.mem_cons.1 hl with rfl | hl
    · exact ⟨_, id, rfl⟩
    · exact ih hl

theorem waits_pathCues (h : Highlight) (i : Nat) (nodes : List EntityId) :
    ((pathCues h i nodes).map Cue.waitsOf).sum = 2 * nodes.length := by
  induction nodes generalizing i with
  | nil => rfl
  | cons id rest ih =>
    rw [pathCues, List.map_cons, List.sum_cons, ih]
    simp only [Cue.waitsOf_cons, flash, Cue.waits, Cue.waitsOf_nil, List.length_cons]
    omega

theorem opens_highlightPath (hs : s.Coherent owed) (hd : s.Matches d) (nodes : List EntityId)
    (color : Option String) (span : Span) (sequential : Bool) :
    Opens owed (2 * nodes.length) (d.requireNodes .highlightPath nodes)
      (s.highlightPath nodes color span sequential) := by
  rw [← bind_pure (d.requireNodes .highlightPath nodes)]
  refine opens_requireNodes hd fun _ => ?_
  -- Either way nodes are flashed, and a flash owes no more than its own end. One after the other,
  -- each node waits for its turn as well.
  cases sequential with
  | true =>
    refine opens_show hs hd ?_ ?_ ?_
    · intro l hl
      obtain ⟨d, id, rfl⟩ := exists_flash_of_mem_pathCues hl
      exact ⟨by rintro a ⟨⟩, tidy_flash _ _⟩
    · intro l hl a ha
      obtain ⟨d, id, rfl⟩ := exists_flash_of_mem_pathCues hl
      rw [Cue.owedBy_cons, Cue.owed, Set.empty_union] at ha
      exact not_isExit_of_flash ha
    · exact Nat.le_of_eq (waits_pathCues _ _ _)
  | false =>
    refine opens_show hs hd ?_ ?_ ?_
    · intro l hl
      obtain ⟨id, _, rfl⟩ := List.mem_map.1 hl
      exact tidy_flash _ _
    · intro l hl a ha
      obtain ⟨id, _, rfl⟩ := List.mem_map.1 hl
      exact not_isExit_of_flash ha
    · simp only [Bool.false_eq_true, if_false, List.map_map]
      have hone : ∀ ids : List EntityId, (ids.map (Cue.waitsOf ∘ fun id =>
          flash id ⟨Color.readOr color .cyan, .high⟩ span)).sum = ids.length := by
        intro ids
        induction ids with
        | nil => rfl
        | cons id rest ih =>
          rw [List.map_cons, List.sum_cons, ih, List.length_cons]
          simp [flash, Cue.waits, Nat.add_comm]
      rw [hone]
      omega

theorem opens_highlight (hs : s.Coherent owed) (hd : s.Matches d) (h : Highlight) (hold : Span) :
    Opens owed 1 (d.requireNodes tag [id])
      (do s.requireNodes tag [id]; .ok (s, [flash id h hold])) := by
  rw [← bind_pure (d.requireNodes tag [id])]
  refine opens_requireNodes hd fun _ => opens_show hs hd ?_ ?_ ?_
  · intro l hl
    rw [List.mem_singleton.1 hl]
    exact tidy_flash _ _
  · intro l hl a ha
    rw [List.mem_singleton.1 hl] at ha
    exact not_isExit_of_flash ha
  · simp [flash, Cue.waits]

theorem opens_pulse (hs : s.Coherent owed) (hd : s.Matches d) (count : Nat) (h : Highlight)
    (hold : Span) :
    Opens owed count (d.requireNodes tag [id])
      (do s.requireNodes tag [id]; .ok (s, [[.flashes count id h hold]])) := by
  -- Of all the flashes only the last taking away of the highlight is owed.
  have hone : ∀ a ∈ Cue.owedBy [.flashes count id h hold], a = .highlight id none := by
    cases count <;> simp [Cue.owed]
  rw [← bind_pure (d.requireNodes tag [id])]
  refine opens_requireNodes hd fun _ => opens_show hs hd ?_ ?_ ?_
  · intro l hl
    rw [List.mem_singleton.1 hl]
    refine Cue.tidy_of_undo? fun a ha => ?_
    rw [hone a ha]
    rfl
  · intro l hl a ha
    rw [List.mem_singleton.1 hl] at ha
    rw [hone a ha]
    rintro ⟨⟩
  · simp [Cue.waits]

/-- Several nodes are highlighted at once. -/
theorem mem_owedBy_highlights {elements : List EntityId} {h : Option Highlight} {a : Act} :
    a ∈ Cue.owedBy (elements.map fun id => .act (.highlight id h)) ↔
      ∃ id ∈ elements, a = .highlight id h := by
  simp [Cue.owedBy, Cue.owed]

theorem waits_highlights (elements : List EntityId) (h : Option Highlight) :
    Cue.waitsOf (elements.map fun id => .act (.highlight id h)) = 0 := by
  induction elements with
  | nil => rfl
  | cons id rest ih => simpa [Cue.waits] using ih

theorem opens_compare (hs : s.Coherent owed) (hd : s.Matches d) (elements : List EntityId)
    (result : Bool) :
    Opens owed 3 (d.requireNodes .compare elements) (s.compareNodes elements result) := by
  rw [← bind_pure (d.requireNodes .compare elements)]
  refine opens_requireNodes hd fun _ => opens_show hs hd ?_ ?_ ?_
  · intro l hl
    rw [List.mem_singleton.1 hl]
    -- Every highlight is undone by the last cues.
    have hundo : ∀ {h : Highlight} {rest : List Cue},
        Cue.owedBy (elements.map fun id => .act (.highlight id none)) ⊆ Cue.owedBy rest →
        ∀ a ∈ Cue.owedBy (elements.map fun id => .act (.highlight id (some h))),
          ∀ b, a.undo? = some b → b ∈ Cue.owedBy rest := by
      intro h rest hrest a ha b hb
      obtain ⟨id, hid, rfl⟩ := mem_owedBy_highlights.1 ha
      obtain rfl := Option.some.inj hb
      exact hrest (mem_owedBy_highlights.2 ⟨id, hid, rfl⟩)
    have hnone : Cue.Tidy (elements.map fun id => .act (.highlight id none)) := by
      refine Cue.tidy_of_undo? fun a ha => ?_
      obtain ⟨id, _, rfl⟩ := mem_owedBy_highlights.1 ha
      rfl
    simp only [List.append_assoc, List.cons_append]
    refine Cue.tidy_append (hundo ?_) ⟨by rintro a ⟨⟩, Cue.tidy_append (hundo ?_)
      ⟨by rintro a ⟨⟩, Cue.tidy_append (hundo ?_) ⟨by rintro a ⟨⟩, hnone⟩⟩⟩ <;>
    · intro a ha
      simp [ha]
  · intro l hl a ha
    rw [List.mem_singleton.1 hl] at ha
    simp only [Cue.owedBy_append, Cue.owedBy_cons, Cue.owed, Set.empty_union, Set.mem_union,
      mem_owedBy_highlights] at ha
    rcases ha with ((⟨_, _, rfl⟩ | ⟨_, _, rfl⟩) | ⟨_, _, rfl⟩) | ⟨_, _, rfl⟩ <;> rintro ⟨⟩
  · simp [Cue.waits, waits_highlights]

/-! ### Changes -/

theorem Coherent.changeRow {f : Row → Row} {tints : List (Nat × Color)} (hs : s.Coherent owed)
    (hid : ∀ r, (f r).id = r.id)
    (hplace : ∀ r, ((f r).anchor, (f r).cells.length) = (r.anchor, r.cells.length))
    (hundo : ∀ b, (Act.tint id tints).undo? = some b → b ∈ owed) :
    Coherent (redrawRow { s with scene := s.scene.modifyRow id f } now id tints) owed := by
  have hmore : s.Coherent (insert (.tint id tints) owed) := hs.owe (by rintro ⟨⟩)
  -- The change of the cells is to be drawn by this act, or by the one that undoes it.
  have hrestored : Act.tint id [] ∈ insert (Act.tint id tints) owed := by
    cases tints with
    | nil => exact .inl rfl
    | cons t ts => exact .inr (hundo _ rfl)
  exact (hmore.modifyRow hrestored hid hplace).perform hundo

theorem swapCells_id (i j : Nat) (r : Row) : (r.swapCells i j).id = r.id := by
  unfold Row.swapCells
  split <;> rfl

/-- To exchange two cells neither moves the row nor changes its length. -/
theorem swapCells_place (i j : Nat) (r : Row) :
    ((r.swapCells i j).anchor, (r.swapCells i j).cells.length) = (r.anchor, r.cells.length) := by
  unfold Row.swapCells
  split <;> simp

theorem setCell_place (i : Nat) (text : String) (r : Row) :
    ((r.setCell i text).anchor, (r.setCell i text).cells.length) = (r.anchor, r.cells.length) := by
  simp [Row.setCell]

theorem opens_changeCells {f : Row → Row} {indices : List Nat} {tints : List (Nat × Color)}
    {cues : List (List Cue)} (hs : s.Coherent owed) (hd : s.Matches d)
    (hid : ∀ r, (f r).id = r.id)
    (hplace : ∀ r, ((f r).anchor, (f r).cells.length) = (r.anchor, r.cells.length))
    (hcues : cues = [] ∧ tints = [] ∨ ∃ span, cues = [[.wait span, .act (.tint id [])]]) :
    Opens owed 1 (d.changeCells tag id indices f) (do
      let _ ← s.requireCells tag id indices
      .ok (redrawRow { s with scene := s.scene.modifyRow id f } now id tints, cues)) := by
  refine opens_requireCells hd fun r _ _ => ⟨_, _, rfl, ?_, ?_, ?_, ?_, ?_⟩
  · refine Coherent.changeRow ?_ hid hplace ?_
    · -- The colors are owed only if they are taken back after a wait.
      refine hs.oweAll fun a ha => ?_
      rcases hcues with ⟨rfl, _⟩ | ⟨span, rfl⟩
      · simp at ha
      · simp only [List.flatten_cons, List.flatten_nil, List.append_nil, Cue.owedBy_cons,
          Cue.owedBy_nil, Cue.owed, Set.empty_union, Set.union_empty] at ha
        obtain rfl := ha
        rintro ⟨⟩
    · intro b hb
      rcases hcues with ⟨_, rfl⟩ | ⟨span, rfl⟩
      · cases hb
      · cases tints with
        | nil => cases hb
        | cons t ts =>
          obtain rfl := Option.some.inj hb
          simp [Cue.owed]
  · rintro l hl
    rcases hcues with ⟨rfl, _⟩ | ⟨span, rfl⟩
    · cases hl
    · rw [List.mem_singleton.1 hl]
      exact Cue.tidy_of_undo? (by simp [Cue.owed, Act.undo?])
  · rintro l hl
    rcases hcues with ⟨rfl, _⟩ | ⟨span, rfl⟩
    · cases hl
    · rw [List.mem_singleton.1 hl]
      trivial
  · rcases hcues with ⟨rfl, _⟩ | ⟨span, rfl⟩ <;> simp [Cue.waits]
  · have hchanged := hd.rescene fun s => s.modifyRow id f
    exact hchanged.redrawn
      (redrawn_redrawRow (s := { s with scene := s.scene.modifyRow id f }) hs.sound tints) hs.sound

theorem Coherent.changeNode {f : Node → Node} (hs : s.Coherent owed)
    (hid : ∀ n, (f n).id = n.id) (hposition : ∀ n, (f n).position = n.position) :
    Coherent (redrawNode { s with scene := s.scene.modifyNode id f } now id none) owed := by
  have hmore : s.Coherent (insert (.highlight id none) owed) := hs.owe (by rintro ⟨⟩)
  refine (hmore.modifyNode (.inl rfl) hid hposition).perform ?_
  rintro b ⟨⟩

theorem requireNodes_singleton : d.requireNodes tag [id] =
    if d.scene.has .node id then .ok d else .error (.dangling tag .node id) := by
  cases h : d.scene.has .node id <;> simp [Draft.requireNodes, h]

theorem opens_updateNode (hs : s.Coherent owed) (hd : s.Matches d) (value style : Option String) :
    Opens owed 1 (d.take (.updateNode id value style)) (s.updateNode now id value style) := by
  simp only [Draft.take, Draft.changeNode, requireNodes_singleton, updateNode]
  rw [← hd.scene]
  cases hnode : s.scene.has .node id with
  | false => rfl
  | true =>
    refine ⟨_, _, rfl, ?_, ?_, ?_, ?_, ?_⟩
    · rw [List.flatten_nil, Cue.owedBy_nil, Set.empty_union]
      exact hs.changeNode (fun _ => rfl) fun _ => rfl
    · rintro l ⟨⟩
    · rintro l ⟨⟩
    · exact Nat.zero_le _
    · have hchanged := hd.rescene fun s => s.modifyNode id fun n => { n with
        value := value.getD n.value
        style := (style.filter fun t => !t.isEmpty).orElse fun _ => n.style }
      exact hchanged.redrawn
        (redrawn_redrawNode (s := { s with scene := s.scene.modifyNode id _ }) hs.sound none)
        hs.sound

theorem opens_moveNode (hs : s.Coherent owed) (hd : s.Matches d) (destination : Point)
    (span : Span) (easing : Option String) :
    Opens owed 1 (d.take (.moveNode id destination span easing))
      (s.moveNode now pacing id destination span easing) := by
  simp only [Draft.take, Draft.changeNode, requireNodes_singleton, moveNode]
  rw [← hd.scene]
  cases hfind : s.scene.nodes.find? id with
  | none =>
    have hnode : s.scene.has .node id = false := by
      simp [Scene.has, Scene.get?, hfind]
    rw [hnode]
    rfl
  | some n =>
    have hnode : s.scene.has .node id = true := Scene.has_node_iff.2 ⟨n, hfind⟩
    rw [hnode]
    refine ⟨_, _, rfl, ?_, ?_, ?_, ?_, ?_⟩
    · -- The edges of the node lag behind while it moves, so it is owed that they follow.
      have hmore : s.Coherent (insert (.followNode id) owed) := hs.owe (by rintro ⟨⟩)
      simpa [Cue.owed] using hmore.move (.inl rfl) hnode destination _
    · intro l hl
      rw [List.mem_singleton.1 hl]
      exact Cue.tidy_of_undo? (by simp [Cue.owed, Act.undo?])
    · intro l hl
      rw [List.mem_singleton.1 hl]
      trivial
    · simp [Cue.waits]
    · refine ⟨congrArg (Scene.modifyNode · id _) hd.scene, fun j => ?_⟩
      have hsame := Presenter.status_move hs.sound now id destination
        (pacing.transition (.move n.position destination span
          ((easing.bind Ease.ofName?).getD .usual))) j
      have hsound := (Presenter.sound_move hs.sound now id destination
        (pacing.transition (.move n.position destination span
          ((easing.bind Ease.ofName?).getD .usual)))).1
      rw [← hd.leaving, ← Presenter.isExiting_congr hs.sound hsound hsame]

theorem opens_createEdge (hs : s.Coherent owed) (hd : s.Matches d) (e : Edge) :
    Opens owed 1 (d.requireNodes .createEdge [e.source, e.target] >>= fun d =>
      d.put .createEdge (.edge e)) (s.createEdge now pacing e) := by
  unfold Draft.requireNodes createEdge missingNode?
  rw [← hd.scene]
  cases hfind : [e.source, e.target].find? fun id => !s.scene.has .node id with
  | some id => rfl
  | none =>
    have hends : ∀ id ∈ [e.source, e.target], s.scene.has .node id = true := fun id hid => by
      simpa using List.find?_eq_none.1 hfind id hid
    obtain ⟨a, ha⟩ := Scene.has_node_iff.1 (hends e.source (by simp))
    obtain ⟨b, hb⟩ := Scene.has_node_iff.1 (hends e.target (by simp))
    have hfigure : edgeFigure? s.scene e = some (.ofEdge e a.position b.position) := by
      simp [edgeFigure?, ha, hb]
    rw [hfigure]
    refine opens_create hs hd hfigure (Set.empty_subset _) ?_ rfl
    simp

/-- The edges that wait for a node follow it as soon as it is there. -/
theorem opens_createNode (hs : s.Coherent owed) (hd : s.Matches d) (n : Node) :
    Opens owed 1 (d.put .createNode (.node n)) (s.createNode now pacing n) := by
  have hmore : s.Coherent (insert (.followNode n.id) owed) := hs.owe (by rintro ⟨⟩)
  -- The node is created owing that its edges follow, and the act that follows pays it at once.
  have hcreate : Opens (insert (.followNode n.id) owed) 1 (d.put .createNode (.node n))
      (s.create now pacing .createNode (.node n) (.ofNode n none) (.fadeIn enterSpan) []) := by
    refine opens_create hmore hd rfl ?_ ?_ rfl
    · rintro a rfl
      exact .inr (.inl rfl)
    · simp
  unfold createNode
  cases hput : d.put .createNode (.node n) with
  | error p =>
    rw [hput] at hcreate
    rw [show s.create now pacing .createNode (.node n) (.ofNode n none) (.fadeIn enterSpan) [] =
      .error p from hcreate]
    rfl
  | ok d' =>
    rw [hput] at hcreate
    obtain ⟨s', cues, heq, h⟩ := hcreate
    rw [heq]
    have hc := h.coherent
    rw [Set.union_insert] at hc
    refine ⟨_, _, rfl, ?_, h.tidy, h.lingers, h.waits, ?_⟩
    · exact hc.perform (a := .followNode n.id) (by rintro b ⟨⟩)
    · exact h.matched.redrawn (redrawn_followNode hc.sound hc.keyed) hc.sound

/-! ### All commands -/

/-- Every command does on a coherent stage what it does to the draft of the stage. -/
theorem opens (now : Nat) (pacing : Pacing) (hs : s.Coherent owed) (hd : s.Matches d)
    (c : Command) :
    Opens owed c.waits (d.take c) (s.opening now pacing c) := by
  cases c with
  | createNode n => exact opens_createNode hs hd n
  | updateNode id value style => exact opens_updateNode hs hd value style
  | deleteNode id => exact opens_delete hs hd .node
  | moveNode id destination span easing => exact opens_moveNode hs hd destination span easing
  | highlight id color intensity span => exact opens_highlight hs hd _ span
  | compare elements operator result => exact opens_compare hs hd elements result
  | pulse id count color => exact opens_pulse hs hd count _ _
  | createEdge id source target directed weight style =>
    exact opens_createEdge hs hd ⟨id, source, target, directed, weight, .ofName style⟩
  | deleteEdge id => exact opens_delete hs hd .edge
  | highlightPath nodes color span sequential =>
    exact opens_highlightPath hs hd nodes color span sequential
  -- What remains creates a thing, and no exit is begun by it: nothing is owed afterwards.
  | createArray r =>
    refine opens_create hs hd rfl ?_ ?_ rfl
    · rintro a rfl
      simp [Cue.owed]
    · simp [Cue.owed, Act.IsExit, Act.undo?]
  | swap row indices span =>
    obtain ⟨i, j⟩ := indices
    exact opens_changeCells hs hd (swapCells_id i j) (swapCells_place i j) (.inr ⟨span, rfl⟩)
  | updateCell row i value highlight =>
    cases highlight with
    | true =>
      exact opens_changeCells (f := fun r => r.setCell i value) hs hd (fun _ => rfl)
        (setCell_place i value) (.inr ⟨cellSpan, rfl⟩)
    | false =>
      exact opens_changeCells (f := fun r => r.setCell i value) hs hd (fun _ => rfl)
        (setCell_place i value) (.inl ⟨rfl, rfl⟩)
  | setPointer id row index label color =>
    refine opens_requireCells hd fun r hr hcell => ?_
    refine opens_create hs hd ?_ (Set.empty_subset _) ?_ rfl
    · have hindex : r.hasCell index = true := hcell index (by simp)
      simp [Scene.figureOf?, Scene.put, hr, hindex]
    · simp
  | addLabel id text position style =>
    refine opens_create hs hd rfl (Set.empty_subset _) ?_ rfl
    simp
  | addCallout id form start stop label =>
    simp only [Draft.take, opening, addCallout]
    split
    · refine opens_create hs hd rfl (Set.empty_subset _) ?_ rfl
      simp
    · rfl

end Storyboard.Stage
