import Storyboard.Proofs.Drawing.WellFormed
import Storyboard.Proofs.Stage.Cells
import Storyboard.Proofs.Stage.Segment

/-! # Where the texts on a canvas come from

    All texts on the canvas, ids included, come from commands; only the numbers
    of cells and empty texts are added. So what holds of these and of the texts
    in all commands holds of every text that is drawn, however the commands are
    performed and take turns (`lettered_after`). -/

namespace Storyboard

variable {P : String → Prop}

/-! ### Texts in things, figures and commands -/

/-- The text of a shape satisfies `P`, if it has one. -/
def Shape.Lettered (P : String → Prop) : Shape → Prop
  | .text t => P t.content
  | _ => True

/-- All texts of a figure do. -/
def Figure.Lettered (P : String → Prop) (f : Figure) : Prop := ∀ p ∈ f.parts, p.shape.Lettered P

/-- The id of an item and all its texts do. -/
def Item.Lettered (P : String → Prop) (i : Item) : Prop := P i.id.text ∧ i.figure.Lettered P

/-- The id of a thing and all its texts do. -/
def Entity.Lettered (P : String → Prop) (e : Entity) : Prop :=
  P e.id.text ∧ match e with
    | .node n => P n.value
    | .edge e => ∀ w ∈ e.weight, P w
    | .row r => ∀ t ∈ r.cells, P t
    | .pointer p => P p.label
    | .label l => P l.text
    | .callout a => ∀ t ∈ a.text, P t

/-- All texts that a command puts on the stage do. -/
def Command.Lettered (P : String → Prop) : Command → Prop
  | .createNode n => P n.id.text ∧ P n.value
  | .updateNode _ value _ => ∀ t ∈ value, P t
  | .createEdge id _ _ _ weight _ => P id.text ∧ ∀ t ∈ weight, P t
  | .createArray r => P r.id.text ∧ ∀ t ∈ r.cells, P t
  | .updateCell _ _ value _ => P value
  | .setPointer id _ _ label _ => P id.text ∧ ∀ t ∈ label, P t
  | .addLabel id text _ _ => P id.text ∧ P text
  | .addCallout id _ _ _ label => P id.text ∧ ∀ t ∈ label, P t
  | _ => True

/-- So does what an instruction draws for a thing. -/
def Instruction.Lettered (P : String → Prop) (id : EntityId) : Instruction → Prop
  | .create f _ => P id.text ∧ f.Lettered P
  | .update f _ => P id.text ∧ f.Lettered P
  | _ => True

/-! ### Figures of things -/

namespace Figure

theorem lettered_ofNode {n : Node} (h : P n.value) (hl : Option Highlight) :
    (ofNode n hl).Lettered P := by
  intro p hp
  simp only [ofNode, List.mem_cons, List.not_mem_nil, or_false] at hp
  rcases hp with rfl | rfl
  · trivial
  · exact h

theorem lettered_ofEdge {e : Edge} (h : ∀ w ∈ e.weight, P w) (a b : Point) :
    (ofEdge e a b).Lettered P := by
  intro p hp
  rcases List.mem_cons.1 hp with rfl | hcaption
  · by_cases hdirected : e.directed = true
    · simp [hdirected, Shape.Lettered]
    · simp [hdirected, Shape.Lettered]
  · cases hweight : e.weight with
    | none => simp [hweight] at hcaption
    | some w =>
      simp only [hweight, List.mem_singleton] at hcaption
      subst hcaption
      exact h w hweight

/-- The numbers of the cells are texts of a row as well. -/
theorem lettered_ofRow {r : Row} (hnumber : ∀ n, P (Number.natText n)) (h : ∀ t ∈ r.cells, P t)
    (tints : List (Nat × Color)) : (ofRow r tints).Lettered P := by
  have hcells : ∀ (cells : List String) (i : Nat), (∀ t ∈ cells, P t) →
      ∀ p ∈ cellsFrom tints i cells, p.shape.Lettered P := by
    intro cells
    induction cells with
    | nil => simp [cellsFrom]
    | cons text rest ih =>
      intro i hall p hp
      rw [List.forall_mem_cons] at hall
      rcases List.mem_append.1 hp with hfirst | hrest
      · simp only [cellParts, List.mem_cons, List.not_mem_nil, or_false] at hfirst
        rcases hfirst with rfl | rfl | rfl
        · trivial
        · exact hall.1
        · exact hnumber i
      · exact ih (i + 1) hall.2 p hrest
  exact hcells r.cells 0 h

theorem lettered_ofPointer {p : Pointer} (h : P p.label) (r : Row) :
    (ofPointer p r).Lettered P := by
  intro q hq
  simp only [ofPointer, List.mem_cons, List.not_mem_nil, or_false] at hq
  rcases hq with rfl | rfl
  · trivial
  · exact h

theorem lettered_ofLabel {l : Label} (h : P l.text) : (ofLabel l).Lettered P := by
  intro p hp
  obtain rfl := List.mem_singleton.1 hp
  exact h

theorem lettered_ofCallout {a : Callout} (h : ∀ t ∈ a.text, P t) : (ofCallout a).Lettered P := by
  intro p hp
  rcases List.mem_cons.1 hp with rfl | hcaption
  · trivial
  · cases htext : a.text with
    | none => simp [htext] at hcaption
    | some t =>
      by_cases hempty : t.isEmpty = true
      · simp [htext, hempty] at hcaption
      · simp only [htext, hempty, Bool.false_eq_true, if_false, List.mem_singleton] at hcaption
        subst hcaption
        exact h t htext

end Figure

/-! ### The canvas -/

namespace Canvas

/-- The ids and the texts of all items satisfy `P`. -/
def Lettered (P : String → Prop) (c : Canvas) : Prop :=
  ∀ h i, c.items.find? h = some i → i.Lettered P

variable {c : Canvas}

theorem lettered_empty (last : Nat) : Lettered P ⟨∅, last⟩ := by
  intro h i hi
  rw [Table.find?_empty] at hi
  cases hi

theorem Lettered.add (hc : c.Lettered P) (now : Nat) (kind : Kind) {id : EntityId} {f : Figure}
    (hid : P id.text) (hf : f.Lettered P) (enter : Transition) :
    (c.add now kind id f enter).1.Lettered P := by
  intro h i hi
  have hfind := (Table.find?_insert ..).symm.trans hi
  split at hfind
  · cases hfind
    exact ⟨hid, hf⟩
  · exact hc h i hfind

theorem Lettered.change (hc : c.Lettered P) (handle : Nat) {f : Item → Item}
    (hf : ∀ i, i.Lettered P → (f i).Lettered P) : (c.change handle f).Lettered P := by
  intro h i hi
  have hfind := (Table.find?_modify ..).symm.trans hi
  split at hfind
  · obtain ⟨old, hold, rfl⟩ := Option.map_eq_some_iff.1 hfind
    exact hf old (hc _ old hold)
  · exact hc h i hfind

theorem Lettered.erase (hc : c.Lettered P) (handle : Nat) :
    Lettered P { c with items := c.items.erase handle } := by
  intro h i hi
  have hfind := (Table.find?_erase ..).symm.trans hi
  split at hfind
  · cases hfind
  · exact hc h i hfind

theorem Lettered.perform (hc : c.Lettered P) (now : Nat) (kind : Kind) {id : EntityId}
    (target : Option Nat) {i : Instruction} (hi : i.Lettered P id) :
    (c.perform now kind id target i).1.Lettered P := by
  -- A figure is drawn where none is or in place of one; all else moves, hides or takes off.
  unfold Canvas.perform
  cases i <;> cases target.filter fun h => c.items.contains h
  case create.none | create.some | update.none => exact hc.add now kind hi.1 hi.2 _
  case update.some => exact hc.change _ fun i h => ⟨h.1, hi.2⟩
  case move.some => exact hc.change _ fun i h => h
  case exit.some t h =>
    apply hc.change
    intro i h
    unfold leave
    split
    · exact h
    · exact h
  case discard.some => exact hc.erase _
  case move.none | exit.none | discard.none => exact hc

end Canvas

/-! ### The presenter -/

namespace Presenter

variable {p : Presenter} {id : EntityId} (h : p.canvas.Lettered P)

include h

theorem lettered_discard (now : Nat) (id : EntityId) :
    (p.discard now id).1.canvas.Lettered P := by
  unfold discard
  split
  · exact h.perform now _ _ trivial
  · exact h

theorem lettered_present (now : Nat) (kind : Kind) {f : Figure} (hid : P id.text)
    (hf : f.Lettered P) (enter : Transition) :
    (p.present now kind id f enter).1.canvas.Lettered P := by
  have hdrawn : (Instruction.create f enter).Lettered P id := ⟨hid, hf⟩
  exact (lettered_discard h now id).perform now kind none hdrawn

theorem lettered_apply (now : Nat) {i : Instruction} (hi : i.Lettered P id) :
    (p.apply now id i).1.canvas.Lettered P := by
  unfold apply
  split
  · exact h.perform now _ _ hi
  · exact h

theorem lettered_beginExit (now : Nat) (id : EntityId) (t : Transition) :
    (p.beginExit now id t).1.canvas.Lettered P := by
  unfold beginExit
  split
  · exact h.perform now _ _ trivial
  · exact h

theorem lettered_finishExit (now : Nat) (t : Ticket) :
    (p.finishExit now t).1.canvas.Lettered P := by
  unfold finishExit
  split
  · split
    · exact lettered_discard h now t.id
    · exact h
  · exact h

end Presenter

/-! ### The scene -/

namespace Scene

/-- The ids under which things are kept satisfy `P`, and so do all their texts. -/
def Lettered (P : String → Prop) (s : Scene) : Prop :=
  ∀ k id e, s.get? k id = some e → P id.text ∧ e.Lettered P

variable {s : Scene} {id : EntityId}

theorem lettered_empty : Scene.empty.Lettered P := by
  intro k id e hfind
  simp at hfind

theorem Lettered.put (hs : s.Lettered P) {e : Entity} (he : e.Lettered P) :
    (s.put e).Lettered P := by
  intro k id e' hfind
  rw [get?_put] at hfind
  split at hfind
  · next hkey =>
    obtain rfl := Option.some.inj hfind
    rw [hkey.2]
    exact ⟨he.1, he⟩
  · exact hs k id e' hfind

theorem Lettered.erase (hs : s.Lettered P) (k : Kind) (id : EntityId) :
    (s.erase k id).Lettered P := by
  intro k' id' e hfind
  rw [get?_erase] at hfind
  split at hfind
  · cases hfind
  · exact hs k' id' e hfind

theorem Lettered.modifyNode (hs : s.Lettered P) (id : EntityId) {f : Node → Node}
    (hf : ∀ n, (Entity.node n).Lettered P → (Entity.node (f n)).Lettered P) :
    (s.modifyNode id f).Lettered P := by
  intro k id' e hfind
  rw [get?_modifyNode] at hfind
  split at hfind
  · next hkey =>
    obtain ⟨n, hn, rfl⟩ := Option.map_eq_some_iff.1 hfind
    obtain ⟨hid, hold⟩ := hs .node id (.node n) (get?_node.2 hn)
    rw [hkey.2]
    exact ⟨hid, hf n hold⟩
  · exact hs k id' e hfind

theorem Lettered.modifyRow (hs : s.Lettered P) (id : EntityId) {f : Row → Row}
    (hf : ∀ r, (Entity.row r).Lettered P → (Entity.row (f r)).Lettered P) :
    (s.modifyRow id f).Lettered P := by
  intro k id' e hfind
  rw [get?_modifyRow] at hfind
  split at hfind
  · next hkey =>
    obtain ⟨r, hr, rfl⟩ := Option.map_eq_some_iff.1 hfind
    obtain ⟨hid, hold⟩ := hs .array id (.row r) (get?_row.2 hr)
    rw [hkey.2]
    exact ⟨hid, hf r hold⟩
  · exact hs k id' e hfind

end Scene

/-! ### The stage -/

namespace Stage

/-- All ids and texts in the scene and on the canvas satisfy `P`. -/
structure Lettered (P : String → Prop) (s : Stage) : Prop where
  scene  : s.scene.Lettered P
  canvas : s.presenter.canvas.Lettered P

namespace Lettered

variable {s s' : Stage} {now : Nat} {pacing : Pacing} {id : EntityId}

theorem redraw (h : s.Lettered P) (now : Nat) (hid : P id.text) {f : Figure}
    (hf : f.Lettered P) : (s.redraw now id f).Lettered P :=
  ⟨h.scene, Presenter.lettered_apply h.canvas now ⟨hid, hf⟩⟩

theorem redrawNode (h : s.Lettered P) (now : Nat) (id : EntityId) (hl : Option Highlight) :
    (s.redrawNode now id hl).Lettered P := by
  unfold Stage.redrawNode
  split
  · next n hn =>
    obtain ⟨hid, _, hvalue⟩ := h.scene .node id (.node n) (Scene.get?_node.2 hn)
    exact h.redraw now hid (Figure.lettered_ofNode hvalue hl)
  · exact h

theorem followEdge (h : s.Lettered P) (now : Nat) (id : EntityId) :
    (s.followEdge now id).Lettered P := by
  unfold Stage.followEdge
  split
  · next f hf =>
    obtain ⟨e, he, hfigure⟩ := Option.bind_eq_some_iff.1 hf
    obtain ⟨hid, _, hweight⟩ := h.scene .edge id (.edge e) (Scene.get?_edge.2 he)
    simp only [edgeFigure?, bind, pure, Option.bind_eq_some_iff, Option.some.injEq] at hfigure
    obtain ⟨a, _, b, _, rfl⟩ := hfigure
    exact h.redraw now hid (Figure.lettered_ofEdge hweight _ _)
  · exact h

theorem foldl {α : Type} {f : Stage → α → Stage} {as : List α} (h : s.Lettered P)
    (hf : ∀ a ∈ as, ∀ s : Stage, s.Lettered P → (f s a).Lettered P) :
    (as.foldl f s).Lettered P := by
  induction as generalizing s with
  | nil => exact h
  | cons a as ih =>
    rw [List.forall_mem_cons] at hf
    exact ih (hf.1 s h) hf.2

theorem followNode (h : s.Lettered P) (now : Nat) (id : EntityId) :
    (s.followNode now id).Lettered P :=
  h.foldl fun e _ _ hs => hs.followEdge now e

theorem followRow (h : s.Lettered P) (now : Nat) (id : EntityId) :
    (s.followRow now id).Lettered P := by
  unfold Stage.followRow
  split
  · exact h
  · apply h.foldl
    intro p hp s' hs'
    obtain ⟨key, hkey⟩ := Table.mem_values_iff.1 (List.mem_filter.1 hp).1
    obtain ⟨_, hid, hlabel⟩ := h.scene .pointer key (.pointer p) (Scene.get?_pointer.2 hkey)
    exact hs'.redraw now hid (Figure.lettered_ofPointer hlabel _)

theorem finishExit (h : s.Lettered P) (now : Nat) (ticket : Ticket) (k : Kind) (id : EntityId) :
    (s.finishExit now ticket k id).Lettered P := by
  have hcanvas := Presenter.lettered_finishExit h.canvas now ticket
  unfold Stage.finishExit
  split
  · next heq =>
    rw [heq] at hcanvas
    exact ⟨h.scene.erase k id, hcanvas⟩
  · next heq =>
    rw [heq] at hcanvas
    exact ⟨h.scene, hcanvas⟩

/-! ### Acts -/

section Numbers

variable (hnumber : ∀ n, P (Number.natText n))

include hnumber

theorem redrawRow (h : s.Lettered P) (now : Nat) (id : EntityId) (tints : List (Nat × Color)) :
    (s.redrawRow now id tints).Lettered P := by
  unfold Stage.redrawRow
  split
  · next r hr =>
    obtain ⟨hid, _, hcells⟩ := h.scene .array id (.row r) (Scene.get?_row.2 hr)
    exact h.redraw now hid (Figure.lettered_ofRow hnumber hcells tints)
  · exact h

theorem perform (h : s.Lettered P) (now : Nat) (a : Act) : (s.perform now a).Lettered P := by
  cases a with
  | highlight id hl => exact h.redrawNode now id hl
  | tint id tints => exact h.redrawRow hnumber now id tints
  | followNode id => exact h.followNode now id
  | followRow id => exact h.followRow now id
  | finishExit ticket k id => exact h.finishExit now ticket k id

theorem acted {A : Set Act} (h : s.Lettered P) (hacted : Acted A s s') : s'.Lettered P := by
  induction hacted with
  | refl => exact h
  | act now _ _ ih => exact ih (h.perform hnumber now _)

end Numbers

/-! ### Commands -/

theorem create (h : s.Lettered P) {tag : CommandTag} {e : Entity} {f : Figure}
    {enter : Transition} {after : List Cue} {cues : List (List Cue)}
    (heq : s.create now pacing tag e f enter after = .ok (s', cues)) (he : e.Lettered P)
    (hf : f.Lettered P) : s'.Lettered P := by
  refine ⟨?_, ?_⟩
  · rw [scene_create heq]
    exact h.scene.put he
  · unfold Stage.create Stage.enter at heq
    split at heq
    · cases heq
    · cases heq
      exact Presenter.lettered_present h.canvas now e.kind he.1 hf _

theorem delete (h : s.Lettered P) {tag : CommandTag} {k : Kind} {cues : List (List Cue)}
    (heq : s.delete now pacing tag k id = .ok (s', cues)) : s'.Lettered P := by
  have hcanvas :=
    Presenter.lettered_beginExit h.canvas now id (pacing.transition (.fadeOut exitSpan))
  unfold Stage.delete at heq
  dsimp only at heq
  split at heq
  · cases heq
  · split at heq
    · cases heq
      exact ⟨h.scene.erase k id, h.canvas⟩
    · split at heq
      · next hexit =>
        rw [hexit] at hcanvas
        cases heq
        exact ⟨h.scene, hcanvas⟩
      · next hexit =>
        rw [hexit] at hcanvas
        cases heq
        exact ⟨h.scene, hcanvas⟩

/-- A command whose texts satisfy `P` puts no others on the stage. -/
theorem opening (hempty : P "") (hnumber : ∀ n, P (Number.natText n)) (h : s.Lettered P)
    {c : Command} {cues : List (List Cue)} (hc : c.Lettered P)
    (heq : s.opening now pacing c = .ok (s', cues)) : s'.Lettered P := by
  cases effect_of_opening heq with
  | @createNode n _ _ hcreate =>
    exact (h.create hcreate hc (Figure.lettered_ofNode hc.2 none)).followNode now n.id
  | @updateNode id value =>
    apply redrawNode
    refine ⟨h.scene.modifyNode id fun n hn => ⟨hn.1, ?_⟩, h.canvas⟩
    cases value with
    | none => exact hn.2
    | some t => exact hc t rfl
  | @moveNode id =>
    exact ⟨h.scene.modifyNode id fun n hn => hn, Presenter.lettered_apply h.canvas now trivial⟩
  | deleteNode hdelete | deleteEdge hdelete => exact h.delete hdelete
  | highlight | compare | pulse | highlightPath => exact h
  | createEdge hfigure hcreate =>
    simp only [edgeFigure?, bind, pure, Option.bind_eq_some_iff, Option.some.injEq] at hfigure
    obtain ⟨a, _, b, _, rfl⟩ := hfigure
    exact h.create hcreate hc (Figure.lettered_ofEdge hc.2 _ _)
  | createArray hcreate => exact h.create hcreate hc (Figure.lettered_ofRow hnumber hc.2 [])
  | @swap row i j =>
    apply redrawRow hnumber
    refine ⟨h.scene.modifyRow row fun r hr => ⟨?_, ?_⟩, h.canvas⟩
    · show P (r.swapCells i j).id.text
      rw [(Row.swapCells_frame r i j).1]
      exact hr.1
    · -- The cells change places, and their texts stay the same.
      intro t ht
      exact hr.2 t ((Row.perm_swapCells r i j).mem_iff.1 ht)
  | @updateCell row i value =>
    apply redrawRow hnumber
    refine ⟨h.scene.modifyRow row fun r hr => ⟨hr.1, ?_⟩, h.canvas⟩
    intro t ht
    rcases List.mem_or_eq_of_mem_set ht with hold | rfl
    · exact hr.2 t hold
    · exact hc
  | @setPointer _ _ _ label _ r _ _ _ hcreate =>
    -- A pointer without a label has an empty one.
    have hlabel : P (label.getD "") := by
      cases label with
      | none => exact hempty
      | some t => exact hc.2 t rfl
    exact h.create hcreate ⟨hc.1, hlabel⟩ (Figure.lettered_ofPointer hlabel r)
  | addLabel hcreate => exact h.create hcreate hc (Figure.lettered_ofLabel hc.2)
  | addCallout _ hcreate => exact h.create hcreate hc (Figure.lettered_ofCallout hc.2)

/-- So does one that begins, whether it is refused or not. -/
theorem start (hempty : P "") (hnumber : ∀ n, P (Number.natText n)) (h : s.Lettered P)
    (now : Nat) (pacing : Pacing) {command : Json}
    (hcommand : ∀ c, Command.ofJson command = .ok c → c.Lettered P) :
    (Course.start now pacing s command).1.Lettered P := by
  unfold Course.start
  split
  · exact h
  · next c hc =>
    split
    · exact h
    · next s' cues hopen =>
      have hopened := h.opening hempty hnumber (hcommand c hc) hopen
      have hall : ∀ l ∈ cues, Cue.actsOf l ⊆ Set.univ := fun l _ => Set.subset_univ _
      exact hopened.acted hnumber (Strand.followAll_acted now pacing hall).1

end Lettered

/-! ### Whatever comes of commands -/

/-- All texts in the commands that begin among some segments satisfy `P`. -/
def Segment.Lettered (P : String → Prop) : Segment → Prop
  | .start _ _ command => ∀ c, Command.ofJson command = .ok c → c.Lettered P
  | _ => True

namespace Interleaving

theorem lettered_step (hempty : P "") (hnumber : ∀ n, P (Number.natText n)) {i : Interleaving}
    (h : i.stage.Lettered P) {segment : Segment} (hsegment : segment.Lettered P) :
    (i.step segment).stage.Lettered P := by
  cases segment with
  | start now pacing command => exact h.start hempty hnumber now pacing hsegment
  | resume now place =>
    cases hplace : i.strands[place]? with
    | none => simpa [step, hplace] using h
    | some strand =>
      have hacted := (Strand.resume_acted (s := i.stage) now strand.1
        (Set.subset_univ (Cue.actsOf strand.2.cues))).1
      simpa [step, hplace] using h.acted hnumber hacted
  | reset now => exact ⟨Scene.lettered_empty, Canvas.lettered_empty _⟩
  | readJournal => exact ⟨h.scene, h.canvas⟩

/-- What holds of the texts in the commands holds of all texts that are drawn. -/
theorem lettered_after (hempty : P "") (hnumber : ∀ n, P (Number.natText n))
    {segments : List Segment} (h : ∀ segment ∈ segments, segment.Lettered P) :
    (after segments).stage.Lettered P := by
  refine List.foldlRecOn segments step (motive := fun i => i.stage.Lettered P) ?_ ?_
  · exact ⟨Scene.lettered_empty, Canvas.lettered_empty 0⟩
  · exact fun _ hi segment hmem => lettered_step hempty hnumber hi (h segment hmem)

end Interleaving

/-! ### The document -/

/-- A text holds only characters that a document may hold. -/
def IsWritable (t : String) : Prop := t.toList.all Xml.isChar = true

theorem isWritable_natText (n : Nat) : IsWritable (Number.natText n) := by
  have htame := Number.tame_natDigits n
  rw [List.all_eq_true] at htame
  rw [IsWritable, Number.natText, String.toList_ofList, List.all_eq_true]
  intro c hc
  exact Markup.isChar_of_isTame (htame c hc)

theorem isWritable_of_lettered {i : Item} (h : i.Lettered IsWritable) : i.isWritable = true := by
  have hparts : ∀ p ∈ i.figure.parts, p.shape.content.all Xml.isChar = true := by
    intro p hp
    have hshape := h.2 p hp
    cases hs : p.shape with
    | text t =>
      rw [hs] at hshape
      exact hshape
    | _ => rfl
  exact Bool.and_eq_true_iff.2 ⟨h.1, List.all_eq_true.2 hparts⟩

/-- Whatever comes of commands, the document is one element with balanced tags and quoted values.
    It is well-formed exactly if no id and no text of an item holds a character that XML does not
    allow, and so it is if the texts in the commands hold none. -/
theorem drawing_wellFormed (segments : List Segment) (now : Nat) :
    let c := (Interleaving.after segments).stage.presenter.canvas
    Xml.IsElement (c.drawing now).toList ∧
      (Xml.IsWellFormed (c.drawing now).toList ↔ ∀ i ∈ c.items.values, i.isWritable = true) ∧
      ((∀ segment ∈ segments, segment.Lettered IsWritable) →
        Xml.IsWellFormed (c.drawing now).toList) := by
  intro c
  refine ⟨c.isElement_drawing now, c.isWellFormed_drawing_iff now, ?_⟩
  intro hsegments
  have hempty : IsWritable "" := rfl
  have hlettered := (Interleaving.lettered_after hempty isWritable_natText hsegments).canvas
  rw [c.isWellFormed_drawing_iff]
  intro i hi
  obtain ⟨handle, hfind⟩ := Table.mem_values_iff.1 hi
  exact isWritable_of_lettered (hlettered handle i hfind)

/-- A label with a tab, an ampersand and a quote in it is drawn as it ought to be. -/
theorem drawing_wellFormed_label :
    let label : Json := .obj [("command", .str "ADD_LABEL"), ("id", .str "l"),
      ("position", .obj [("x", .int 0), ("y", .int 0)]), ("text", .str "a\t& \"b\"")]
    let c := (Interleaving.after [.start 0 .instant label]).stage.presenter.canvas
    Segment.Lettered IsWritable (.start 0 .instant label) ∧
      Xml.IsWellFormed (c.drawing 0).toList := by
  intro label c
  have hlabel : Segment.Lettered IsWritable (.start 0 .instant label) := by
    intro command hcommand
    have hread : Command.ofJson label = .ok (.addLabel ⟨"l"⟩ "a\t& \"b\"" ⟨0, 0⟩ none) :=
      Command.ofJson_of_toOption (by decide +kernel)
    rw [hread] at hcommand
    rw [← Except.ok.inj hcommand]
    exact ⟨rfl, rfl⟩
  refine ⟨hlabel, (drawing_wellFormed [.start 0 .instant label] 0).2.2 ?_⟩
  intro segment hsegment
  rw [List.mem_singleton.1 hsegment]
  exact hlabel

/-- A control character in a label is written as it is, and XML does not allow it. -/
theorem label_not_wellFormed :
    let label : Json := .obj [("command", .str "ADD_LABEL"), ("id", .str "l"),
      ("position", .obj [("x", .int 0), ("y", .int 0)]), ("text", .str "\x01")]
    let c := (Interleaving.after [.start 0 .instant label]).stage.presenter.canvas
    c.items.values.map (fun i => i.figure.parts.map (·.shape.content)) = [[['\x01']]] ∧
      Xml.isChar '\x01' = false ∧ ¬Xml.IsWellFormed (c.drawing 0).toList := by
  intro label c
  refine ⟨by decide +kernel, by decide, ?_⟩
  have hitems : c.items.values.all Item.isWritable = false := by decide +kernel
  rw [c.isWellFormed_drawing_iff, ← List.all_eq_true, hitems]
  decide

end Stage

end Storyboard
