import Storyboard.Proofs.Shift.Drawing
import Storyboard.Stage.Performance

/-! # Shifted stages

    Whatever is performed on a stage is performed in the same way on a shifted
    one: every command opens alike, leaves the same cues with later tickets,
    and every strand goes on alike at the later time. -/

namespace Storyboard

variable {σ : Shift} {now : Nat} {pacing : Pacing}

/-! ### Acts -/

namespace Stage

/-- A stage that was used before. -/
def shift (σ : Shift) (s : Stage) : Stage := ⟨s.scene, s.presenter.shift σ⟩

variable (s : Stage) (id : EntityId)

@[simp] theorem scene_shift : (s.shift σ).scene = s.scene := rfl

@[simp] theorem presenter_shift : (s.shift σ).presenter = s.presenter.shift σ := rfl

@[simp] theorem redraw_shift (f : Figure) :
    (s.shift σ).redraw (now + σ.time) id f = (s.redraw now id f).shift σ := by
  simp only [redraw, Presenter.refresh, presenter_shift, Presenter.apply_shift]
  rfl

@[simp] theorem redrawNode_shift (h : Option Highlight) :
    (s.shift σ).redrawNode (now + σ.time) id h = (s.redrawNode now id h).shift σ := by
  unfold redrawNode
  rw [scene_shift]
  split
  · exact redraw_shift s id _
  · rfl

@[simp] theorem redrawRow_shift (tints : List (Nat × Color)) :
    (s.shift σ).redrawRow (now + σ.time) id tints = (s.redrawRow now id tints).shift σ := by
  unfold redrawRow
  rw [scene_shift]
  split
  · exact redraw_shift s id _
  · rfl

/-- To do the same on a shifted stage for several things. -/
theorem foldl_shift {α : Type} {f g : Stage → α → Stage}
    (h : ∀ s x, f (s.shift σ) x = (g s x).shift σ) (l : List α) :
    l.foldl f (s.shift σ) = (l.foldl g s).shift σ := by
  induction l generalizing s with
  | nil => rfl
  | cons x l ih => rw [List.foldl_cons, List.foldl_cons, h, ih]

@[simp] theorem followNode_shift :
    (s.shift σ).followNode (now + σ.time) id = (s.followNode now id).shift σ := by
  refine foldl_shift s (fun s e => ?_) _
  unfold followEdge
  rw [scene_shift]
  split
  · exact redraw_shift s e _
  · rfl

@[simp] theorem followRow_shift :
    (s.shift σ).followRow (now + σ.time) id = (s.followRow now id).shift σ := by
  unfold followRow
  rw [scene_shift]
  split
  · rfl
  · exact foldl_shift s (fun s p => redraw_shift s p.id _) _

@[simp] theorem finishExit_shift (t : Ticket) (k : Kind) :
    (s.shift σ).finishExit (now + σ.time) (t.shift σ) k id =
      (s.finishExit now t k id).shift σ := by
  unfold finishExit
  rw [presenter_shift, Presenter.finishExit_shift]
  rcases s.presenter.finishExit now t with ⟨p, done⟩
  cases done <;> rfl

theorem enter_shift (e : Entity) (f : Figure) (t : Transition) :
    (s.shift σ).enter (now + σ.time) e f t = (s.enter now e f t).map (shift σ) := by
  unfold enter
  rw [scene_shift, presenter_shift, Presenter.present_shift]
  cases s.scene.insert e <;> rfl

end Stage

/-- The same act with a later ticket. -/
def Act.shift (σ : Shift) : Act → Act
  | .finishExit t k id => .finishExit (t.shift σ) k id
  | a => a

@[simp] theorem Stage.perform_shift (s : Stage) (a : Act) :
    (s.shift σ).perform (now + σ.time) (a.shift σ) = (s.perform now a).shift σ := by
  cases a with
  | highlight id h => exact redrawNode_shift s id h
  | tint id tints => exact redrawRow_shift s id tints
  | followNode id => exact followNode_shift s id
  | followRow id => exact followRow_shift s id
  | finishExit t k id => exact finishExit_shift s id t k

/-! ### Strands -/

/-- The same cue with a later ticket. -/
def Cue.shift (σ : Shift) : Cue → Cue
  | .act a => .act (a.shift σ)
  | c => c

namespace Strand

/-- A strand that waits for a later time. -/
def shift (σ : Shift) : Strand → Strand
  | .resting wait rest => .resting (wait.shift σ) (rest.map (Cue.shift σ))
  | .over => .over

variable (s : Stage)

theorem follow_shift (cues : List Cue) :
    follow (now + σ.time) pacing (s.shift σ) (cues.map (Cue.shift σ)) =
      ((follow now pacing s cues).1.shift σ, (follow now pacing s cues).2.shift σ) := by
  induction cues generalizing s with
  | nil => rfl
  | cons c rest ih =>
    cases c with
    | act a => simp only [List.map_cons, Cue.shift, follow, Stage.perform_shift, ih]
    | wait d => simp only [List.map_cons, Cue.shift, follow, Pacing.wait_shift, shift]
    | flashes n id h hold =>
      cases n with
      | zero => simp only [List.map_cons, Cue.shift, follow, ih]
      | succ n =>
        simp only [List.map_cons, Cue.shift, follow, Stage.redrawNode_shift, Pacing.wait_shift,
          shift, Act.shift]

theorem resume_shift (t : Strand) :
    resume (now + σ.time) pacing (s.shift σ) (t.shift σ) =
      ((resume now pacing s t).1.shift σ, (resume now pacing s t).2.shift σ) := by
  cases t with
  | resting wait rest =>
    simp only [shift, resume, Wait.isOver_shift]
    split
    · exact follow_shift s rest
    · rfl
  | «over» => rfl

@[simp] theorem isOver_shift (t : Strand) : (t.shift σ).isOver = t.isOver := by
  cases t <;> rfl

@[simp] theorem isReady_shift (t : Strand) : (t.shift σ).isReady (now + σ.time) = t.isReady now := by
  cases t with
  | resting wait rest => exact Wait.isOver_shift wait
  | «over» => rfl

@[simp] theorem due?_shift (t : Strand) : (t.shift σ).due? = t.due?.map (· + σ.time) := by
  cases t with
  | resting wait rest => exact Wait.time?_shift wait
  | «over» => rfl

theorem followAll_shift (cues : List (List Cue)) :
    followAll (now + σ.time) pacing (s.shift σ) (cues.map (List.map (Cue.shift σ))) =
      ((followAll now pacing s cues).1.shift σ,
        (followAll now pacing s cues).2.map (shift σ)) := by
  induction cues generalizing s with
  | nil => rfl
  | cons l rest ih => simp only [List.map_cons, followAll, follow_shift, ih]

theorem resumeAll_shift (ts : List Strand) :
    resumeAll (now + σ.time) pacing (s.shift σ) (ts.map (shift σ)) =
      ((resumeAll now pacing s ts).1.shift σ, (resumeAll now pacing s ts).2.map (shift σ)) := by
  induction ts generalizing s with
  | nil => rfl
  | cons t rest ih => simp only [List.map_cons, resumeAll, resume_shift, ih]

end Strand

/-! ### Openings -/

namespace Stage

/-- The same opening on a shifted stage. -/
def Opening.shift (σ : Shift) (o : Opening) : Opening :=
  o.map fun x => (x.1.shift σ, x.2.map (List.map (Cue.shift σ)))

variable (s : Stage) (tag : CommandTag) (id : EntityId)

/-- What a command requires does not depend on the past. -/
theorem requireNodes_shift_bind {ids : List EntityId} {f g : Unit → Opening}
    (h : g () = Opening.shift σ (f ())) :
    ((s.shift σ).requireNodes tag ids >>= g) = Opening.shift σ (s.requireNodes tag ids >>= f) := by
  unfold requireNodes
  rw [scene_shift]
  cases missingNode? s.scene ids with
  | some id => rfl
  | none => exact h

theorem requireCells_shift_bind {indices : List Nat} {f g : Row → Opening}
    (h : ∀ r, g r = Opening.shift σ (f r)) :
    ((s.shift σ).requireCells tag id indices >>= g) =
      Opening.shift σ (s.requireCells tag id indices >>= f) := by
  unfold requireCells
  rw [scene_shift]
  cases s.scene.rows.find? id with
  | none => rfl
  | some r =>
    dsimp only
    cases indices.find? fun i => !r.hasCell i with
    | some i => rfl
    | none => exact h r

theorem create_shift (e : Entity) (f : Figure) (enter : Transition) {after : List Cue}
    (hafter : after.map (Cue.shift σ) = after) :
    (s.shift σ).create (now + σ.time) pacing tag e f enter after =
      Opening.shift σ (s.create now pacing tag e f enter after) := by
  unfold create
  simp only [enter_shift]
  cases s.enter now e f (pacing.transition enter) with
  | error c => rfl
  | ok s' =>
    change _ = Except.ok (s'.shift σ, [.wait _ :: after.map (Cue.shift σ)])
    rw [hafter]
    rfl

theorem delete_shift (k : Kind) :
    (s.shift σ).delete (now + σ.time) pacing tag k id =
      Opening.shift σ (s.delete now pacing tag k id) := by
  unfold delete
  simp only [scene_shift, presenter_shift, Presenter.shows_shift, Presenter.beginExit_shift]
  cases s.scene.has k id with
  | false => rfl
  | true =>
    cases s.presenter.shows id with
    | false => rfl
    | true =>
      rcases s.presenter.beginExit now id (pacing.transition (.fadeOut exitSpan)) with ⟨p, t⟩
      cases t <;> rfl

theorem createNode_shift (n : Node) :
    (s.shift σ).createNode (now + σ.time) pacing n =
      Opening.shift σ (s.createNode now pacing n) := by
  unfold createNode
  rw [create_shift s _ _ _ _ rfl]
  cases s.create now pacing .createNode (.node n) (.ofNode n none) (.fadeIn enterSpan) [] with
  | error p => rfl
  | ok x => exact congrArg (fun s' => Except.ok (s', _)) (followNode_shift x.1 n.id)

theorem updateNode_shift (value style : Option String) :
    (s.shift σ).updateNode (now + σ.time) id value style =
      Opening.shift σ (s.updateNode now id value style) := by
  unfold updateNode
  rw [scene_shift]
  split
  · rfl
  · exact congrArg (fun s' => Except.ok (s', _))
      (redrawNode_shift { s with scene := s.scene.modifyNode id _ } id none)

theorem moveNode_shift (destination : Point) (span : Span) (easing : Option String) :
    (s.shift σ).moveNode (now + σ.time) pacing id destination span easing =
      Opening.shift σ (s.moveNode now pacing id destination span easing) := by
  unfold moveNode
  simp only [scene_shift, presenter_shift, Presenter.move, Presenter.apply_shift]
  split <;> rfl

theorem createEdge_shift (e : Edge) :
    (s.shift σ).createEdge (now + σ.time) pacing e =
      Opening.shift σ (s.createEdge now pacing e) := by
  unfold createEdge
  rw [scene_shift]
  split
  · rfl
  · rfl
  · exact create_shift s _ _ _ _ rfl

/-- No cue of a path has a ticket. -/
theorem pathCues_shift (h : Highlight) (i : Nat) (nodes : List EntityId) :
    (pathCues h i nodes).map (List.map (Cue.shift σ)) = pathCues h i nodes := by
  induction nodes generalizing i with
  | nil => rfl
  | cons id rest ih => rw [pathCues, List.map_cons, ih]; rfl

theorem highlights_shift (elements : List EntityId) (h : Option Highlight) :
    (elements.map fun id => Cue.act (.highlight id h)).map (Cue.shift σ) =
      elements.map fun id => .act (.highlight id h) := by
  rw [List.map_map]
  rfl

/-- Every command opens alike. -/
theorem opening_shift (c : Command) :
    (s.shift σ).opening (now + σ.time) pacing c = Opening.shift σ (s.opening now pacing c) := by
  -- What a command does depends on the time, the handles and the incarnations in no other way than
  -- by the new ones it takes: each opening is shifted by shifting what it draws.
  cases c with
  | createNode n => exact createNode_shift s n
  | updateNode id value style => exact updateNode_shift s id value style
  | deleteNode id => exact delete_shift s _ id .node
  | moveNode id destination span easing => exact moveNode_shift s id destination span easing
  | highlight id color intensity span => exact requireNodes_shift_bind s _ rfl
  | compare elements operator result =>
    refine requireNodes_shift_bind s _ ?_
    simp only [Opening.shift, Except.map, List.map_cons, List.map_append, List.map_nil,
      highlights_shift, Cue.shift]
  | pulse id count color => exact requireNodes_shift_bind s _ rfl
  | createEdge id source target directed weight style => exact createEdge_shift s _
  | deleteEdge id => exact delete_shift s _ id .edge
  | highlightPath nodes color span sequential =>
    refine requireNodes_shift_bind s _ ?_
    cases sequential with
    | true => simp only [Opening.shift, Except.map, if_true, pathCues_shift]
    | false =>
      simp only [Opening.shift, Except.map, Bool.false_eq_true, if_false, List.map_map]
      rfl
  | createArray r => exact create_shift s _ _ _ _ rfl
  | swap row indices span =>
    obtain ⟨i, j⟩ := indices
    refine requireCells_shift_bind s _ row fun r => ?_
    exact congrArg (fun s' => Except.ok (s', _))
      (redrawRow_shift { s with scene := s.scene.modifyRow row fun r => r.swapCells i j } row _)
  | updateCell row i value highlight =>
    refine requireCells_shift_bind s _ row fun r => ?_
    cases highlight with
    | true =>
      exact congrArg (fun s' => Except.ok (s', _))
        (redrawRow_shift { s with scene := s.scene.modifyRow row fun r => r.setCell i value } row _)
    | false =>
      exact congrArg (fun s' => Except.ok (s', _))
        (redrawRow_shift { s with scene := s.scene.modifyRow row fun r => r.setCell i value } row _)
  | setPointer id row index label color =>
    exact requireCells_shift_bind s _ row fun r => create_shift s _ _ _ _ rfl
  | addLabel id text position style => exact create_shift s _ _ _ _ rfl
  | addCallout id form start stop label =>
    simp only [opening, addCallout]
    split
    · exact create_shift s _ _ _ _ rfl
    · rfl

end Stage

/-! ### Courses -/

namespace Course

/-- A course whose strands wait for later times. -/
def shift (σ : Shift) : Course → Course
  | .refused p => .refused p
  | .taken strands => .taken (strands.map (Strand.shift σ))

variable (s : Stage)

theorem start_shift (command : Json) :
    start (now + σ.time) pacing (s.shift σ) command =
      ((start now pacing s command).1.shift σ, (start now pacing s command).2.shift σ) := by
  unfold start
  cases Command.ofJson command with
  | error p => rfl
  | ok c =>
    dsimp only
    rw [Stage.opening_shift]
    cases s.opening now pacing c with
    | error p => rfl
    | ok x =>
      change (let y := Strand.followAll _ _ (x.1.shift σ) (x.2.map _); (y.1, Course.taken y.2)) = _
      rw [Strand.followAll_shift]
      rfl

theorem startAll_shift (commands : List Json) :
    startAll (now + σ.time) pacing (s.shift σ) commands =
      ((startAll now pacing s commands).1.shift σ,
        (startAll now pacing s commands).2.map (shift σ)) := by
  induction commands generalizing s with
  | nil => rfl
  | cons command rest ih => simp only [startAll, start_shift, ih, List.map_cons]

theorem reportFrom_shift (i : Nat) (courses : List Course) :
    reportFrom i (courses.map (shift σ)) = reportFrom i courses := by
  induction courses generalizing i with
  | nil => rfl
  | cons c rest ih => cases c <;> exact congrArg (Report.merge _) (ih _)

end Course

/-! ### Lines -/

namespace Member

/-- A member whose strand waits for a later time. -/
def shift (σ : Shift) (m : Member) : Member := { m with strand := m.strand.shift σ }

@[simp] theorem isReady_shift (m : Member) : (m.shift σ).isReady (now + σ.time) = m.isReady now :=
  Strand.isReady_shift m.strand

@[simp] theorem due?_shift (m : Member) :
    (m.shift σ).strand.due? = m.strand.due?.map (· + σ.time) :=
  Strand.due?_shift m.strand

/-- The same ones are chosen at a later time. -/
theorem filter_shift {p q : Member → Bool} (h : ∀ m : Member, p (m.shift σ) = q m)
    (members : List Member) :
    (members.map (shift σ)).filter p = (members.filter q).map (shift σ) := by
  rw [List.filter_map]
  exact congrArg (List.map _) (List.filter_congr fun m _ => h m)

/-- Who may precede whom is the same at a later time, so the line is. -/
theorem inLine_shift {precedes : Member → Member → Bool}
    (h : ∀ m n : Member, precedes (m.shift σ) (n.shift σ) = precedes m n) (members : List Member) :
    inLine precedes (members.map (shift σ)) = (inLine precedes members).map (shift σ) := by
  have hjoin : ∀ (m : Member) (l : List Member),
      join precedes (m.shift σ) (l.map (shift σ)) = (join precedes m l).map (shift σ) := by
    intro m l
    induction l with
    | nil => rfl
    | cons n rest ih =>
      simp only [List.map_cons, join, h, ih]
      split <;> rfl
  induction members with
  | nil => rfl
  | cons m rest ih =>
    rw [List.map_cons, inLine, List.foldr_cons, ← inLine, ih, hjoin]
    rfl

theorem isDueBefore_shift (m n : Member) :
    isDueBefore (m.shift σ) (n.shift σ) = isDueBefore m n := by
  simp only [isDueBefore, due?_shift]
  cases m.strand.due? <;> cases n.strand.due? <;> simp

theorem woken_shift (members : List Member) :
    woken (now + σ.time) (members.map (shift σ)) = (woken now members).map (shift σ) := by
  have hready : ∀ l : List Member, (l.map (shift σ)).filter (·.isReady (now + σ.time)) =
      (l.filter (·.isReady now)).map (shift σ) := filter_shift isReady_shift
  have htimes : ∀ l : List Member, (l.map (shift σ)).filter (·.strand.due?.isSome) =
      (l.filter (·.strand.due?.isSome)).map (shift σ) := filter_shift fun m => by simp
  have hturns : ∀ l : List Member, (l.map (shift σ)).filter (·.strand.due?.isNone) =
      (l.filter (·.strand.due?.isNone)).map (shift σ) := filter_shift fun m => by simp
  simp only [woken, hready, htimes, hturns, inLine_shift isDueBefore_shift, List.map_append,
    List.map_reverse]

theorem lineUp_shift (crowded : Bool) (members : List Member) :
    lineUp crowded (now + σ.time) (members.map (shift σ)) =
      (lineUp crowded now members).map (shift σ) := by
  have hrank : wakeRank ((woken now members).map (shift σ)) = wakeRank (woken now members) := by
    funext course
    rw [wakeRank, List.findIdx_map]
    rfl
  rw [lineUp, woken_shift, hrank]
  exact inLine_shift (fun _ _ => rfl) _

theorem ofStrands_shift (course : Nat) (strands : List Strand) :
    ofStrands course (strands.map (Strand.shift σ)) = (ofStrands course strands).map (shift σ) := by
  simp only [ofStrands, List.zipIdx_map, List.map_map, List.length_map]
  rfl

theorem map_goOn_shift (line : List Member) (strands : List Strand) :
    List.zipWith goOn (line.map (shift σ)) (strands.map (Strand.shift σ)) =
      (List.zipWith goOn line strands).map (shift σ) := by
  rw [List.zipWith_map, List.map_zipWith]
  rfl

theorem map_strand_shift (members : List Member) :
    (members.map (shift σ)).map (·.strand) = (members.map (·.strand)).map (Strand.shift σ) := by
  rw [List.map_map, List.map_map]
  rfl

end Member

theorem Course.membersFrom_shift (i : Nat) (courses : List Course) :
    membersFrom i (courses.map (shift σ)) = (membersFrom i courses).map (Member.shift σ) := by
  induction courses generalizing i with
  | nil => rfl
  | cons c rest ih =>
    cases c with
    | refused p => exact ih i
    | taken strands =>
      simp only [List.map_cons, shift, membersFrom, List.map_append, ih, Member.ofStrands_shift]

/-! ### Performances -/

namespace Performance

/-- A performance whose strands wait for later times. -/
def shift (σ : Shift) (p : Performance) : Performance :=
  { p with members := p.members.map (Member.shift σ) }

variable (s : Stage) (p : Performance)

theorem start_shift (commands : List Json) :
    start (now + σ.time) pacing (s.shift σ) commands =
      ((start now pacing s commands).1.shift σ, (start now pacing s commands).2.shift σ) := by
  simp only [start, Course.startAll_shift, Course.reportFrom_shift, Course.membersFrom_shift,
    List.length_map]
  rfl

theorem resume_shift :
    (p.shift σ).resume (now + σ.time) (s.shift σ) =
      ((p.resume now s).1.shift σ, (p.resume now s).2.shift σ) := by
  have hwaiting : (p.members.map (Member.shift σ)).filter (!·.isReady (now + σ.time)) =
      (p.members.filter (!·.isReady now)).map (Member.shift σ) :=
    Member.filter_shift (fun m => congrArg (!·) (Member.isReady_shift m)) p.members
  simp only [resume, shift, Member.lineUp_shift, Member.map_strand_shift, Strand.resumeAll_shift,
    hwaiting, Member.map_goOn_shift, List.map_append]

theorem strands_shift : (p.shift σ).strands = p.strands.map (Strand.shift σ) :=
  Member.map_strand_shift p.members

@[simp] theorem isOver_shift : (p.shift σ).isOver = p.isOver := by
  simp [isOver, strands_shift, Function.comp_def]

@[simp] theorem isReady_shift : (p.shift σ).isReady (now + σ.time) = p.isReady now := by
  simp [isReady, strands_shift, Function.comp_def]

/-- The earliest of later times. -/
theorem min?_map_add (l : List Nat) (n : Nat) : (l.map (· + n)).min? = l.min?.map (· + n) := by
  cases l with
  | nil => rfl
  | cons a l =>
    rw [List.map_cons, List.min?_cons', List.min?_cons', Option.map_some]
    congr 1
    induction l generalizing a with
    | nil => rfl
    | cons b l ih => rw [List.map_cons, List.foldl_cons, List.foldl_cons, ← ih, Nat.add_min_add_right]

@[simp] theorem due?_shift : (p.shift σ).due? = p.due?.map (· + σ.time) := by
  have hdue : (p.strands.map (Strand.shift σ)).filterMap (·.due?) =
      (p.strands.filterMap (·.due?)).map (· + σ.time) := by
    rw [List.filterMap_map, List.map_filterMap]
    exact congrArg (List.filterMap · _) (funext Strand.due?_shift)
  rw [due?, strands_shift, hdue, min?_map_add]
  rfl

@[simp] theorem report_shift : (p.shift σ).report = p.report := rfl

end Performance

end Storyboard
