import Mathlib.Data.List.Basic
import Storyboard.Proofs.Drawing.Record
import Storyboard.Proofs.Stage.Effect
import Storyboard.Proofs.Stage.Rest

/-! # The stage between segments

    The finest way in which performances can take turns: one command opens, or
    one strand goes on up to its next wait. Whoever performs commands, every
    strand may be resumed whenever one likes, and the stage may be reset and
    its journal be read at any time (`Interleaving`). What comes of an ensemble
    comes of such segments (`exists_segments_after`).

    Between any two segments the scene, the presenter and the canvas list the
    same things, and the record of the canvas is well kept (`agrees_after`). -/

namespace Storyboard

/-! ### What every operation of a presenter keeps -/

namespace Presenter

/-- A property of presenters that every operation keeps. -/
structure Kept (I : Presenter → Prop) : Prop where
  present    : ∀ {p}, I p → ∀ now kind id f enter, I (p.present now kind id f enter).1
  apply      : ∀ {p}, I p → ∀ now id i, i.Alters → I (p.apply now id i).1
  beginExit  : ∀ {p}, I p → ∀ now id t, I (p.beginExit now id t).1
  finishExit : ∀ {p}, I p → ∀ now t, I (p.finishExit now t).1

/-- To be sound is such a property. -/
theorem kept_sound : Kept Sound where
  present h now kind id f enter := (sound_present h now kind id f enter).1
  apply h now id i hi := by
    cases i with
    | update f t => exact (sound_refresh h now id f t).1
    | move destination t => exact (sound_move h now id destination t).1
    | _ => exact hi.elim
  beginExit h now id t := (sound_beginExit h now id t).1
  finishExit {p} h now t := by
    by_cases hmatch : ∃ v, p.sight? t.id = some v ∧ v.incarnation = t.incarnation
    · obtain ⟨v, hv, heq⟩ := hmatch
      rw [finishExit_of_match hv heq]
      exact (sound_discard h now t.id).1
    · rw [finishExit_of_stale h fun v hv heq => hmatch ⟨v, hv, heq⟩]
      exact h

/-- To be sound and to have a record that is well kept is another. -/
theorem kept_recorded (past : List JournalEntry) : Kept fun p => p.Sound ∧ p.Recorded past where
  present h now kind id f enter :=
    ⟨kept_sound.present h.1 now kind id f enter, h.2.present h.1 now kind id f enter⟩
  apply h now id i hi := ⟨kept_sound.apply h.1 now id i hi, h.2.apply h.1 now id hi⟩
  beginExit h now id t := ⟨kept_sound.beginExit h.1 now id t, h.2.beginExit h.1 now id t⟩
  finishExit h now t := ⟨kept_sound.finishExit h.1 now t, h.2.finishExit h.1 now t⟩

end Presenter

namespace Presenter.Kept

open Stage

variable {I : Presenter → Prop} {s s' : Stage} {now : Nat} {pacing : Pacing}

/-! ### Figures that are drawn -/

theorem redraw (hI : Kept I) (h : I s.presenter) (now : Nat) (id : EntityId) (f : Figure) :
    I (s.redraw now id f).presenter :=
  hI.apply h now id _ trivial

theorem redrawNode (hI : Kept I) (h : I s.presenter) (now : Nat) (id : EntityId)
    (hl : Option Highlight) : I (s.redrawNode now id hl).presenter := by
  unfold Stage.redrawNode
  split
  · exact hI.redraw h now id _
  · exact h

theorem redrawRow (hI : Kept I) (h : I s.presenter) (now : Nat) (id : EntityId)
    (tints : List (Nat × Color)) : I (s.redrawRow now id tints).presenter := by
  unfold Stage.redrawRow
  split
  · exact hI.redraw h now id _
  · exact h

theorem foldl {α : Type} {f : Stage → α → Stage}
    (hf : ∀ s a, I s.presenter → I (f s a).presenter) (as : List α) (h : I s.presenter) :
    I (as.foldl f s).presenter := by
  induction as generalizing s with
  | nil => exact h
  | cons a as ih => exact ih (hf s a h)

theorem followNode (hI : Kept I) (h : I s.presenter) (now : Nat) (id : EntityId) :
    I (s.followNode now id).presenter := by
  refine foldl (fun s edge hs => ?_) _ h
  unfold Stage.followEdge
  split
  · exact hI.redraw hs now edge _
  · exact hs

theorem followRow (hI : Kept I) (h : I s.presenter) (now : Nat) (id : EntityId) :
    I (s.followRow now id).presenter := by
  unfold Stage.followRow
  split
  · exact h
  · exact foldl (fun s p hs => hI.redraw hs now p.id _) _ h

/-! ### Cues that are followed -/

theorem finishing (hI : Kept I) (h : I s.presenter) (now : Nat) (ticket : Ticket) (k : Kind)
    (id : EntityId) : I (s.finishExit now ticket k id).presenter := by
  have hp := hI.finishExit h now ticket
  unfold Stage.finishExit
  rcases heq : s.presenter.finishExit now ticket with ⟨p, gone⟩
  rw [heq] at hp
  cases gone <;> exact hp

theorem perform (hI : Kept I) (h : I s.presenter) (now : Nat) (a : Act) :
    I (s.perform now a).presenter := by
  cases a with
  | highlight id hl => exact hI.redrawNode h now id hl
  | tint id tints => exact hI.redrawRow h now id tints
  | followNode id => exact hI.followNode h now id
  | followRow id => exact hI.followRow h now id
  | finishExit ticket k id => exact hI.finishing h now ticket k id

theorem follow (hI : Kept I) (h : I s.presenter) (now : Nat) (pacing : Pacing)
    (cues : List Cue) : I (Strand.follow now pacing s cues).1.presenter := by
  induction cues generalizing s with
  | nil => exact h
  | cons c rest ih =>
    cases c with
    | act a => exact ih (hI.perform h now a)
    | wait d => exact h
    | flashes n id hl hold =>
      cases n with
      | zero => exact ih h
      | succ n => exact hI.redrawNode h now id _

theorem followAll (hI : Kept I) (h : I s.presenter) (now : Nat) (pacing : Pacing)
    (cues : List (List Cue)) : I (Strand.followAll now pacing s cues).1.presenter := by
  induction cues generalizing s with
  | nil => exact h
  | cons c rest ih => exact ih (hI.follow h now pacing c)

theorem resume (hI : Kept I) (h : I s.presenter) (now : Nat) (pacing : Pacing) (t : Strand) :
    I (t.resume now pacing s).1.presenter := by
  cases t with
  | «over» => exact h
  | resting wait rest =>
    by_cases hover : wait.isOver now = true
    · have heq : Strand.resume now pacing s (.resting wait rest) =
          Strand.follow now pacing s rest := if_pos hover
      rw [heq]
      exact hI.follow h now pacing rest
    · have heq : Strand.resume now pacing s (.resting wait rest) = (s, .resting wait rest) :=
        if_neg hover
      rw [heq]
      exact h

/-! ### Commands that open -/

theorem create (hI : Kept I) (h : I s.presenter) {tag : CommandTag} {e : Entity} {f : Figure}
    {enter : Transition} {after : List Cue} {cues : List (List Cue)}
    (heq : s.create now pacing tag e f enter after = .ok (s', cues)) : I s'.presenter := by
  unfold Stage.create Stage.enter at heq
  split at heq
  · cases heq
  · cases heq
    exact hI.present h now _ _ _ _

theorem delete (hI : Kept I) (h : I s.presenter) {tag : CommandTag} {k : Kind} {id : EntityId}
    {cues : List (List Cue)} (heq : s.delete now pacing tag k id = .ok (s', cues)) :
    I s'.presenter := by
  have hexit := hI.beginExit h now id (pacing.transition (.fadeOut exitSpan))
  unfold Stage.delete at heq
  dsimp only at heq
  split at heq
  · cases heq
  · split at heq
    · cases heq
      exact h
    · split at heq
      · next hp =>
        rw [hp] at hexit
        cases heq
        exact hexit
      · next hp =>
        rw [hp] at hexit
        cases heq
        exact hexit

theorem opening (hI : Kept I) (h : I s.presenter) {c : Command} {cues : List (List Cue)}
    (heq : s.opening now pacing c = .ok (s', cues)) : I s'.presenter := by
  cases effect_of_opening heq with
  | @createNode n _ _ hcreate => exact hI.followNode (hI.create h hcreate) now n.id
  | createEdge _ hcreate | createArray hcreate | setPointer _ hcreate | addLabel hcreate
  | addCallout _ hcreate => exact hI.create h hcreate
  | deleteNode hdelete | deleteEdge hdelete => exact hI.delete h hdelete
  | @moveNode id => exact hI.apply h now id _ trivial
  | highlight | compare | pulse | highlightPath => exact h
  | updateNode =>
    apply hI.redrawNode
    exact h
  | swap | updateCell =>
    apply hI.redrawRow
    exact h

/-- A command that begins, whether it is refused or not. -/
theorem start (hI : Kept I) (h : I s.presenter) (now : Nat) (pacing : Pacing) (command : Json) :
    I (Course.start now pacing s command).1.presenter := by
  unfold Course.start
  split
  · exact h
  · next c _ =>
    split
    · exact h
    · next heq => exact hI.followAll (hI.opening h heq) now pacing _

end Presenter.Kept

namespace Stage

/-! ### Segments -/

/-- What can happen without interruption. -/
inductive Segment where
  /-- A command opens. -/
  | start (now : Nat) (pacing : Pacing) (command : Json)
  /-- The strand at a place goes on, if its wait is over. -/
  | resume (now place : Nat)
  | reset (now : Nat)
  | readJournal

/-- A stage, the strands that were begun on it, and what was read off its journal, the latest
    first. -/
structure Interleaving where
  stage   : Stage
  strands : List (Pacing × Strand)
  past    : List JournalEntry

namespace Interleaving

/-- Nothing happened yet. -/
def begun : Interleaving := ⟨empty, [], []⟩

/-- What comes of a segment. -/
def step (i : Interleaving) : Segment → Interleaving
  | .start now pacing command =>
    let (s, course) := Course.start now pacing i.stage command
    { i with stage := s, strands := i.strands ++ course.strands.map fun t => (pacing, t) }
  | .resume now place =>
    match i.strands[place]? with
    | none => i
    | some (pacing, t) =>
      let (s, t) := t.resume now pacing i.stage
      { i with stage := s, strands := i.strands.set place (pacing, t) }
  | .reset now => { i with stage := i.stage.reset now }
  | .readJournal =>
    { i with stage := i.stage.clearJournal, past := i.stage.presenter.journal ++ i.past }

/-- What comes of some segments. -/
def after (segments : List Segment) : Interleaving := segments.foldl step begun

/-- Everything that the canvas was told, the latest first. -/
def record (i : Interleaving) : List JournalEntry := i.stage.presenter.journal ++ i.past

/-- The acts that the strands owe. -/
def owed (i : Interleaving) : Set Act := Strand.owedBy (i.strands.map (·.2))

variable {i : Interleaving}

theorem after_append (as bs : List Segment) : after (as ++ bs) = bs.foldl step (after as) :=
  List.foldl_append

/-- What holds between any two segments. -/
structure Whole (i : Interleaving) : Prop where
  coherent : i.stage.Coherent i.owed
  tidy     : ∀ t ∈ i.strands, Cue.Tidy t.2.cues
  recorded : i.stage.presenter.Recorded i.past

theorem whole_begun : begun.Whole where
  coherent := by
    have howed : begun.owed = ∅ := Strand.owedBy_nil
    rw [howed]
    exact coherent_empty
  tidy t ht := absurd ht List.not_mem_nil
  recorded := Presenter.recorded_fresh

theorem Whole.start (h : i.Whole) (now : Nat) (pacing : Pacing) (command : Json) :
    (i.step (.start now pacing command)).Whole := by
  have hrecorded := ((Presenter.kept_recorded i.past).start ⟨h.coherent.sound, h.recorded⟩ now
    pacing command).2
  obtain ⟨d, hd⟩ := exists_matches i.stage
  have hstart := Course.start_spec now pacing h.coherent hd command
  -- A command that is refused changes nothing. Else its strands join those under way, with what
  -- they owe.
  cases htake : d.takeJson command with
  | error p =>
    rw [htake] at hstart
    have heq : Course.start now pacing i.stage command = (i.stage, .refused p) := hstart
    have hsame : i.step (.start now pacing command) = i := by
      simp [step, heq, Course.strands]
    rw [hsame]
    exact h
  | ok d' =>
    rw [htake] at hstart
    obtain ⟨s, strands, heq, hcoherent, htidy, _, _⟩ := hstart
    rw [heq] at hrecorded
    have hstep : i.step (.start now pacing command) =
        { i with stage := s, strands := i.strands ++ strands.map fun t => (pacing, t) } := by
      simp [step, heq, Course.strands]
    have howed : Interleaving.owed
        { i with stage := s, strands := i.strands ++ strands.map fun t => (pacing, t) } =
        Strand.owedBy strands ∪ i.owed := by
      simp [owed, Function.comp_def, Set.union_comm]
    rw [hstep]
    refine ⟨?_, ?_, hrecorded⟩
    · rw [howed]
      exact hcoherent
    · intro t ht
      rcases List.mem_append.1 ht with ht | ht
      · exact h.tidy t ht
      · obtain ⟨u, hu, rfl⟩ := List.mem_map.1 ht
        exact htidy u hu

/-- What a strand owes and what the others do. -/
theorem owed_split {before behind : List (Pacing × Strand)} {s : Stage} {past : List JournalEntry}
    {pacing : Pacing} {t : Strand} :
    owed ⟨s, before ++ (pacing, t) :: behind, past⟩ =
      Cue.owedBy t.cues ∪ Strand.owedBy ((before ++ behind).map (·.2)) := by
  simp [owed, Set.union_left_comm]

/-- A strand that goes on leaves the others where they are. -/
theorem step_resume {before behind : List (Pacing × Strand)} {s : Stage}
    {past : List JournalEntry} {pacing : Pacing} {t : Strand} (now : Nat) :
    step ⟨s, before ++ (pacing, t) :: behind, past⟩ (.resume now before.length) =
      ⟨(t.resume now pacing s).1, before ++ (pacing, (t.resume now pacing s).2) :: behind,
        past⟩ := by
  simp [step]

theorem Whole.resume (h : i.Whole) (now place : Nat) : (i.step (.resume now place)).Whole := by
  by_cases hlt : place < i.strands.length
  · obtain ⟨s, strands, past⟩ := i
    -- The strands before and behind the one that goes on owe what they did.
    obtain ⟨before, pacing, t, behind, rfl, rfl⟩ : ∃ before pacing t behind,
        strands = before ++ (pacing, t) :: behind ∧ place = before.length := by
      refine ⟨strands.take place, strands[place].1, strands[place].2, strands.drop (place + 1),
        ?_, ?_⟩
      · exact ((congrArg _ (List.drop_eq_getElem_cons hlt)).symm.trans
          (List.take_append_drop place strands)).symm
      · exact (List.length_take_of_le (Nat.le_of_lt hlt)).symm
    have hcoherent := h.coherent
    rw [owed_split] at hcoherent
    have ht : Cue.Tidy t.cues := h.tidy (pacing, t) (by simp)
    obtain ⟨hpays, htidy, _⟩ := Strand.resume_pays (s := s) now pacing ht
      (Strand.owedBy ((before ++ behind).map (·.2)))
    rw [step_resume]
    refine ⟨?_, ?_, ?_⟩
    · rw [owed_split]
      exact (hpays hcoherent).1
    · intro u hu
      rcases List.mem_append.1 hu with hu | hu
      · exact h.tidy u (List.mem_append_left _ hu)
      · rcases List.mem_cons.1 hu with rfl | hu
        · exact htidy
        · exact h.tidy u (List.mem_append_right _ (List.mem_cons_of_mem _ hu))
    · exact ((Presenter.kept_recorded past).resume ⟨hcoherent.sound, h.recorded⟩ now pacing t).2
  · have hsame : i.step (.resume now place) = i := by
      simp [step, hlt]
    rw [hsame]
    exact h

/-- Every segment keeps what holds between segments. -/
theorem Whole.step (h : i.Whole) (segment : Segment) : (i.step segment).Whole := by
  cases segment with
  | start now pacing command => exact h.start now pacing command
  | resume now place => exact h.resume now place
  | reset now => exact ⟨h.coherent.reset, h.tidy, h.recorded.reset now⟩
  | readJournal => exact ⟨h.coherent.clearJournal, h.tidy, h.recorded.readJournal⟩

theorem whole_after (segments : List Segment) : (after segments).Whole :=
  List.foldlRecOn segments Interleaving.step whole_begun fun _ h segment _ => h.step segment

/-! ### Ensembles take segments -/

/-- Commands that open one after another. -/
theorem exists_segments_startAll (now : Nat) (pacing : Pacing) (commands : List Json)
    (i : Interleaving) :
    ∃ segments : List Segment,
      (segments.foldl step i).stage = (Course.startAll now pacing i.stage commands).1 ∧
      (segments.foldl step i).strands = i.strands ++
        (Course.strandsOf (Course.startAll now pacing i.stage commands).2).map
          fun t => (pacing, t) := by
  induction commands generalizing i with
  | nil => exact ⟨[], rfl, (List.append_nil _).symm⟩
  | cons command rest ih =>
    obtain ⟨segments, hstage, hstrands⟩ := ih (i.step (.start now pacing command))
    refine ⟨.start now pacing command :: segments, hstage, ?_⟩
    rw [List.foldl_cons, hstrands]
    simp [step, Course.startAll, Course.strandsOf]

/-- Strands that go on one after another, wherever they stand. -/
theorem exists_segments_resumeAll (now : Nat) (pacing : Pacing) (ts : List Strand)
    (i : Interleaving) {others : List (Pacing × Strand)}
    (hperm : i.strands.Perm (ts.map (fun t => (pacing, t)) ++ others)) :
    ∃ segments : List Segment,
      (segments.foldl step i).stage = (Strand.resumeAll now pacing i.stage ts).1 ∧
      (segments.foldl step i).strands.Perm
        ((Strand.resumeAll now pacing i.stage ts).2.map (fun t => (pacing, t)) ++ others) := by
  induction ts generalizing i others with
  | nil => exact ⟨[], rfl, hperm⟩
  | cons t ts ih =>
    obtain ⟨s, strands, past⟩ := i
    have hmem : (pacing, t) ∈ strands := hperm.mem_iff.2 (List.mem_append_left _ List.mem_cons_self)
    obtain ⟨before, behind, rfl⟩ := List.append_of_mem hmem
    have hrest : (before ++ behind).Perm (ts.map (fun t => (pacing, t)) ++ others) :=
      List.Perm.cons_inv (List.perm_middle.symm.trans hperm)
    -- The strand that went on counts among the others from now on.
    have hmoved : (before ++ (pacing, (t.resume now pacing s).2) :: behind).Perm
        (ts.map (fun t => (pacing, t)) ++ (pacing, (t.resume now pacing s).2) :: others) :=
      List.perm_middle.trans ((hrest.cons _).trans List.perm_middle.symm)
    obtain ⟨segments, hstage, hstrands⟩ :=
      ih ⟨(t.resume now pacing s).1, _, past⟩ hmoved
    refine ⟨.resume now before.length :: segments, ?_, ?_⟩
    · rw [List.foldl_cons, step_resume]
      exact hstage
    · rw [List.foldl_cons, step_resume]
      exact hstrands.trans List.perm_middle

end Interleaving

/-- The strands of a task, each with its pacing. -/
def Task.scattered : Task → List (Pacing × Strand)
  | .performing p => p.strands.map fun t => (p.pacing, t)
  | _ => []

/-- The strands of these tasks are among those that were begun. -/
def Interleaving.Holds (i : Interleaving) (tasks : List Task) : Prop :=
  ∃ rest, i.strands.Perm (tasks.flatMap Task.scattered ++ rest)

namespace Interleaving

variable {i : Interleaving} {t : Task} {ts : List Task}

/-- A task that is done leaves its strands to nobody. -/
theorem holds_joined (rest : List (Pacing × Strand))
    (h : i.strands.Perm (t.scattered ++ (ts.flatMap Task.scattered ++ rest))) :
    i.Holds (Ensemble.joined machine t ts) := by
  unfold Ensemble.joined
  cases machine.isDone t with
  | true =>
    refine ⟨t.scattered ++ rest, h.trans ?_⟩
    rw [← List.append_assoc, ← List.append_assoc]
    exact List.perm_append_comm.append_right rest
  | false =>
    refine ⟨rest, h.trans ?_⟩
    simp

theorem Holds.join (h : i.Holds ts) (ht : t.scattered = []) :
    i.Holds (Ensemble.joined machine t ts) := by
  obtain ⟨rest, hrest⟩ := h
  refine holds_joined rest ?_
  rw [ht]
  exact hrest

theorem Holds.tail (h : i.Holds (t :: ts)) : i.Holds ts := by
  obtain ⟨rest, hrest⟩ := h
  refine ⟨t.scattered ++ rest, hrest.trans ?_⟩
  rw [List.flatMap_cons, ← List.append_assoc]
  exact List.perm_append_comm.append_right rest

end Interleaving

theorem Task.scattered_waitUntil (now time : Nat) : (waitUntil now time).scattered = [] := by
  unfold waitUntil
  split <;> rfl

open Interleaving in
/-- Whatever comes of an ensemble on a stage comes of segments. -/
theorem exists_segments_after (now : Nat) (events : List (Ensemble.Event Action)) :
    ∃ segments, (Interleaving.after segments).stage =
      ((Ensemble.alone now empty).after machine events).world := by
  suffices h : ∃ segments, (Interleaving.after segments).stage =
      ((Ensemble.alone now empty).after machine events).world ∧
      (Interleaving.after segments).Holds
        ((Ensemble.alone now empty).after machine events).inFlight by
    obtain ⟨segments, hstage, _⟩ := h
    exact ⟨segments, hstage⟩
  apply Ensemble.inFlight_induction (I := fun s tasks => ∃ segments,
    (Interleaving.after segments).stage = s ∧ (Interleaving.after segments).Holds tasks)
  · exact ⟨[], rfl, [], List.Perm.refl _⟩
  · intro s ts us hperm h
    obtain ⟨segments, hstage, rest, hstrands⟩ := h
    exact ⟨segments, hstage, rest, hstrands.trans ((hperm.flatMap_right _).append_right rest)⟩
  · intro now s ts action h
    obtain ⟨segments, rfl, hholds⟩ := h
    cases action with
    | perform commands pacing =>
      obtain ⟨more, hstage, hstrands⟩ :=
        exists_segments_startAll now pacing commands (Interleaving.after segments)
      obtain ⟨rest, hrest⟩ := hholds
      rw [← after_append] at hstage hstrands
      refine ⟨segments ++ more, hstage, holds_joined rest ?_⟩
      have hscattered : (machine.start now (Interleaving.after segments).stage
          (.perform commands pacing)).2.scattered = (Course.strandsOf (Course.startAll now pacing
            (Interleaving.after segments).stage commands).2).map fun t => (pacing, t) :=
        congrArg (List.map _) (Performance.strands_start now pacing _ commands)
      rw [hstrands, hscattered]
      exact List.perm_append_comm.trans (hrest.append_left _)
    | reset => exact ⟨segments ++ [.reset now], by rw [after_append]; rfl,
        by rw [after_append]; exact hholds.join rfl⟩
    | readJournal => exact ⟨segments ++ [.readJournal], by rw [after_append]; rfl,
        by rw [after_append]; exact hholds.join rfl⟩
    | wait d => exact ⟨segments, rfl, hholds.join (Task.scattered_waitUntil _ _)⟩
    | look => exact ⟨segments, rfl, hholds.join rfl⟩
  · intro now s t ts h
    obtain ⟨segments, rfl, hholds⟩ := h
    cases t with
    | performing p =>
      obtain ⟨rest, hrest⟩ := hholds
      rw [List.flatMap_cons, List.append_assoc] at hrest
      -- The strands go on one after another, each by a segment of its own.
      obtain ⟨order, horder, hworld, hleft⟩ :=
        Performance.resume_eq now (Interleaving.after segments).stage p
      have hbegun : (Interleaving.after segments).strands.Perm
          (order.map (fun t => (p.pacing, t)) ++ (ts.flatMap Task.scattered ++ rest)) :=
        hrest.trans ((horder.symm.map _).append_right _)
      obtain ⟨more, hstage, hstrands⟩ :=
        exists_segments_resumeAll now p.pacing order (Interleaving.after segments) hbegun
      rw [← after_append] at hstage hstrands
      refine ⟨segments ++ more, hstage.trans hworld.symm, holds_joined rest ?_⟩
      exact hstrands.trans ((hleft.symm.map _).append_right _)
    | waiting time => exact ⟨segments, rfl, hholds.tail.join (Task.scattered_waitUntil _ _)⟩
    | «over» entries => exact ⟨segments, rfl, hholds.tail.join rfl⟩

end Stage

/-! ### The three indexes -/

/-- A thing of this kind is drawn under a handle. -/
def Presenter.Lists (p : Presenter) (k : Kind) (id : EntityId) (h : Nat) : Prop :=
  ∃ l, p.live.find? id = some l ∧ l.kind = k ∧ l.handle = h

/-- The item with a handle is that of a thing of this kind, and the only one of it. -/
def Canvas.Lists (c : Canvas) (k : Kind) (id : EntityId) (h : Nat) : Prop :=
  ∃ i, c.items.find? h = some i ∧ i.kind = k ∧ i.id = id ∧
    ∀ h' i', c.items.find? h' = some i' → i'.id = id → h' = h

theorem Presenter.Sound.lists_iff {p : Presenter} (hp : p.Sound) (k : Kind) (id : EntityId)
    (h : Nat) : p.Lists k id h ↔ p.canvas.Lists k id h := by
  constructor
  · rintro ⟨l, hl, rfl, rfl⟩
    obtain ⟨i, hi, hid, hkind⟩ := hp.drawn id l hl
    refine ⟨i, hi, hkind, hid, fun h' i' hi' hid' => ?_⟩
    obtain ⟨l', hl', hh⟩ := hp.owned h' i' hi'
    rw [hid', hl] at hl'
    rw [← hh, Option.some.inj hl']
  · rintro ⟨i, hi, rfl, rfl, _⟩
    obtain ⟨l, hl, rfl⟩ := hp.owned h i hi
    obtain ⟨i', hi', _, hkind⟩ := hp.drawn i.id l hl
    rw [hi] at hi'
    obtain rfl := Option.some.inj hi'
    exact ⟨l, hl, hkind.symm, rfl⟩

namespace Stage

/-- The scene, the presenter and the canvas agree, and every item lives as items do. -/
structure Interleaving.Agrees (i : Interleaving) : Prop where
  /-- What is in the scene is drawn under some handle, and nothing else is. -/
  scene   : ∀ k id, i.stage.scene.has k id = true ↔ ∃ h, i.stage.presenter.Lists k id h
  /-- What is drawn under a handle has that item on the canvas and no other. -/
  canvas  : ∀ k id h, i.stage.presenter.Lists k id h ↔ i.stage.presenter.canvas.Lists k id h
  /-- A thing that is in the scene and not drawn is never met. -/
  shown   : ∀ k id, i.stage.scene.has k id = true → i.stage.presenter.shows id = true
  /-- The canvas is what it was told to be. -/
  told    : i.stage.presenter.canvas = Canvas.ofRecord i.record
  /-- It was never told about an item that was not there, and no handle was given twice. -/
  kept    : Canvas.WellKept i.record
  /-- Every item was created, then altered, then let go at most once and taken away at most once. -/
  orderly : ∀ h, Instruction.Orderly (Canvas.life i.record h)

theorem Interleaving.Whole.agrees {i : Interleaving} (h : i.Whole) : i.Agrees := by
  have hscene : ∀ k id, i.stage.scene.has k id = true ↔
      ∃ handle, i.stage.presenter.Lists k id handle := by
    intro k id
    rw [h.coherent.listed]
    constructor
    · rintro ⟨v, hv, hkind⟩
      obtain ⟨l, _, hl, _, rfl⟩ := Presenter.sight?_eq_some hv
      exact ⟨l.handle, l, hl, hkind, rfl⟩
    · rintro ⟨handle, l, hl, hkind, rfl⟩
      obtain ⟨item, hitem, _, _⟩ := h.coherent.sound.drawn id l hl
      exact ⟨_, Presenter.sight?_of_live hl hitem, hkind⟩
  refine ⟨hscene, h.coherent.sound.lists_iff, ?_, h.recorded.canvas, h.recorded.kept,
    h.recorded.orderly⟩
  intro k id hhas
  obtain ⟨_, l, hl, _, _⟩ := (hscene k id).1 hhas
  exact Table.contains_iff.2 ⟨l, hl⟩

/-- However segments follow one another, the three indexes agree between any two of them, and every
    item lives as items do. Whatever comes of callers who take turns comes of segments. -/
theorem agrees_after :
    (∀ segments, (Interleaving.after segments).Agrees) ∧
    ∀ now events, ∃ segments, (Interleaving.after segments).stage =
      ((Ensemble.alone now empty).after machine events).world :=
  ⟨fun segments => (Interleaving.whole_after segments).agrees, exists_segments_after⟩

end Stage

end Storyboard
