import Storyboard.Proofs.Ensemble.Event
import Storyboard.Proofs.Scene.Exchange
import Storyboard.Proofs.Stage.Acts
import Storyboard.Stage.Script

/-! # What becomes of a row

    A trail tells what happens on a stage in the order in which it happens:
    which commands open, whether they take effect, and when everything is
    cleared. What commands do later changes no row, so the row under an
    identifier is at every moment what the trail up to then makes of it
    (`leads_trail`). Once a row was created and as long as its cells are
    only exchanged, they are those it was created with, carried along the
    exchanges whose cells are there (`cells_after`). -/

namespace Storyboard

open Ensemble

/-! ### What a command does to a row -/

/-- The row under an identifier after a command that took effect. -/
def Command.rowAfter (id : EntityId) (row : Option Row) : Command → Option Row
  | .createArray r => if id = r.id then some r else row
  | .swap target (i, j) _ => if id = target then row.map (·.swapCells i j) else row
  | .updateCell target i value _ => if id = target then row.map (·.setCell i value) else row
  | _ => row

namespace Stage

variable {s s' : Stage} {now : Nat} {pacing : Pacing} {tag : CommandTag} {k : Kind} {e : Entity}
  {id : EntityId} {c : Command} {cues : List (List Cue)}

/-- The row under an identifier. -/
def row? (s : Stage) (id : EntityId) : Option Row := s.scene.rows.find? id

theorem scene_redrawNode (s : Stage) (now : Nat) (id : EntityId) (h : Option Highlight) :
    (s.redrawNode now id h).scene = s.scene := by
  unfold redrawNode
  split <;> rfl

theorem scene_redrawRow (s : Stage) (now : Nat) (id : EntityId) (tints : List (Nat × Color)) :
    (s.redrawRow now id tints).scene = s.scene := by
  unfold redrawRow
  split <;> rfl

theorem scene_followEdge (s : Stage) (now : Nat) (id : EntityId) :
    (s.followEdge now id).scene = s.scene := by
  unfold followEdge
  split <;> rfl

theorem scene_foldl {α : Type} {f : Stage → α → Stage} (hf : ∀ s a, (f s a).scene = s.scene)
    (s : Stage) (l : List α) : (l.foldl f s).scene = s.scene := by
  induction l generalizing s with
  | nil => rfl
  | cons a rest ih => exact (ih (f s a)).trans (hf s a)

theorem scene_followNode (s : Stage) (now : Nat) (id : EntityId) :
    (s.followNode now id).scene = s.scene :=
  scene_foldl (fun s e => scene_followEdge s now e) s _

theorem scene_followRow (s : Stage) (now : Nat) (id : EntityId) :
    (s.followRow now id).scene = s.scene := by
  unfold followRow
  split
  · rfl
  · exact scene_foldl (f := fun s (p : Pointer) => s.redraw now p.id (.ofPointer p _))
      (fun _ _ => rfl) s _

/-- To take another kind of thing out of the scene takes no row. -/
theorem rows_erase (scene : Scene) (hk : k ≠ .array) (id : EntityId) :
    (scene.erase k id).rows = scene.rows := by
  cases k with
  | array => exact absurd rfl hk
  | _ => rfl

theorem scene_create {f : Figure} {enter : Transition} {after : List Cue}
    (h : s.create now pacing tag e f enter after = .ok (s', cues)) : s'.scene = s.scene.put e := by
  have hinsert : ∀ {scene}, s.scene.insert e = .ok scene → scene = s.scene.put e := by
    intro scene hscene
    unfold Scene.insert at hscene
    split at hscene
    · split at hscene
      · exact (Except.ok.inj hscene).symm
      · cases hscene
    · exact (Except.ok.inj hscene).symm
  unfold create Stage.enter at h
  cases hscene : s.scene.insert e with
  | error clash =>
    simp only [hscene] at h
    cases h
  | ok scene =>
    simp only [hscene] at h
    cases h
    exact hinsert hscene

/-- A thing of another kind that enters leaves the rows as they are. -/
theorem row?_create {f : Figure} {enter : Transition} {after : List Cue}
    (hput : (s.scene.put e).rows = s.scene.rows)
    (h : s.create now pacing tag e f enter after = .ok (s', cues)) : s'.row? id = s.row? id := by
  unfold row?
  rw [scene_create h, hput]

theorem row?_delete (hk : k ≠ .array) {i : EntityId}
    (h : s.delete now pacing tag k i = .ok (s', cues)) : s'.row? id = s.row? id := by
  unfold delete at h
  dsimp only at h
  split at h
  · cases h
  · split at h
    · cases h
      exact congrArg (·.find? id) (rows_erase s.scene hk i)
    · split at h <;> cases h <;> rfl

theorem row?_of_scene (h : s'.scene = s.scene) : s'.row? id = s.row? id :=
  congrArg (·.rows.find? id) h

theorem row?_modifyRow (s : Stage) (f : Row → Row) (target : EntityId) :
    ({ s with scene := s.scene.modifyRow target f } : Stage).row? id =
      if id = target then (s.row? id).map f else s.row? id :=
  Table.find?_modify s.scene.rows target id f

/-- A command that takes effect does to the rows what it says. -/
theorem row?_opening (h : s.opening now pacing c = .ok (s', cues)) :
    s'.row? id = c.rowAfter id (s.row? id) := by
  cases effect_of_opening h with
  | createNode hcreate =>
    exact (row?_of_scene (scene_followNode _ _ _)).trans (row?_create rfl hcreate)
  | @updateNode i =>
    exact row?_of_scene (s := { s with scene := s.scene.modifyNode i _ }) (scene_redrawNode _ _ _ _)
  | deleteNode hdelete | deleteEdge hdelete => exact row?_delete (by decide) hdelete
  | moveNode | highlight | compare | pulse | highlightPath => rfl
  | createEdge _ hcreate | setPointer _ hcreate | addLabel hcreate | addCallout _ hcreate =>
    exact row?_create rfl hcreate
  | createArray hcreate =>
    unfold row?
    rw [scene_create hcreate]
    exact Table.find?_insert ..
  | @swap target | @updateCell target =>
    exact (row?_of_scene (scene_redrawRow _ _ _ _)).trans (row?_modifyRow s _ target)

/-- Cells are exchanged if they are there, and otherwise the command is refused. -/
theorem opening_swap_iff {i j : Nat} {span : Span} :
    (∃ opened, s.opening now pacing (.swap id (i, j) span) = .ok opened) ↔
      ∃ r, s.row? id = some r ∧ Row.fits r.cells.length (i, j) = true := by
  show (∃ opened, s.swapCells now id i j span = .ok opened) ↔ _
  unfold swapCells requireCells row?
  cases s.scene.rows.find? id with
  | none =>
    constructor
    · rintro ⟨_, ⟨⟩⟩
    · rintro ⟨_, ⟨⟩, _⟩
  | some r =>
    -- The row is there, so all depends on whether one of the two cells is missing.
    by_cases hfits : Row.fits r.cells.length (i, j) = true
    · have hnone : ([i, j].find? fun i => !r.hasCell i) = none := by
        obtain ⟨hi, hj⟩ := Row.fits_iff.1 hfits
        simp [Row.hasCell, hi, hj]
      simp only [hnone]
      exact iff_of_true ⟨_, rfl⟩ ⟨r, rfl, hfits⟩
    · have hsome : ∃ l, ([i, j].find? fun i => !r.hasCell i) = some l := by
        rw [← Option.isSome_iff_exists, List.find?_isSome]
        rw [Row.fits_iff, Classical.not_and_iff_not_or_not] at hfits
        simpa [Row.hasCell] using hfits
      obtain ⟨l, hl⟩ := hsome
      simp only [hl]
      refine iff_of_false ?_ ?_
      · rintro ⟨_, ⟨⟩⟩
      · rintro ⟨_, ⟨⟩, hr⟩
        exact hfits hr

/-! ### What is done later -/

/-- The acts that take no row out of the scene. -/
def sparing : Set Act := {a | ∀ ticket id, a ≠ .finishExit ticket .array id}

theorem row?_perform {a : Act} (ha : a ∈ sparing) (s : Stage) (now : Nat) (id : EntityId) :
    (s.perform now a).row? id = s.row? id := by
  cases a with
  | highlight i h => exact row?_of_scene (scene_redrawNode s now i h)
  | tint i tints => exact row?_of_scene (scene_redrawRow s now i tints)
  | followNode i => exact row?_of_scene (scene_followNode s now i)
  | followRow i => exact row?_of_scene (scene_followRow s now i)
  | finishExit ticket k i =>
    have hk : k ≠ .array := by
      rintro rfl
      exact ha ticket i rfl
    show (s.finishExit now ticket k i).row? id = _
    unfold finishExit
    split
    · exact congrArg (·.find? id) (rows_erase s.scene hk i)
    · rfl

theorem Acted.row? (h : Acted sparing s s') (id : EntityId) : s'.row? id = s.row? id := by
  induction h with
  | refl => rfl
  | act now ha _ ih => exact ih.trans (row?_perform ha _ now id)

/-- Whatever commands leave to be done, it takes no row. -/
theorem sparing_of_schedules {a : Act} (h : c.Schedules a) : a ∈ sparing := by
  rintro ticket id rfl
  rcases h with ⟨⟨⟩, _⟩ | ⟨⟨⟩, _⟩

theorem scheduled_subset_sparing (commands : List Json) : scheduled commands ⊆ sparing := by
  rintro a ⟨_, _, c, _, h⟩
  exact sparing_of_schedules h

/-! ### What happens on a stage -/

/-- Something that happens on a stage at once. -/
inductive Deed where
  /-- A command opens, and this becomes of it. -/
  | opened (command : Json) (course : Course)
  /-- Everything is cleared. -/
  | cleared

namespace Deed

/-- The command that opens, if it can be read. -/
def command? : Deed → Option Command
  | opened command _ => (Command.ofJson command).toOption
  | cleared => none

/-- Whether a command takes effect. -/
def isTaken : Deed → Bool
  | opened _ (.taken _) => true
  | _ => false

/-- The command that takes effect. -/
def taken? (d : Deed) : Option Command := if d.isTaken then d.command? else none

/-- The cells of a row that are to be exchanged, be they there or not. -/
def pair? (id : EntityId) (d : Deed) : Option (Nat × Nat) :=
  match d.command? with
  | some (.swap target pair _) => if id = target then some pair else none
  | _ => none

/-- The row under an identifier afterwards. -/
def rowAfter (id : EntityId) (row : Option Row) : Deed → Option Row
  | opened command course => ((opened command course).taken?).elim row (·.rowAfter id row)
  | cleared => none

/-- Whether the row under an identifier comes, goes or is written to, other than by an exchange of
    its cells. -/
def overwrites (id : EntityId) : Deed → Bool
  | opened command course =>
    match (opened command course).taken? with
    | some (.createArray r) => id = r.id
    | some (.updateCell target _ _ _) => id = target
    | _ => false
  | cleared => true

/-- An exchange of cells takes effect if the row has them both. -/
def Judged (id : EntityId) (row : Option Row) (d : Deed) : Prop :=
  ∀ pair, d.pair? id = some pair →
    (d.isTaken = true ↔ ∃ r, row = some r ∧ Row.fits r.cells.length pair = true)

end Deed

/-- The exchanges of cells of a row that a trail asks for. -/
def pairs (id : EntityId) (trail : List (Deed × Stage)) : List (Nat × Nat) :=
  trail.filterMap fun x => x.1.pair? id

end Stage

open Stage

/-- What happens when commands are opened, each with the stage that it leaves. -/
def Course.trail (now : Nat) (pacing : Pacing) (s : Stage) : List Json → List (Deed × Stage)
  | [] => []
  | command :: rest =>
    let opened := start now pacing s command
    (.opened command opened.2, opened.1) :: trail now pacing opened.1 rest

/-- What happens when an action begins. -/
def Stage.Action.trail (now : Nat) (s : Stage) : Action → List (Deed × Stage)
  | perform commands pacing => Course.trail now pacing s commands
  | reset => [(.cleared, s.reset now)]
  | readJournal => []
  | wait _ => []
  | look => []

/-- What happens in the course of some events, with the stages in between. -/
def Stage.trail (e : Ensemble Stage Action Task) : List (Event Action) → List (Deed × Stage)
  | [] => []
  | event :: rest =>
    ((e.begun? event).elim [] (Action.trail (e.step machine event).now e.world)) ++
      trail (e.step machine event) rest

/-- A trail leads from one row under an identifier to another: every stage on it has the row that
    its deed makes of the one before. -/
inductive Stage.Leads (id : EntityId) : Option Row → List (Deed × Stage) → Option Row → Prop
  | nil {row : Option Row} : Leads id row [] row
  | cons {row row' : Option Row} {x : Deed × Stage} {rest : List (Deed × Stage)}
      (judged : x.1.Judged id row) (after : x.2.row? id = x.1.rowAfter id row)
      (leads : Leads id (x.2.row? id) rest row') : Leads id row (x :: rest) row'

namespace Stage.Leads

variable {id : EntityId} {row row' row'' : Option Row} {xs ys : List (Deed × Stage)}

theorem append (h : Leads id row xs row') (h' : Leads id row' ys row'') :
    Leads id row (xs ++ ys) row'' := by
  induction h with
  | nil => exact h'
  | cons judged after _ ih => exact .cons judged after (ih h')

/-- A trail may be left at any place. -/
theorem split (h : Leads id row (xs ++ ys) row'') :
    ∃ row', Leads id row xs row' ∧ Leads id row' ys row'' := by
  induction xs generalizing row with
  | nil => exact ⟨row, .nil, h⟩
  | cons x rest ih =>
    cases h with
    | cons judged after leads =>
      obtain ⟨row', hfirst, hrest⟩ := ih leads
      exact ⟨row', .cons judged after hfirst, hrest⟩

end Stage.Leads

/-! ### Where trails lead -/

section
variable (id : EntityId)

theorem Course.leads_start (now : Nat) (pacing : Pacing) (s : Stage) (command : Json) :
    let d := Deed.opened command (start now pacing s command).2
    d.Judged id (s.row? id) ∧
      (start now pacing s command).1.row? id = d.rowAfter id (s.row? id) := by
  unfold start
  cases hc : Command.ofJson command with
  | error p =>
    refine ⟨?_, rfl⟩
    intro pair hpair
    simp [Deed.pair?, Deed.command?, hc, Except.toOption] at hpair
  | ok c =>
    dsimp only
    -- Only an exchange of cells of this row is to be judged.
    have hjudged : ∀ course, (Deed.isTaken (.opened command course) = true ↔
        ∃ opened, s.opening now pacing c = .ok opened) →
          (Deed.opened command course).Judged id (s.row? id) := by
      intro course htaken pair hpair
      simp only [Deed.pair?, Deed.command?, hc, Except.toOption] at hpair
      split at hpair
      · next target pair' span hswap =>
        obtain rfl := Option.some.inj hswap
        split at hpair
        · next hid =>
          subst hid
          obtain rfl := Option.some.inj hpair
          exact htaken.trans opening_swap_iff
        · cases hpair
      · cases hpair
    cases ho : s.opening now pacing c with
    | error p =>
      refine ⟨hjudged _ ?_, rfl⟩
      simp [Deed.isTaken, ho]
    | ok opened =>
      refine ⟨hjudged _ (iff_of_true rfl ⟨opened, ho⟩), ?_⟩
      have hacts : ∀ l ∈ opened.2, Cue.actsOf l ⊆ sparing :=
        fun l hl a ha => sparing_of_schedules (opening_schedules ho l hl a ha)
      have hacted := (Strand.followAll_acted (s := opened.1) now pacing hacts).1
      have htaken : Deed.taken? (.opened command
          (.taken (Strand.followAll now pacing opened.1 opened.2).2)) = some c := by
        simp [Deed.taken?, Deed.isTaken, Deed.command?, hc, Except.toOption]
      dsimp only
      rw [hacted.row? id, Deed.rowAfter, htaken]
      exact row?_opening ho

theorem Course.leads_trail (now : Nat) (pacing : Pacing) (s : Stage) (commands : List Json) :
    Leads id (s.row? id) (trail now pacing s commands)
      ((startAll now pacing s commands).1.row? id) := by
  induction commands generalizing s with
  | nil => exact .nil
  | cons command rest ih =>
    obtain ⟨hjudged, hafter⟩ := leads_start id now pacing s command
    exact .cons hjudged hafter (ih _)

theorem Stage.Action.leads_trail (now : Nat) (s : Stage) (action : Action) :
    Leads id (s.row? id) (action.trail now s) ((machine.start now s action).1.row? id) := by
  cases action with
  | perform commands pacing => exact Course.leads_trail id now pacing s commands
  | reset =>
    refine .cons ?_ rfl .nil
    intro pair hpair
    cases hpair
  | _ => exact .nil

/-- What a task is still to do takes no row. -/
def Stage.Task.Sparing : Task → Prop
  | performing p => Strand.ActsIn sparing p.strands
  | _ => True

theorem Stage.Task.sparing_waitUntil (now time : Nat) : (waitUntil now time).Sparing := by
  unfold waitUntil
  split <;> trivial

theorem Stage.Task.sparing_start (now : Nat) (s : Stage) (action : Action) :
    (machine.start now s action).2.Sparing := by
  cases action with
  | perform commands pacing =>
    intro t ht
    exact (Performance.start_scheduled now pacing s commands t ht).trans
      (scheduled_subset_sparing commands)
  | wait d => exact sparing_waitUntil _ _
  | _ => trivial

theorem Stage.Task.sparing_resume {t : Task} (h : t.Sparing) (now : Nat) (s : Stage) :
    (machine.resume now s t).1.row? id = s.row? id ∧ (machine.resume now s t).2.Sparing := by
  cases t with
  | performing p =>
    obtain ⟨hacted, hleft⟩ := Performance.resume_acted (s := s) now h
    exact ⟨hacted.row? id, hleft⟩
  | waiting time => exact ⟨rfl, sparing_waitUntil _ _⟩
  | «over» entries => exact ⟨rfl, trivial⟩

/-- What is under way takes no row, and the deeds of an event lead to the row that there is after
    it. -/
theorem Stage.leads_step {e : Ensemble Stage Action Task} (h : ∀ t ∈ e.inFlight, t.Sparing)
    (event : Event Action) :
    (∀ t ∈ (e.step machine event).inFlight, t.Sparing) ∧
      Leads id (e.world.row? id)
        ((e.begun? event).elim [] (Action.trail (e.step machine event).now e.world))
        ((e.step machine event).world.row? id) := by
  have hjoined : ∀ {t : Task} {ts : List Task}, t.Sparing → (∀ u ∈ ts, u.Sparing) →
      ∀ u ∈ joined machine t ts, u.Sparing := by
    intro t ts ht hts
    unfold joined
    split
    · exact hts
    · exact List.forall_mem_cons.2 ⟨ht, hts⟩
  -- Only actions that begin open commands and clear the stage, so the deeds are theirs. What goes
  -- on performs acts, which change no row.
  cases hbegun : e.begun? event with
  | some action =>
    obtain ⟨hworld, hts⟩ := step_of_begun (m := machine) hbegun
    refine ⟨fun t ht => ?_, ?_⟩
    · exact hjoined (Task.sparing_start _ _ action) h t (hts.mem_iff.2 ht)
    · rw [hworld]
      exact Action.leads_trail id _ _ action
  | none =>
    cases hresumed : e.resumed? event with
    | some t =>
      obtain ⟨hworld, ts, hbefore, hafter⟩ := step_of_resumed (m := machine) hresumed
      have hsparing : ∀ u ∈ t :: ts, u.Sparing := fun u hu => h u (hbefore.mem_iff.2 hu)
      obtain ⟨ht, hrest⟩ := List.forall_mem_cons.1 hsparing
      obtain ⟨hrow, hleft⟩ := Task.sparing_resume id ht (e.step machine event).now e.world
      refine ⟨fun u hu => hjoined hleft hrest u (hafter.mem_iff.2 hu), ?_⟩
      rw [hworld, hrow]
      exact .nil
    | none =>
      obtain ⟨hworld, hts⟩ := step_of_idle (m := machine) hbegun hresumed
      rw [hworld, hts]
      exact ⟨h, .nil⟩

/-- However the commands of a run take their turns, the row under an identifier is at every moment
    what the deeds up to then make of it. -/
theorem Stage.leads_trail {e : Ensemble Stage Action Task} (h : ∀ t ∈ e.inFlight, t.Sparing)
    (events : List (Event Action)) :
    Leads id (e.world.row? id) (trail e events) ((e.after machine events).world.row? id) := by
  induction events generalizing e with
  | nil => exact .nil
  | cons event rest ih =>
    obtain ⟨hnext, hstep⟩ := leads_step id h event
    exact hstep.append (ih hnext)

end

/-! ### Rows of which only cells are exchanged -/

namespace Stage

variable {id : EntityId} {r : Row} {row : Option Row} {xs : List (Deed × Stage)}

theorem pairs_append (id : EntityId) (xs ys : List (Deed × Stage)) :
    pairs id (xs ++ ys) = pairs id xs ++ pairs id ys := List.filterMap_append

theorem pairs_cons (id : EntityId) (x : Deed × Stage) (xs : List (Deed × Stage)) :
    pairs id (x :: xs) = (x.1.pair? id).toList ++ pairs id xs := by
  unfold pairs
  cases h : x.1.pair? id with
  | none => simp [h]
  | some pair => simp [h]

/-- A deed that does not overwrite a row makes of it what the exchange it asks for does, and
    nothing at all if it asks for none. -/
theorem Deed.rowAfter_of_spared {d : Deed} (hspared : d.overwrites id = false)
    (hjudged : d.Judged id (some r)) :
    d.rowAfter id (some r) = some (r.exchange (d.pair? id).toList) := by
  cases d with
  | cleared => cases hspared
  | opened command course =>
    rw [rowAfter]
    cases htaken : (opened command course).taken? with
    | none =>
      -- An exchange that was refused names a cell that is not there.
      cases hpair : (opened command course).pair? id with
      | none => rfl
      | some pair =>
        have hrefused : ¬(opened command course).isTaken = true := by
          intro hisTaken
          rw [taken?, if_pos hisTaken] at htaken
          rw [pair?, htaken] at hpair
          cases hpair
        have hmisfit : ¬(pair.1 < r.cells.length ∧ pair.2 < r.cells.length) := by
          intro hfits
          exact hrefused ((hjudged pair hpair).2 ⟨r, rfl, Row.fits_iff.2 hfits⟩)
        show some r = some (r.swapCells pair.1 pair.2)
        rw [Row.swapCells_of_not_fits hmisfit]
    | some c =>
      have hcommand : (opened command course).command? = some c := by
        unfold taken? at htaken
        split at htaken
        · exact htaken
        · cases htaken
      rw [overwrites, htaken] at hspared
      rw [pair?, hcommand]
      cases c with
      | createArray r' =>
        have hne : ¬id = r'.id := of_decide_eq_false hspared
        exact if_neg hne
      | updateCell target i value lit =>
        have hne : ¬id = target := of_decide_eq_false hspared
        exact if_neg hne
      | swap target pair span =>
        show (if id = target then (some r).map fun r => r.swapCells pair.1 pair.2 else some r) =
          some (r.exchange (if id = target then some pair else none).toList)
        split <;> rfl
      | _ => rfl

/-- As long as a row is not overwritten, its cells are carried along the exchanges. -/
theorem Leads.exchange (h : Leads id (some r) xs row)
    (hspared : ∀ x ∈ xs, x.1.overwrites id = false) : row = some (r.exchange (pairs id xs)) := by
  induction xs generalizing r with
  | nil =>
    cases h
    rfl
  | cons x rest ih =>
    obtain ⟨hfirst, hrest⟩ := List.forall_mem_cons.1 hspared
    cases h with
    | cons judged after leads =>
      rw [after, Deed.rowAfter_of_spared hfirst judged] at leads
      rw [ih leads hrest, ← Row.exchange_append, pairs_cons]

/-- From its creation on, and as long as nothing else is done to it, a row is at every moment what
    the exchanges so far make of it, both of them between the commands of a step and between
    steps. An exchange takes effect exactly if both its cells are there. Whatever is exchanged, the
    cells are carried along the transpositions of the pairs that fit, and exchanges that are made
    once more in reverse come to nothing. -/
theorem cells_after (now : Nat) (s : Stage) (events : List (Event Action))
    {before behind : List (Deed × Stage)} {created : Deed × Stage}
    (htrail : trail (alone now s) events = before ++ created :: behind)
    (hcreated : created.1.taken? = some (.createArray r))
    (hspared : ∀ x ∈ behind, x.1.overwrites r.id = false) :
    created.2.row? r.id = some r ∧
      (∀ done x rest, behind = done ++ x :: rest →
        x.2.row? r.id = some (r.exchange (pairs r.id (done ++ [x]))) ∧
        ∀ pair, x.1.pair? r.id = some pair →
          (x.1.isTaken = true ↔ Row.fits r.cells.length pair = true)) ∧
      ((alone now s).after machine events).world.row? r.id =
        some (r.exchange (pairs r.id behind)) ∧
      (∀ pairs, r.Arranged pairs (r.exchange pairs)) ∧
      ∀ pairs again, r.exchange (pairs ++ (again ++ again.reverse)) = r.exchange pairs := by
  -- What is known of the row at the creation does not depend on what was there before: a creation
  -- replaces the row whatever it was.
  have hleads := leads_trail r.id (e := alone now s) (List.forall_mem_nil _) events
  rw [htrail] at hleads
  obtain ⟨row, _, hcreation⟩ := hleads.split
  have hafter : ∀ row, created.1.rowAfter r.id row = some r := by
    intro row
    cases hd : created.1 with
    | cleared =>
      rw [hd] at hcreated
      cases hcreated
    | opened command course =>
      rw [hd] at hcreated
      rw [Deed.rowAfter, hcreated]
      exact if_pos rfl
  cases hcreation with
  | cons _ after leads =>
    rw [hafter] at after
    rw [after] at leads
    refine ⟨after, ?_, leads.exchange hspared, Row.arranged_exchange r, ?_⟩
    · rintro done x rest rfl
      -- The trail is cut at the deed in question: the deeds before it tell what the row is.
      obtain ⟨row, hdone, hlast⟩ := leads.split
      have hbefore : ∀ y ∈ done, y.1.overwrites r.id = false := fun y hy =>
        hspared y (List.mem_append_left _ hy)
      have hx : x.1.overwrites r.id = false :=
        hspared x (List.mem_append_right _ List.mem_cons_self)
      obtain rfl := hdone.exchange hbefore
      obtain ⟨_, _, hlength⟩ := Row.exchange_frame r (pairs r.id done)
      cases hlast with
      | cons judged after' _ =>
        constructor
        · have hlast : pairs r.id [x] = (x.1.pair? r.id).toList := by
            rw [pairs_cons]
            exact List.append_nil _
          rw [after', Deed.rowAfter_of_spared hx judged, ← Row.exchange_append, pairs_append, hlast]
        · intro pair hpair
          rw [judged pair hpair]
          constructor
          · rintro ⟨_, hr, hfits⟩
            obtain rfl := Option.some.inj hr
            rwa [hlength] at hfits
          · intro hfits
            exact ⟨_, rfl, hlength.symm ▸ hfits⟩
    · intro pairs again
      rw [← List.append_assoc, Row.exchange_append, Row.exchange_append,
        ← Row.exchange_append, Row.exchange_append_reverse]

/-- Two cells are exchanged as the row is created, and again in a step that begins while they are
    still tinted, after an exchange with a cell that is not there. -/
theorem cells_after_overlapping :
    let swap (j : Nat) : Json := .obj [("arrayId", .str "a"), ("command", .str "SWAP"),
      ("indices", .arr [.int 0, .int j])]
    let create : Json := .obj [("command", .str "CREATE_ARRAY"), ("id", .str "a"),
      ("position", .obj [("x", .int 0), ("y", .int 0)]),
      ("values", .arr [.str "p", .str "q", .str "r"])]
    let r : Row := ⟨⟨"a"⟩, ["p", "q", "r"], ⟨0, 0⟩⟩
    let events : List (Event Action) := [.join 0 (.perform [create, swap 2] .realtime), .turn 0 0,
      .join 100 (.perform [swap 3, swap 2] .realtime), .turn 1 100]
    let run := (alone 0 empty).after machine
    ∃ created behind, trail (alone 0 empty) events = [] ++ created :: behind ∧
      created.1.taken? = some (.createArray r) ∧
      (∀ x ∈ behind, x.1.overwrites r.id = false) ∧
      pairs r.id behind = [(0, 2), (0, 3), (0, 2)] ∧
      ((run (events.take 2)).world.row? r.id).map (·.cells) = some ["r", "q", "p"] ∧
      (run events).inFlight.length = 2 ∧ (run events).world.row? r.id = some r := by
  intro swap create r events run
  have hfirst : (trail (alone 0 empty) events).head?.bind (·.1.taken?) = some (.createArray r) := by
    decide +kernel
  have hothers : ∀ x ∈ (trail (alone 0 empty) events).tail, x.1.overwrites r.id = false := by
    decide +kernel
  have hpairs : pairs r.id (trail (alone 0 empty) events).tail = [(0, 2), (0, 3), (0, 2)] := by
    decide +kernel
  -- The trail is taken apart at its head, which is the creation of the row.
  cases htrail : trail (alone 0 empty) events with
  | nil =>
    rw [htrail] at hfirst
    cases hfirst
  | cons created behind =>
    rw [htrail] at hfirst hothers hpairs
    rw [List.tail_cons] at hothers hpairs
    have hsplit : trail (alone 0 empty) events = [] ++ created :: behind := htrail
    obtain ⟨_, _, hlast, _⟩ := cells_after 0 empty events hsplit hfirst hothers
    rw [hpairs] at hlast
    exact ⟨created, behind, rfl, hfirst, hothers, hpairs, by decide +kernel, by decide +kernel,
      hlast⟩

end Stage

end Storyboard
