import Storyboard.Proofs.Ensemble.Solo
import Storyboard.Proofs.Stage.Rest

/-! # Executing commands

    Commands that are performed alone come to their end, after no more rounds
    than they have waits, in either pacing. What they leave behind is what
    they come to one after another: the scene, the report and the things that
    are drawn are those of the draft (`execute_spec`). -/

namespace Storyboard

/-! ### Waking up -/

/-- A performance that is not over can go on now or at the time that it names. -/
theorem Performance.exists_due {p : Performance} {now : Nat} (h : p.isOver = false)
    (hready : p.isReady now = false) :
    ∃ due, p.due? = some due ∧ p.isReady (max now due) = true := by
  simp only [Performance.isOver, List.all_eq_false, Bool.not_eq_true] at h
  obtain ⟨t, ht, hopen⟩ := h
  have hlate : ∀ u ∈ p.strands, u.isReady now = false := by
    simpa [Performance.isReady] using hready
  -- A strand that is not over and cannot go on waits for a time.
  have hdue : ∃ time, t.due? = some time := by
    cases t with
    | «over» => cases hopen
    | resting wait rest =>
      cases wait with
      | turn => cases hlate _ ht
      | time time => exact ⟨time, rfl⟩
  obtain ⟨time, htime⟩ := hdue
  have hsome : p.due?.isSome = true :=
    List.isSome_min?_of_mem (List.mem_filterMap.2 ⟨t, ht, htime⟩)
  obtain ⟨due, hmin⟩ := Option.isSome_iff_exists.1 hsome
  obtain ⟨u, hu, hudue⟩ := List.mem_filterMap.1 (List.min?_mem hmin)
  refine ⟨due, hmin, List.any_eq_true.2 ⟨u, hu, ?_⟩⟩
  cases u with
  | «over» => cases hudue
  | resting wait rest =>
    cases wait with
    | turn => cases hudue
    | time time =>
      obtain rfl := Option.some.inj hudue
      exact decide_eq_true (Nat.le_max_right _ _)

namespace Stage

variable {s s' : Stage} {d : Draft}

/-! ### From the outlook to the scene -/

/-- Where nothing is owed, the scene is what the outlook says. -/
theorem Coherent.scene_eq (hs : s.Coherent ∅) {t : Scene}
    (h : ∀ k id, s.outlook k id = t.get? k id) : s.scene = t := by
  refine Scene.ext_get? fun k id => ?_
  rw [← h]
  have hstays : s.presenter.isExiting id = false := by
    rw [Bool.eq_false_iff, Ne, hs.sound.isExiting_iff]
    rintro ⟨v, hv, hx⟩
    rw [hs.exiting_eq_false hv] at hx
    cases hx
  rw [outlook, hstays]
  rfl

/-- Where nothing is owed, the things that are drawn are those in the scene. -/
theorem Coherent.live_eq (hs : s.Coherent ∅) (id : EntityId) :
    (s.presenter.live.find? id).map (fun l => (l.kind, l.exiting)) =
      (s.scene.kindOf? id).map fun k => (k, false) := by
  rw [hs.kindOf?]
  cases hl : s.presenter.live.find? id with
  | none => simp [Presenter.sight?_eq_none_of_live hl]
  | some l =>
    obtain ⟨i, hi, _⟩ := hs.sound.drawn id l hl
    have hsight := Presenter.sight?_of_live hl hi
    have hx : l.exiting = false := hs.exiting_eq_false hsight
    simp [hsight, hx]

/-- Without marks, the draft of a stage is its scene. -/
theorem Coherent.matches_scene (hs : s.Coherent ∅) : s.Matches ⟨s.scene, []⟩ := by
  refine ⟨rfl, fun id => ?_⟩
  rw [hs.sound.isExiting_iff]
  constructor
  · rintro ⟨v, hv, hx⟩
    rw [hs.exiting_eq_false hv] at hx
    cases hx
  · rintro ⟨⟩

/-! ### Commands performed alone -/

/-- What holds while commands are performed alone that come to a scene, with a report. -/
structure Settling (t : Scene) (report : Report) (s : Stage) (p : Performance) : Prop where
  coherent : s.Coherent p.owed
  tidy     : p.Tidy
  outlook  : ∀ k id, s.outlook k id = t.get? k id
  report   : p.report = report

theorem Settling.start (hs : s.Coherent ∅) (now : Nat) (pacing : Pacing) (commands : List Json) :
    Settling (s.scene.after commands) (s.scene.report commands)
      (Performance.start now pacing s commands).1 (Performance.start now pacing s commands).2 := by
  obtain ⟨hcoherent, htidy, hmatches, hreport, _⟩ := Performance.start_spec now pacing hs
    hs.matches_scene commands
  rw [Set.union_empty] at hcoherent
  exact ⟨hcoherent, htidy, hmatches.outlook, hreport⟩

theorem Settling.resume {t : Scene} {report : Report} {p : Performance}
    (h : Settling t report s p) (now : Nat) :
    Settling t report (p.resume now s).1 (p.resume now s).2 := by
  obtain ⟨hpays, htidy, hreport, _⟩ := Performance.resume_spec (s := s) now h.tidy ∅
  rw [Set.union_empty, Set.union_empty] at hpays
  obtain ⟨hcoherent, houtlook⟩ := hpays h.coherent
  exact ⟨hcoherent, htidy, houtlook ▸ h.outlook, hreport.trans h.report⟩

/-- When the performance is over, the stage is at rest with the scene that the commands come to. -/
theorem Settling.over {t : Scene} {report : Report} {p : Performance}
    (h : Settling t report s p) (hover : p.isOver = true) : s.Coherent ∅ ∧ s.scene = t := by
  have hs := h.coherent
  rw [Performance.owed_of_isOver hover] at hs
  exact ⟨hs, hs.scene_eq h.outlook⟩

/-- The waits that a task has ahead. -/
def Task.waits : Task → Nat
  | .performing p => p.waits
  | _ => 0

/-- Commands are performed alone on a stage, from whatever time on and in either pacing, and came
    this far. -/
inductive Performing (s : Stage) (commands : List Json) : Stage → Performance → Prop
  | start (now : Nat) (pacing : Pacing) : Performing s commands
      (Performance.start now pacing s commands).1 (Performance.start now pacing s commands).2
  | resume {s' : Stage} {p : Performance} (now : Nat) (h : Performing s commands s' p) :
      Performing s commands (p.resume now s').1 (p.resume now s').2

/-- Commands were performed alone on a stage. -/
def Performed (s : Stage) (commands : List Json) (s' : Stage) : Prop :=
  ∃ p, Performing s commands s' p ∧ p.isOver = true

theorem Performing.settling {commands : List Json} {p : Performance}
    (h : Performing s commands s' p) (hs : s.Coherent ∅) :
    Settling (s.scene.after commands) (s.scene.report commands) s' p := by
  induction h with
  | start now pacing => exact .start hs now pacing commands
  | resume now _ ih => exact ih.resume now

/-- Each time that they go on, fewer waits are ahead. -/
theorem advances_performing (hs : s.Coherent ∅) (commands : List Json) :
    Ensemble.Advances machine
      (fun s' task => ∃ p, task = .performing p ∧ Performing s commands s' p)
      fun _ => Task.waits where
  step := by
    rintro now s' task ⟨p, rfl, h⟩ _
    obtain ⟨_, _, _, hwaits⟩ := Performance.resume_spec (s := s') now (h.settling hs).tidy ∅
    exact ⟨⟨_, rfl, h.resume now⟩, hwaits⟩
  wake := by
    rintro now s' task ⟨p, rfl, h⟩ hopen hready
    exact Performance.exists_due hopen hready

/-- Commands performed alone, with so many rounds. -/
def execute (s : Stage) (now : Nat) (pacing : Pacing) (commands : List Json) (rounds : Nat) :
    Ensemble Stage Action Task :=
  (Ensemble.ofActions now s [(now, .perform commands pacing)]).run machine rounds

/-- Commands performed alone on a stage where nothing is owed come to their end. -/
theorem Coherent.execute_performed (hs : s.Coherent ∅) (now : Nat) (pacing : Pacing)
    (commands : List Json) {rounds : Nat} (hrounds : waitsOf commands < rounds) :
    ∃ stop s' p, s.execute now pacing commands rounds =
        ⟨stop, s', [.done now stop (.performing p) s']⟩ ∧
      Performing s commands s' p ∧ p.isOver = true := by
  obtain ⟨_, _, _, _, hwaits⟩ := Performance.start_spec now pacing hs hs.matches_scene commands
  obtain ⟨stop, s', task, hrun, ⟨p, rfl, h⟩, hdone⟩ := Ensemble.run_solo
    (advances_performing hs commands) now s (.perform commands pacing) ⟨_, rfl, .start now pacing⟩
    (Nat.lt_of_le_of_lt hwaits hrounds)
  exact ⟨stop, s', p, hrun, h, hdone⟩

/-- What they leave behind then. -/
theorem Coherent.execute (hs : s.Coherent ∅) (now : Nat) (pacing : Pacing) (commands : List Json)
    {rounds : Nat} (hrounds : waitsOf commands < rounds) :
    ∃ stop s' p, s.execute now pacing commands rounds =
        ⟨stop, s', [.done now stop (.performing p) s']⟩ ∧
      s'.Coherent ∅ ∧ s'.scene = s.scene.after commands ∧ p.report = s.scene.report commands := by
  obtain ⟨stop, s', p, hrun, h, hover⟩ := hs.execute_performed now pacing commands hrounds
  obtain ⟨hrest, hscene⟩ := (h.settling hs).over hover
  exact ⟨stop, s', p, hrun, hrest, hscene, (h.settling hs).report⟩

/-- Commands that are performed alone on a stage at rest are done after finitely many rounds. The
    scene and the report are those of the draft, whatever the pacing, and the things drawn are
    those in the scene, none of them on its way out. -/
theorem execute_spec (start : Nat) (events : List (Ensemble.Event Action))
    (hrest : AtRest ((Ensemble.alone start empty).after machine events))
    (now : Nat) (pacing : Pacing) (commands : List Json) (rounds : Nat)
    (hrounds : waitsOf commands < rounds) :
    let s := ((Ensemble.alone start empty).after machine events).world
    ∃ stop s' p, s.execute now pacing commands rounds =
        ⟨stop, s', [.done now stop (.performing p) s']⟩ ∧
      s'.scene = s.scene.after commands ∧ p.report = s.scene.report commands ∧
      ∀ id, (s'.presenter.live.find? id).map (fun l => (l.kind, l.exiting)) =
        ((s.scene.after commands).kindOf? id).map fun k => (k, false) := by
  intro s
  obtain ⟨stop, s', p, hrun, hs', hscene, hreport⟩ :=
    (coherent_of_atRest hrest).execute now pacing commands hrounds
  exact ⟨stop, s', p, hrun, hscene, hreport, fun id => hscene ▸ hs'.live_eq id⟩

/-- A node that is deleted and created again. -/
theorem execute_recreates :
    let node : Json := .obj [("command", .str "CREATE_NODE"), ("id", .str "a"),
      ("position", .obj [("x", .int 0), ("y", .int 0)])]
    let gone : Json := .obj [("command", .str "DELETE_NODE"), ("id", .str "a")]
    let e := (Ensemble.alone 0 empty).after machine
      [.join 0 (.perform [node] .instant), .turn 0 0, .turn 0 0]
    AtRest e ∧ waitsOf [gone, node, node] < 9 ∧
      ∃ stop s' p, e.world.execute 0 .realtime [gone, node, node] 9 =
        ⟨stop, s', [.done 0 stop (.performing p) s']⟩ ∧
      s'.scene = e.world.scene.after [gone, node, node] ∧
      p.report = e.world.scene.report [gone, node, node] ∧
      ∀ id, (s'.presenter.live.find? id).map (fun l => (l.kind, l.exiting)) =
        ((e.world.scene.after [gone, node, node]).kindOf? id).map fun k => (k, false) := by
  intro node gone e
  have hrest : AtRest e := atRest_of_isEmpty (by decide +kernel)
  have hrounds : waitsOf [gone, node, node] < 9 := by decide +kernel
  exact ⟨hrest, hrounds, execute_spec 0 _ hrest 0 .realtime [gone, node, node] 9 hrounds⟩

/-! ### Several lists -/

/-- Lists of commands performed one after another, each alone and to its end. -/
def executeAll (pacing : Pacing) (now : Nat) (s : Stage) : List (List Json) → Stage
  | [] => s
  | commands :: rest =>
    let e := s.execute now pacing commands (waitsOf commands + 1)
    executeAll pacing e.now e.world rest

theorem Coherent.executeAll (hs : s.Coherent ∅) (pacing : Pacing) (now : Nat)
    (lists : List (List Json)) :
    (s.executeAll pacing now lists).Coherent ∅ ∧
      (s.executeAll pacing now lists).scene = lists.foldl Scene.after s.scene := by
  induction lists generalizing s now with
  | nil => exact ⟨hs, rfl⟩
  | cons commands rest ih =>
    obtain ⟨stop, s', p, hrun, hs', hscene, _⟩ :=
      hs.execute now pacing commands (Nat.lt_succ_self _)
    rw [Stage.executeAll, hrun, List.foldl_cons, ← hscene]
    exact ih hs' stop

end Stage

end Storyboard
