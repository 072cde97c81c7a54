import Storyboard.Proofs.Ensemble.Tasks
import Storyboard.Proofs.Stage.Performance
import Storyboard.Stage.Script

/-! # The stage at rest

    However callers take their turns on a stage, it is coherent with what the
    tasks under way owe (`underway_after`). When nobody performs commands,
    nothing is owed, and what is drawn is a function of the scene
    (`displays_after`). -/

namespace Storyboard.Stage

/-! ### Tasks under way -/

namespace Task

/-- The acts that a task owes. -/
def owed : Task → Set Act
  | .performing p => p.owed
  | _ => ∅

/-- What undoes an act comes after it. -/
def Tidy : Task → Prop
  | .performing p => p.Tidy
  | _ => True

/-- The acts that some tasks owe. -/
def owedBy (tasks : List Task) : Set Act := {a | ∃ t ∈ tasks, a ∈ t.owed}

@[simp] theorem owedBy_nil : owedBy [] = ∅ := by
  simp [owedBy]

@[simp] theorem owedBy_cons (t : Task) (ts : List Task) :
    owedBy (t :: ts) = t.owed ∪ owedBy ts := by
  ext a
  simp [owedBy]

theorem owed_of_isDone {t : Task} (h : machine.isDone t = true) : t.owed = ∅ := by
  cases t with
  | performing p => exact Performance.owed_of_isOver h
  | _ => rfl

theorem owed_waitUntil (now time : Nat) : (waitUntil now time).owed = ∅ := by
  unfold waitUntil
  split <;> rfl

theorem tidy_waitUntil (now time : Nat) : (waitUntil now time).Tidy := by
  unfold waitUntil
  split <;> trivial

end Task

/-- What holds of a stage and the tasks under way on it. -/
structure Underway (s : Stage) (tasks : List Task) : Prop where
  coherent : s.Coherent (Task.owedBy tasks)
  tidy     : ∀ t ∈ tasks, t.Tidy

variable {s : Stage} {owed : Set Act} {tasks : List Task}

/-- A task that came this far is under way unless it is done. -/
theorem Underway.settle {t : Task} (hs : s.Coherent (t.owed ∪ Task.owedBy tasks)) (ht : t.Tidy)
    (htasks : ∀ u ∈ tasks, u.Tidy) :
    Underway s (Ensemble.joined machine t tasks) := by
  unfold Ensemble.joined
  cases hdone : machine.isDone t with
  | true =>
    rw [Task.owed_of_isDone hdone, Set.empty_union] at hs
    exact ⟨hs, htasks⟩
  | false =>
    refine ⟨by simpa using hs, fun u hu => ?_⟩
    rcases List.mem_cons.1 hu with rfl | hu
    · exact ht
    · exact htasks u hu

/-- The journal is for those who read it only. -/
theorem Coherent.clearJournal (hs : s.Coherent owed) : s.clearJournal.Coherent owed :=
  ⟨⟨hs.sound.drawn, hs.sound.owned, hs.sound.counted, hs.sound.numbered⟩, hs.keyed, hs.listed,
    hs.tickets, hs.exits, hs.drawn⟩

/-- Every stage is that of some draft. -/
theorem exists_matches (s : Stage) : ∃ d, s.Matches d := by
  refine ⟨⟨s.scene, (s.presenter.live.entries.filter fun e => e.2.exiting).map (·.1)⟩, rfl,
    fun id => ?_⟩
  simp only [List.mem_map, List.mem_filter, Prod.exists, Table.mem_entries_iff, Presenter.isExiting]
  cases h : s.presenter.live.find? id with
  | none => simp [h]
  | some l => simp [h]

theorem Underway.start (h : Underway s tasks) (now : Nat) (action : Action) :
    Underway (machine.start now s action).1
      (Ensemble.joined machine (machine.start now s action).2 tasks) := by
  -- Only those who perform commands owe anything.
  have hidle : ∀ {s : Stage} {t : Task}, s.Coherent (Task.owedBy tasks) → t.owed = ∅ → t.Tidy →
      Underway s (Ensemble.joined machine t tasks) := by
    intro s t hs howed ht
    refine Underway.settle ?_ ht h.tidy
    rwa [howed, Set.empty_union]
  cases action with
  | perform commands pacing =>
    obtain ⟨d, hd⟩ := exists_matches s
    obtain ⟨hcoherent, htidy, _⟩ := Performance.start_spec now pacing h.coherent hd commands
    exact Underway.settle hcoherent htidy h.tidy
  | reset => exact hidle h.coherent.reset rfl trivial
  | readJournal => exact hidle h.coherent.clearJournal rfl trivial
  | wait d => exact hidle h.coherent (Task.owed_waitUntil _ _) (Task.tidy_waitUntil _ _)
  | look => exact hidle h.coherent rfl trivial

theorem Underway.resume {t : Task} (h : Underway s (t :: tasks)) (now : Nat) :
    Underway (machine.resume now s t).1
      (Ensemble.joined machine (machine.resume now s t).2 tasks) := by
  have hs := h.coherent
  rw [Task.owedBy_cons] at hs
  have htasks : ∀ u ∈ tasks, u.Tidy := fun u hu => h.tidy u (List.mem_cons_of_mem _ hu)
  cases t with
  | performing p =>
    obtain ⟨hpays, htidy, _⟩ := Performance.resume_spec (s := s) now
      (h.tidy _ List.mem_cons_self) (Task.owedBy tasks)
    exact Underway.settle (hpays hs).1 htidy htasks
  | waiting time =>
    refine Underway.settle ?_ (Task.tidy_waitUntil now time) htasks
    rw [show (machine.resume now s (.waiting time)).2 = Task.waitUntil now time from rfl,
      Task.owed_waitUntil]
    exact hs
  | «over» entries => exact Underway.settle hs trivial htasks

/-- After any events the stage is coherent with what is owed by the tasks under way. -/
theorem underway_after (now : Nat) (events : List (Ensemble.Event Action)) :
    Underway ((Ensemble.alone now empty).after machine events).world
      ((Ensemble.alone now empty).after machine events).inFlight := by
  refine Ensemble.inFlight_induction (I := Underway) ?_ ?_ ?_ ?_ events
  · exact ⟨by simpa using coherent_empty, fun t ht => by cases ht⟩
  · intro s ts us hperm h
    refine ⟨?_, fun t ht => h.tidy t (hperm.mem_iff.2 ht)⟩
    have howed : Task.owedBy us = Task.owedBy ts := by
      ext a
      simp [Task.owedBy, hperm.mem_iff]
    rw [howed]
    exact h.coherent
  · intro now s ts action h
    exact h.start now action
  · intro now s t ts h
    exact h.resume now

/-! ### At rest -/

/-- Nobody performs commands. -/
def AtRest (e : Ensemble Stage Action Task) : Prop := ∀ p, Task.performing p ∉ e.inFlight

theorem atRest_of_isEmpty {e : Ensemble Stage Action Task} (h : e.inFlight.isEmpty = true) :
    AtRest e := by
  rw [List.isEmpty_iff] at h
  intro p hp
  rw [h] at hp
  cases hp

/-- At rest nothing is owed. -/
theorem coherent_of_atRest {now : Nat} {events : List (Ensemble.Event Action)}
    (h : AtRest ((Ensemble.alone now empty).after machine events)) :
    ((Ensemble.alone now empty).after machine events).world.Coherent ∅ := by
  have hnone : Task.owedBy ((Ensemble.alone now empty).after machine events).inFlight = ∅ := by
    refine Set.eq_empty_of_forall_notMem ?_
    rintro a ⟨t, ht, ha⟩
    cases t with
    | performing p => exact h p ht
    | _ => cases ha
  rw [← hnone]
  exact (underway_after now events).coherent

/-- Of a thing exactly one item is drawn, with this figure. -/
def Draws (s : Stage) (k : Kind) (id : EntityId) (f : Figure) : Prop :=
  ∃ h i, s.presenter.canvas.items.find? h = some i ∧ i.kind = k ∧ i.id = id ∧ i.figure = f ∧
    ∀ h' i', s.presenter.canvas.items.find? h' = some i' → i'.id = id → h' = h

/-- What is drawn is a function of the scene. -/
structure Displays (s : Stage) : Prop where
  /-- Nothing is on its way out. -/
  stays   : ∀ id l, s.presenter.live.find? id = some l → l.exiting = false
  /-- Nothing is drawn but what is in the scene. -/
  stored  : ∀ h i, s.presenter.canvas.items.find? h = some i → s.scene.has i.kind i.id = true
  node    : ∀ id n, s.scene.nodes.find? id = some n → s.Draws .node id (.ofNode n none)
  edge    : ∀ id e a b, s.scene.edges.find? id = some e → s.scene.nodes.find? e.source = some a →
    s.scene.nodes.find? e.target = some b → s.Draws .edge id (.ofEdge e a.position b.position)
  row     : ∀ id r, s.scene.rows.find? id = some r → s.Draws .array id (.ofRow r [])
  pointer : ∀ id p r, s.scene.pointers.find? id = some p → s.scene.rows.find? p.row = some r →
    r.hasCell p.index = true → s.Draws .pointer id (.ofPointer p r)
  label   : ∀ id l, s.scene.labels.find? id = some l → s.Draws .label id (.ofLabel l)
  callout : ∀ id a, s.scene.callouts.find? id = some a → s.Draws .callout id (.ofCallout a)

/-- Where nothing is owed, everything stays. -/
theorem Coherent.exiting_eq_false (hs : s.Coherent ∅) {id : EntityId} {v : Sight}
    (hv : s.presenter.sight? id = some v) : v.exiting = false := by
  rw [Bool.eq_false_iff]
  intro hx
  exact (hs.exits id v hv hx).elim

/-- What is seen of a thing is drawn. -/
theorem draws_of_sight (hs : s.presenter.Sound) {id : EntityId} {v : Sight}
    (hv : s.presenter.sight? id = some v) : s.Draws v.kind id v.figure := by
  obtain ⟨l, i, hl, hi, rfl⟩ := Presenter.sight?_eq_some hv
  obtain ⟨i', hi', hid, hkind⟩ := hs.drawn id l hl
  obtain rfl := Option.some.inj (hi.symm.trans hi')
  refine ⟨l.handle, i, hi, hkind, hid, rfl, fun h' i' hi' hid' => ?_⟩
  obtain ⟨l', hl', hh⟩ := hs.owned h' i' hi'
  rw [hid', hl] at hl'
  rw [← hh, Option.some.inj hl']

/-- Where nothing is owed, a thing in the scene is seen as it follows from the scene. -/
theorem Coherent.sight (hs : s.Coherent ∅) {k : Kind} {id : EntityId} {e : Entity} {f : Figure}
    (he : s.scene.get? k id = some e) (hf : s.scene.figureOf? e = some f) :
    ∃ v, s.presenter.sight? id = some v ∧ v.kind = k ∧ v.exiting = false ∧ v.figure = f := by
  obtain ⟨v, hv, rfl⟩ := (hs.listed k id).1 (Scene.has_of_get? he)
  refine ⟨v, hv, rfl, hs.exiting_eq_false hv, ?_⟩
  -- Nothing is owed that could still restore the thing, so it is drawn as it should be.
  rcases hs.drawn _ id e f v he hf hv (hs.exiting_eq_false hv) with h | ⟨a, ha, _⟩
  · exact h
  · exact ha.elim

/-- Where nothing is owed, a thing is drawn as it follows from the scene. -/
theorem Coherent.draws (hs : s.Coherent ∅) {k : Kind} {id : EntityId} {e : Entity} {f : Figure}
    (he : s.scene.get? k id = some e) (hf : s.scene.figureOf? e = some f) : s.Draws k id f := by
  obtain ⟨v, hv, rfl, _, rfl⟩ := hs.sight he hf
  exact draws_of_sight hs.sound hv

theorem Coherent.displays (hs : s.Coherent ∅) : s.Displays where
  stays id l hl := by
    obtain ⟨i, hi, _⟩ := hs.sound.drawn id l hl
    exact hs.exiting_eq_false (Presenter.sight?_of_live hl hi)
  stored h i hi := by
    obtain ⟨l, hl, rfl⟩ := hs.sound.owned h i hi
    obtain ⟨i', hi', _, hkind⟩ := hs.sound.drawn i.id l hl
    obtain rfl := Option.some.inj (hi.symm.trans hi')
    exact (hs.listed i.kind i.id).2 ⟨_, Presenter.sight?_of_live hl hi, hkind.symm⟩
  node id n hn := hs.draws (Scene.get?_node.2 hn) rfl
  edge id e a b he ha hb := by
    refine hs.draws (Scene.get?_edge.2 he) ?_
    simp [Scene.figureOf?, edgeFigure?, ha, hb]
  row id r hr := hs.draws (Scene.get?_row.2 hr) rfl
  pointer id p r hp hr hcell := by
    refine hs.draws (Scene.get?_pointer.2 hp) ?_
    simp [Scene.figureOf?, hr, hcell]
  label id l hl := hs.draws (k := .label) (e := .label l) (by simp [Scene.get?, hl]) rfl
  callout id a ha := hs.draws (k := .callout) (e := .callout a) (by simp [Scene.get?, ha]) rfl

/-- Whatever callers did on the stage and however they took turns: once nobody performs commands,
    what is drawn is a function of the scene. -/
theorem displays_after (now : Nat) (events : List (Ensemble.Event Action))
    (h : AtRest ((Ensemble.alone now empty).after machine events)) :
    ((Ensemble.alone now empty).after machine events).world.Displays :=
  (coherent_of_atRest h).displays

/-- A node is moved while a path through it is lit up. -/
theorem displays_overlapping :
    let node (id : String) : Json := .obj [("command", .str "CREATE_NODE"), ("id", .str id),
      ("position", .obj [("x", .int 0), ("y", .int 0)])]
    let edge : Json := .obj [("command", .str "CREATE_EDGE"), ("from", .str "a"), ("id", .str "e"),
      ("to", .str "b")]
    let move : Json := .obj [("command", .str "MOVE_NODE"), ("duration", .int 40), ("id", .str "a"),
      ("to", .obj [("x", .int 30), ("y", .int 50)])]
    let path : Json := .obj [("command", .str "HIGHLIGHT_PATH"), ("duration", .int 100),
      ("nodes", .arr [.str "a", .str "b"])]
    let e := (Ensemble.alone 0 empty).after machine
      [.join 0 (.perform [node "a", node "b", edge] .instant), .turn 0 0, .turn 0 0,
        .join 0 (.perform [path] .realtime), .turn 1 0, .join 20 (.perform [move] .realtime),
        .turn 2 20, .turn 1 300, .turn 2 300, .turn 1 600, .turn 1 900, .turn 1 1200,
        .turn 1 1500]
    AtRest e ∧ e.world.Displays := by
  intro node edge move path e
  have h : AtRest e := atRest_of_isEmpty (by decide +kernel)
  exact ⟨h, displays_after 0 _ h⟩

end Storyboard.Stage
