import Storyboard.Proofs.Ensemble.InTurn
import Storyboard.Proofs.Playback.Traced

/-! # The drawing at a step

    A call that goes to a step leads there, and so does one that performs the
    step before (`Task.BoundFor`). By whatever calls the player came to a step,
    the same things are painted in the same order there, with the same figures,
    except that an edge which lost an end in a step that also moves it may be
    drawn as it was at another moment (`drawing_after`). With time the edge is
    gone before its node has moved; without, the node is there first
    (`redrawn_otherwise`). -/

namespace Storyboard

open Ensemble

/-! ### Where calls lead -/

/-- The step leads to a place. -/
def Advance.BoundFor (place epoch : Nat) (p : Player) : Advance → Prop
  | .queued _ => p.epoch = epoch ∧ p.cursor + 1 = place ∧ place ≤ p.total
  | .performing _ place' _ _ => place' + 1 = place
  | .trailing .. => p.cursor = place
  | .over report => report.isSome ∧ p.cursor = place

/-- The rebuilding leads to a place. -/
def Rebuild.BoundFor (place : Nat) (p : Player) : Rebuild → Prop
  | .performing goal _ _ _ => goal = place
  | .over _ => p.cursor = place

namespace Player

/-- The goal is a place of a timeline. -/
def Goal.BoundFor (timeline : Timeline) (place : Nat) (p : Player) : Goal → Prop
  | .load t => t = timeline ∧ place = 0
  | .seek place' => p.timeline = timeline ∧ place = min place' p.total

/-- The call leads to a place of a timeline. -/
def Task.BoundFor (timeline : Timeline) (place : Nat) (p : Player) : Task → Prop
  | .rewinding _ goal => goal.BoundFor timeline place p
  | .rebuilding _ r => p.timeline = timeline ∧ r.BoundFor place p
  | .stepping epoch a => p.timeline = timeline ∧ a.BoundFor place epoch p
  | .over _ => p.timeline = timeline ∧ p.cursor = place
  | _ => False

variable {p q : Player} {t u : Task} {a b : Advance} {deeds : List Deed} {timeline : Timeline}
  {place epoch now n : Nat} {call : Call}

theorem boundFor_performLists (p : Player) (now place : Nat) (report : Report)
    (lists : List (List Json)) :
    let x := p.performLists now place report lists
    x.1.timeline = p.timeline ∧ x.2.BoundFor place x.1 := by
  induction lists generalizing p report with
  | nil => exact ⟨rfl, rfl⟩
  | cons commands rest ih =>
    unfold performLists
    dsimp only
    split
    · exact ih { p with stage := (Performance.start now .instant p.stage commands).1 } _
    · exact ⟨rfl, rfl⟩

theorem boundFor_rebuild {goal : Goal} (h : goal.BoundFor timeline place p) (now : Nat) :
    (goal.rebuild p now).1.timeline = timeline ∧
      (goal.rebuild p now).2.BoundFor place (goal.rebuild p now).1 := by
  cases goal with
  | load t =>
    obtain ⟨rfl, rfl⟩ := h
    have hbound := boundFor_performLists
      { p with timeline := t, stage := p.stage.reset now } now (min 0 t.length) .empty
      (t.before (min 0 t.length))
    rwa [Nat.zero_min] at hbound
  | seek place' =>
    obtain ⟨rfl, rfl⟩ := h
    exact boundFor_performLists { p with stage := p.stage.reset now } now _ .empty _

theorem boundFor_resumeRebuild {r : Rebuild} (h : r.BoundFor place p) (now : Nat) :
    (p.resumeRebuild now r).1.timeline = p.timeline ∧
      (p.resumeRebuild now r).2.BoundFor place (p.resumeRebuild now r).1 := by
  cases r with
  | «over» report => exact ⟨rfl, h⟩
  | performing goal perf rest report =>
    obtain rfl : goal = place := h
    unfold resumeRebuild
    dsimp only
    split
    · exact boundFor_performLists { p with stage := (perf.resume now p.stage).1 } now goal _ rest
    · exact ⟨rfl, rfl⟩

/-- A step leads to where it did. -/
theorem Strides.boundFor (hmove : Strides epoch now p a deeds q b)
    (h : a.BoundFor place epoch p) : q.timeline = p.timeline ∧ b.BoundFor place epoch q := by
  cases hmove with
  | begin hleads hcurrent hstep => exact ⟨rfl, h.2.1⟩
  | pass hleads hnone =>
    obtain ⟨hepoch, rfl, hplace⟩ := h
    have hmissing := List.getElem?_eq_none_iff.1 (hnone hepoch)
    exact absurd hplace (Nat.not_le.2 (Nat.lt_succ_of_le hmissing))
  | perform hready => exact ⟨rfl, h⟩
  | proceed hover => exact ⟨rfl, h⟩
  | @follow ticket step report tail htail hready =>
    obtain ⟨narrator, coins, hsame⟩ := narrated_follow p epoch now step tail
    rw [hsame]
    exact ⟨rfl, h⟩
  | finish => exact ⟨rfl, rfl, h⟩

/-- So does a call. -/
theorem Move.boundFor (hmove : Move now p t deeds q u) (h : t.BoundFor timeline place p) :
    u.BoundFor timeline place q := by
  cases hmove with
  | rewind hleads => exact boundFor_rebuild h now
  | @rebuild ticket goal perf rest report q r hready hr =>
    obtain ⟨htimeline, hbound⟩ := boundFor_resumeRebuild h.2 now
    rw [hr] at htimeline hbound
    exact ⟨htimeline.trans h.1, hbound⟩
  | rebuilt => exact h
  | step hstrides =>
    obtain ⟨htimeline, hbound⟩ := hstrides.boundFor h.2
    exact ⟨htimeline.trans h.1, hbound⟩
  | stepped => exact ⟨h.1, h.2.2⟩
  | _ => exact h.elim

theorem Task.BoundFor.moves (h : t.BoundFor timeline place p) (hmoves : Moves now n p t deeds q u) :
    u.BoundFor timeline place q := by
  induction hmoves with
  | refl => exact h
  | head hfirst _ ih => exact ih (hfirst.boundFor h)

/-! ### Calls that have the player to themselves -/

variable {e f : Ensemble Player Call Task}
  {equipment equipment' : Narration.Equipment} {tosses tosses' coins coins' : List Bool}

theorem Played.exists_inTurn (h : Played equipment tosses coins e) (calls : List Call) :
    ∃ f, InTurn machine e calls f :=
  have ⟨f, hf, _⟩ := (progresses equipment tosses coins).exists_inTurn h calls
  ⟨f, hf⟩

theorem Played.inTurn (h : Played equipment tosses coins e) (hf : InTurn machine e calls f) :
    Played equipment tosses coins f := by
  induction hf with
  | nil => exact h
  | snoc _ _ _ ih => exact (ih.step _).after _

/-- A call that has the player to itself comes to where it leads. -/
theorem arrives_of_turns {time : Nat} {turns : List (Event Call)} (he : e.Ended)
    (hbound : (e.world.enter call).2.BoundFor timeline place (e.world.enter call).1)
    (hturns : AllTurns turns)
    (hended : ((e.step machine (.join time call)).after machine turns).Ended) :
    let f := (e.step machine (.join time call)).after machine turns
    f.world.timeline = timeline ∧ f.world.cursor = place := by
  -- Where a call leads is kept by its first turn and by every turn of it that follows.
  have hstart : ∀ now, (machine.start now e.world call).2.Rests ∧
      (machine.start now e.world call).2.BoundFor timeline place
        (machine.start now e.world call).1 := by
    intro now
    obtain ⟨hrests, _, _, _, hmoves⟩ := comes_start e.world now call
    exact ⟨hrests, hbound.moves hmoves⟩
  have hresume : ∀ now q t, machine.isDone t = false →
      (t.Rests ∧ t.BoundFor timeline place q) → (machine.resume now q t).2.Rests ∧
        (machine.resume now q t).2.BoundFor timeline place (machine.resume now q t).1 := by
    rintro now q t _ ⟨hrests, hbound⟩
    obtain ⟨hrests', _, _, _, hmoves⟩ := comes_resume q now hrests
    exact ⟨hrests', hbound.moves hmoves⟩
  obtain ⟨t, hdone, _, hbound'⟩ := exists_done_of_turns (m := machine)
    (Q := fun p t => t.Rests ∧ t.BoundFor timeline place p) he hstart hresume hturns hended
  cases t with
  | «over» report => exact hbound'
  | _ => cases hdone

/-- Whatever calls were made in turn before it. -/
theorem arrives_of_inTurn (he : e.Ended) (calls : List Call)
    (h : InTurn machine e (calls ++ [call]) f)
    (hbound : ∀ g, InTurn machine e calls g →
      (g.world.enter call).2.BoundFor timeline place (g.world.enter call).1) :
    f.world.timeline = timeline ∧ f.world.cursor = place := by
  obtain ⟨g, time, turns, hg, hturns, hended, rfl⟩ := h.last
  exact arrives_of_turns (hg.ended he) (hbound g hg) hturns hended

/-- Loading a timeline and performing so many of its steps. -/
theorem arrives_of_steps (he : e.Ended) (hplace : place ≤ timeline.length)
    (h : InTurn machine e (.load timeline :: List.replicate place .stepForward) f) :
    f.world.timeline = timeline ∧ f.world.cursor = place := by
  induction place generalizing f with
  | zero => exact arrives_of_inTurn he [] h fun g _ => ⟨rfl, rfl⟩
  | succ place ih =>
    rw [List.replicate_succ', ← List.cons_append] at h
    refine arrives_of_inTurn he _ h fun g hg => ?_
    obtain ⟨rfl, rfl⟩ := ih (Nat.le_of_succ_le hplace) hg
    exact ⟨rfl, rfl, rfl, hplace⟩

/-- Going to a step, or back to it from the next. -/
theorem arrives_of_back (he : e.Ended) (hplace : place ≤ e.world.total)
    (hcall : call = .seek place ∨ call = .stepBackward ∧ e.world.cursor = place + 1)
    (h : InTurn machine e [call] f) :
    f.world.timeline = e.world.timeline ∧ f.world.cursor = place := by
  refine arrives_of_inTurn he [] h fun g hg => ?_
  rw [hg.eq_of_nil]
  have hgoal : place = min place e.world.total := (Nat.min_eq_left hplace).symm
  rcases hcall with rfl | ⟨rfl, hcursor⟩
  · exact ⟨rfl, hgoal⟩
  · have henter : e.world.enter .stepBackward =
        (e.world.halt.enqueue.1, .rewinding e.world.halt.enqueue.2 (.seek place)) := by
      simp only [enter, hcursor]
    rw [henter]
    exact ⟨rfl, hgoal⟩

/-! ### The drawing -/

/-- Nobody is at work when all calls have returned. -/
theorem idle_of_ended (he : e.Ended) : ∀ t ∈ e.inFlight, ¬t.Works := by
  intro t ht
  obtain ⟨v, hv, htask⟩ := List.mem_filterMap.1 ht
  have hdone := he v hv
  cases v with
  | done start stop t' w => cases htask
  | _ => cases hdone

/-- However the players came to the same step of the same timeline. -/
theorem like_of_idle {e' : Ensemble Player Call Task} (he : Played equipment tosses coins e)
    (he' : Played equipment' tosses' coins' e') (hidle : ∀ t ∈ e.inFlight, ¬t.Works)
    (hidle' : ∀ t ∈ e'.inFlight, ¬t.Works) (htimeline : e'.world.timeline = e.world.timeline)
    (hcursor : e'.world.cursor = e.world.cursor) :
    List.Forall₂ (fun i j => i.Like (Stage.Frayed e.world.stage.scene
        (e.world.timeline.before e.world.cursor) i.id) j)
      e.world.stage.presenter.canvas.stacked e'.world.stage.presenter.canvas.stacked := by
  have hstaged := he'.staged hidle'
  rw [htimeline, hcursor] at hstaged
  exact (he.staged hidle).forall₂_stacked hstaged

/-- A player goes to a step, or back to it from the next, when all calls to it have returned; and
    another one, or the same, loads the timeline and performs the steps before that one, each when
    the one before has returned. Both arrive there, and then the same things are painted in the
    same order, each with the same figure, but for edges that have lost an end and of whose ends
    some list of commands on the way moved one and deleted one. -/
theorem drawing_after {e' : Ensemble Player Call Task} (he : Played equipment tosses coins e)
    (he' : Played equipment' tosses' coins' e') (hended : e.Ended) (hended' : e'.Ended)
    (hplace : place ≤ e.world.total)
    (hcall : call = .seek place ∨ call = .stepBackward ∧ e.world.cursor = place + 1) :
    let timeline := e.world.timeline
    let forward : List Call := .load timeline :: List.replicate place .stepForward
    (∃ f, InTurn machine e [call] f) ∧ (∃ f', InTurn machine e' forward f') ∧
    ∀ f f', InTurn machine e [call] f → InTurn machine e' forward f' →
      (f.world.timeline = timeline ∧ f.world.cursor = place) ∧
      (f'.world.timeline = timeline ∧ f'.world.cursor = place) ∧
      List.Forall₂
        (fun i j => i.Like (Stage.Frayed f.world.stage.scene (timeline.before place) i.id) j)
        f.world.stage.presenter.canvas.stacked f'.world.stage.presenter.canvas.stacked := by
  intro timeline forward
  refine ⟨he.exists_inTurn _, he'.exists_inTurn _, fun f f' hf hf' => ?_⟩
  obtain ⟨htimeline, hcursor⟩ := arrives_of_back hended hplace hcall hf
  obtain ⟨htimeline', hcursor'⟩ := arrives_of_steps hended' hplace hf'
  have hlike := like_of_idle (he.inTurn hf) (he'.inTurn hf') (idle_of_ended (hf.ended hended))
    (idle_of_ended (hf'.ended hended')) (htimeline'.trans htimeline.symm)
    (hcursor'.trans hcursor.symm)
  rw [htimeline, hcursor] at hlike
  exact ⟨⟨htimeline, hcursor⟩, ⟨htimeline', hcursor'⟩, hlike⟩

/-- A node moves in the only step. Going there from before it, and performing it. -/
theorem drawing_after_seek :
    let node : Json := .obj [("command", .str "CREATE_NODE"), ("id", .str "a"),
      ("position", .obj [("x", .int 0), ("y", .int 0)])]
    let move : Json := .obj [("command", .str "MOVE_NODE"), ("id", .str "a"),
      ("to", .obj [("x", .int 0), ("y", .int 200)])]
    let alone := Ensemble.alone 0 (fresh .usual [] [])
    let e := alone.after machine [.join 0 (.load ⟨[node], [⟨[move], none, none⟩]⟩), .turn 0 0,
      .turn 0 0]
    Played .usual [] [] e ∧ Played .usual [] [] alone ∧ e.Ended ∧ alone.Ended ∧
      1 ≤ e.world.total ∧
      ∃ f f', InTurn machine e [.seek 1] f ∧
        InTurn machine alone [.load e.world.timeline, .stepForward] f' ∧
        f.world.cursor = 1 ∧ f'.world.cursor = 1 ∧
        List.Forall₂ (fun i j =>
            i.Like (Stage.Frayed f.world.stage.scene (e.world.timeline.before 1) i.id) j)
          f.world.stage.presenter.canvas.stacked f'.world.stage.presenter.canvas.stacked := by
  intro node move alone e
  have hplayed : Played .usual [] [] e := ⟨0, _, rfl⟩
  have halone : Played .usual [] [] alone := ⟨0, [], rfl⟩
  have hended : e.Ended := List.all_eq_true.1 (by decide +kernel)
  have hnobody : alone.Ended := List.forall_mem_nil _
  have hplace : 1 ≤ e.world.total := by decide +kernel
  obtain ⟨⟨f, hf⟩, ⟨f', hf'⟩, hafter⟩ :=
    drawing_after hplayed halone hended hnobody hplace (.inl rfl)
  obtain ⟨⟨_, hcursor⟩, ⟨_, hcursor'⟩, hlike⟩ := hafter f f' hf hf'
  exact ⟨hplayed, halone, hended, hnobody, hplace, f, f', hf, hf', hcursor, hcursor', hlike⟩

/-- A step moves one end of an edge and deletes the other. With time the edge loses the second end
    before it has followed the first; going to the same place afterwards it follows at once. -/
theorem redrawn_otherwise :
    let node (id : String) (x : Int) : Json := .obj [("command", .str "CREATE_NODE"),
      ("id", .str id), ("position", .obj [("x", .int x), ("y", .int 0)])]
    let edge : Json := .obj [("command", .str "CREATE_EDGE"), ("id", .str "e"),
      ("from", .str "a"), ("to", .str "b"), ("directed", .bool false)]
    let move : Json := .obj [("command", .str "MOVE_NODE"), ("id", .str "a"),
      ("to", .obj [("x", .int 0), ("y", .int 200)])]
    let delete : Json := .obj [("command", .str "DELETE_NODE"), ("id", .str "b")]
    let timeline : Timeline :=
      ⟨[node "a" 0, node "b" 100, edge], [⟨[move, delete], none, none⟩]⟩
    let alone := Ensemble.alone 0 (fresh .usual [] [])
    let loaded := (alone.step machine (.join 0 (.load timeline))).after machine
      [.turn 0 0, .turn 0 0, .turn 0 0]
    let forward := (loaded.step machine (.join 0 .stepForward)).after machine
      [.turn 1 0, .turn 1 300, .turn 1 1000, .turn 1 3000]
    let back := (forward.step machine (.join 3000 (.seek 1))).after machine
      [.turn 2 3000, .turn 2 3000, .turn 2 3000, .turn 2 3000]
    InTurn machine alone [.load timeline, .stepForward] forward ∧
      InTurn machine forward [.seek 1] back ∧ forward.world.cursor = 1 ∧ back.world.cursor = 1 ∧
      forward.world.stage.presenter.canvas.stacked.map (·.figure) ≠
        back.world.stage.presenter.canvas.stacked.map (·.figure) := by
  intro node edge move delete timeline alone loaded forward back
  -- Each of the calls is alone: all that were made before it are done.
  have hloaded : InTurn machine alone [.load timeline] loaded :=
    .snoc .nil (by simp [AllTurns]) (List.all_eq_true.1 (by decide +kernel))
  have hforward : InTurn machine alone [.load timeline, .stepForward] forward :=
    .snoc hloaded (by simp [AllTurns]) (List.all_eq_true.1 (by decide +kernel))
  have hback : InTurn machine forward [.seek 1] back :=
    .snoc .nil (by simp [AllTurns]) (List.all_eq_true.1 (by decide +kernel))
  exact ⟨hforward, hback, by decide +kernel, by decide +kernel, by decide +kernel⟩

end Player

end Storyboard
