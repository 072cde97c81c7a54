import Storyboard.Proofs.Playback.Return
import Storyboard.Proofs.Shift.Playback

/-! # Players without a past

    What a player did before does not matter any more once the stage was
    rebuilt for the first step of a timeline: whatever is called from then on,
    the player can not be told from a fresh one on which that timeline was
    loaded, except that it is later, and that what was drawn and spoken before
    is on record (`history_independent`). The past of a player at rest is a
    shift, and as soon as the stage is rebuilt, the player is a fresh one with
    that shift. -/

namespace Storyboard.Player

open Ensemble

variable {equipment : Narration.Equipment} {tosses coins : List Bool} {p q : Player}
  {e e' : Ensemble Player Call Task} {timeline : Timeline} {call : Call} {σ : Shift} {now : Nat}

/-! ### What can be observed -/

/-- What can be observed of a player, apart from its past, can be observed of another one. -/
structure Resembles (σ : Shift) (p q : Player) : Prop where
  scene     : q.stage.scene = p.stage.scene
  /-- The same items in the same order, each with the same figure and the same transitions, which
      began so much later. -/
  drawn     : q.stage.presenter.canvas.stacked =
    p.stage.presenter.canvas.stacked.map (Item.shift σ)
  /-- The canvas was told the same. -/
  told      : q.stage.presenter.journal =
    p.stage.presenter.journal.map (JournalEntry.shift σ) ++ σ.journal
  /-- The same was read aloud. -/
  spoken    : q.narrator.transcript = σ.transcript ++ p.narrator.transcript
  played    : q.narrator.clips = p.narrator.clips + σ.clips
  /-- The status, the cursor and the speed are the same. -/
  snapshot  : q.snapshot = p.snapshot
  published : q.published = p.published

theorem resembles_shift (σ : Shift) (p : Player) : Resembles σ p (p.shift σ) :=
  ⟨rfl, Canvas.stacked_shift _, rfl, rfl, rfl, rfl, rfl⟩

/-- A call stands as another one does, so much later. -/
inductive Echoes (σ : Shift) : Voice Player Call Task → Voice Player Call Task → Prop
  | pending (time : Nat) (call : Call) :
      Echoes σ (.pending time call) (.pending (time + σ.time) call)
  | running (start : Nat) (t : Task) :
      Echoes σ (.running start t) (.running (start + σ.time) (t.shift σ))
  /-- A call that has returned did so with the same report, and found the player alike. -/
  | done {start stop : Nat} {t u : Task} {p q : Player}
      (hreport : ∀ report, u = .over report ↔ t = .over report) (hworld : Resembles σ p q) :
      Echoes σ (.done start stop t p) (.done (start + σ.time) (stop + σ.time) u q)

/-- The same can be observed of two ensembles, of one of them so much later. -/
structure Repeats (σ : Shift) (e e' : Ensemble Player Call Task) : Prop where
  now    : e'.now = e.now + σ.time
  world  : Resembles σ e.world e'.world
  voices : List.Forall₂ (Echoes σ) e.voices e'.voices

theorem repeats_carry (σ : Shift) (e : Ensemble Player Call Task) :
    Repeats σ e (e.carry σ.time (shift σ) (Task.shift σ)) := by
  refine ⟨rfl, resembles_shift σ e.world, List.forall₂_map_right_iff.2 ?_⟩
  refine List.forall₂_same.2 fun v _ => ?_
  cases v with
  | pending time call => exact .pending time call
  | running start t => exact .running start t
  | done start stop t p =>
    refine .done (fun report => ?_) (resembles_shift σ p)
    cases t <;> simp [Task.shift]

/-! ### The past of a player -/

/-- What was counted and put on record so far. -/
def past (p : Player) (now : Nat) : Shift where
  time := now
  handle := p.stage.presenter.canvas.last
  incarnation := p.stage.presenter.incarnations
  ticket := p.gate.next
  epoch := p.epoch
  turn := p.narrator.line.next
  generation := p.narrator.generation
  journal := p.stage.presenter.journal
  transcript := p.narrator.transcript
  clips := p.narrator.clips

/-- A fresh player with the same equipment and the same luck that plays at the same speed. -/
def renewed (p : Player) : Player :=
  (fresh p.narrator.equipment p.narrator.coins p.coins).setSpeed p.speed

/-- Only the cursor is still somewhere else, and something else was made known. -/
def stale (cursor : Nat) (published : Snapshot) (p : Player) : Player :=
  { p with cursor, published }

/-- Nobody stands at the gate or speaks. -/
def Unoccupied (p : Player) : Prop := p.gate.waiting = [] ∧ p.narrator.line.waiting = []

theorem unoccupied_of_rest (h : Played equipment tosses coins e) (hrest : e.inFlight = []) :
    e.world.Unoccupied := by
  obtain ⟨log, hreeled⟩ := h.reeled
  have hordered := hreeled.ordered
  have hvoiced := h.voiced
  rw [hrest] at hordered hvoiced
  exact ⟨hordered.line.waiting_eq_nil, Line.Holds.waiting_eq_nil hvoiced⟩

/-- A stage that is cleared is an empty one that is cleared, with its past. -/
theorem reset_eq_shift (p : Player) (now time : Nat) :
    p.stage.reset (time + now) = (Stage.empty.reset time).shift (p.past now) := by
  simp [Stage.reset, Stage.shift, Stage.empty, Presenter.reset, Presenter.shift, Presenter.fresh,
    Canvas.clear, Canvas.shift, Canvas.blank, JournalEntry.shift, past]

/-- A narrator with nobody in line is a fresh one, with its past. -/
theorem narrator_eq_shift (h : p.narrator.line.waiting = []) (now : Nat) :
    p.narrator =
      (Narrator.ofEquipment p.narrator.equipment p.narrator.coins).shift (p.past now) := by
  have hline := Line.shift_of_empty h
  simp only [Narrator.shift, Narrator.ofEquipment, past, Nat.zero_add, List.append_nil, ← hline]

/-- A player that halts, takes a ticket and has its stage cleared for a timeline. -/
def cleared (p : Player) (timeline : Timeline) (now : Nat) : Player :=
  { p.halt.enqueue.1 with timeline, stage := p.stage.reset now }

/-- A player whose stage is cleared is a fresh one whose stage is cleared, with its past. -/
theorem cleared_eq (h : p.Unoccupied) (timeline : Timeline) (now time : Nat) :
    p.cleared timeline (time + now) = stale p.cursor p.published
      (shift (p.past now) (p.renewed.cleared timeline time)) := by
  have hstage := p.reset_eq_shift now time
  have hnarrator : p.narrator.stop =
      (Narrator.ofEquipment p.narrator.equipment p.narrator.coins).stop.shift (p.past now) := by
    rw [← Narrator.stop_shift, ← narrator_eq_shift h.2 now]
  have hgate : p.gate.join.1 = Line.empty.join.1.shift p.gate.next :=
    (congrArg (·.join.1) (Line.shift_of_empty h.1)).trans
      (congrArg Prod.fst (Line.join_shift Line.empty))
  simp only [cleared, enqueue, halt, silence, renew, stale, shift, renewed, setSpeed, publish,
    fresh, ofNarrator, hstage, hnarrator, hgate]
  simp [past, Nat.add_comm]

/-! ### Going back to the beginning -/

/-- A call that goes back to the beginning of a timeline. -/
inductive Rewinds (timeline : Timeline) (p : Player) : Call → Prop
  | load : Rewinds timeline p (.load timeline)
  | restart (h : p.timeline = timeline) : Rewinds timeline p .restart

/-- Where nobody stands at the gate, the stage is cleared and rebuilt at once. -/
theorem start_of_rewinds (h : p.gate.waiting = []) (hcall : Rewinds timeline p call) (now : Nat) :
    p.start now call =
      ((p.cleared timeline now).performLists now 0 .empty (timeline.before 0)).1.settleRebuild
        p.gate.next
        ((p.cleared timeline now).performLists now 0 .empty (timeline.before 0)).2 := by
  have hleads : p.halt.enqueue.1.gate.leads p.gate.next = true := Line.leads_join h
  have hgoal : ∀ goal : Goal, p.goTo now goal =
      (goal.rebuild p.halt.enqueue.1 now).1.settleRebuild p.gate.next
        (goal.rebuild p.halt.enqueue.1 now).2 := by
    intro goal
    refine (if_pos hleads).trans ?_
    cases goal <;> rfl
  cases hcall with
  | load =>
    refine (hgoal (.load timeline)).trans ?_
    rw [Goal.rebuild, rebuild, Nat.zero_min]
    rfl
  | restart htimeline =>
    subst htimeline
    refine (hgoal (.seek 0)).trans ?_
    rw [Goal.rebuild, rebuild, Nat.zero_min]
    rfl

/-- A rebuilding that came this far on a player that is behind: it puts the cursor right when it is
    over. -/
def lag (cursor : Nat) (published : Snapshot) : Player × Rebuild → Player × Rebuild
  | (p, .performing goal perf rest report) =>
    (stale cursor published p, .performing goal perf rest report)
  | (p, .over report) => ({ p with published }, .over report)

theorem performLists_stale (p : Player) (cursor : Nat) (published : Snapshot) (now goal : Nat)
    (report : Report) (lists : List (List Json)) :
    (stale cursor published p).performLists now goal report lists =
      lag cursor published (p.performLists now goal report lists) := by
  induction lists generalizing p report with
  | nil => rfl
  | cons commands rest ih =>
    simp only [performLists, show (stale cursor published p).stage = p.stage from rfl]
    split
    · exact ih { p with stage := (Performance.start now .instant p.stage commands).1 } _
    · rfl

theorem resumeRebuild_stale (p : Player) (cursor : Nat) (published : Snapshot) (now goal : Nat)
    (perf : Performance) (rest : List (List Json)) (report : Report) :
    (stale cursor published p).resumeRebuild now (.performing goal perf rest report) =
      lag cursor published (p.resumeRebuild now (.performing goal perf rest report)) := by
  simp only [resumeRebuild, show (stale cursor published p).stage = p.stage from rfl]
  split
  · exact performLists_stale { p with stage := (perf.resume now p.stage).1 } cursor published ..
  · rfl

/-- One ensemble has caught up with another, or one call rebuilds the stage in both. -/
inductive Catches (cursor : Nat) (published : Snapshot) :
    Ensemble Player Call Task → Ensemble Player Call Task → Prop
  | behind {now start ticket goal : Nat} {p : Player} {perf : Performance}
      {rest : List (List Json)} {report : Report} :
      Catches cursor published
        ⟨now, p, [.running start (.rebuilding ticket (.performing goal perf rest report))]⟩
        ⟨now, stale cursor published p,
          [.running start (.rebuilding ticket (.performing goal perf rest report))]⟩
  | even {e : Ensemble Player Call Task} : Catches cursor published e e

theorem catches_settleRebuild (cursor : Nat) (published : Snapshot) (now start ticket : Nat)
    (x : Player × Rebuild) :
    Catches cursor published
      ⟨now, (x.1.settleRebuild ticket x.2).1,
        [(Voice.settle machine now start (x.1.settleRebuild ticket x.2)).2]⟩
      ⟨now, ((lag cursor published x).1.settleRebuild ticket (lag cursor published x).2).1,
        [(Voice.settle machine now start
          ((lag cursor published x).1.settleRebuild ticket (lag cursor published x).2)).2]⟩ := by
  obtain ⟨p, r⟩ := x
  cases r with
  | performing goal perf rest report => exact .behind
  | «over» report => exact .even

/-- A call that rebuilds the stage catches up sooner or later. -/
theorem Catches.step {cursor : Nat} {published : Snapshot} (h : Catches cursor published e e')
    (time : Nat) :
    Catches cursor published (e.step machine (.turn 0 time)) (e'.step machine (.turn 0 time)) := by
  cases h with
  | even => exact .even
  | @behind now start ticket goal p perf rest report =>
    have hstep : ∀ q : Player, step machine ⟨now, q, [.running start
        (.rebuilding ticket (.performing goal perf rest report))]⟩ (.turn 0 time) =
        let x := q.resumeRebuild (max now time) (.performing goal perf rest report)
        ⟨max now time, (x.1.settleRebuild ticket x.2).1,
          [(Voice.settle machine (max now time) start (x.1.settleRebuild ticket x.2)).2]⟩ :=
      fun _ => rfl
    rw [hstep, hstep, resumeRebuild_stale]
    exact catches_settleRebuild cursor published _ start ticket _

/-! ### Without a past -/

/-- Someone calls, and takes turns at these times. -/
def calling (call : Call) (times : List Nat) : List (Event Call) :=
  .join 0 call :: times.map (.turn 0)

/-- The first turn of a call that nobody else shares the player with. -/
theorem step_calling (p : Player) (call : Call) (now time : Nat) :
    ((alone now p).step machine (.join now call)).step machine (.turn 0 (time + now)) =
      ⟨time + now, (p.start (time + now) call).1,
        [(Voice.settle machine (time + now) (time + now) (p.start (time + now) call)).2]⟩ := by
  have hnow : max now (time + now) = time + now := Nat.max_eq_right (Nat.le_add_left ..)
  have hdue : now ≤ time + now := Nat.le_add_left ..
  simp only [step, alone, List.nil_append, List.getElem?_cons_zero, hnow, Voice.turn, if_pos hdue]
  rfl

/-- A call that goes back to the beginning makes the player catch up with a fresh one. -/
theorem catches_calling (h : p.Unoccupied) (hcall : Rewinds timeline p call) (now time : Nat)
    (times : List Nat) :
    Catches p.cursor p.published
      ((alone now (p.renewed.shift (p.past now))).after machine
        ((calling (.load timeline) (time :: times)).map (Event.later now)))
      ((alone now p).after machine ((calling call (time :: times)).map (Event.later now))) := by
  -- First the two players begin to rebuild the stage, each its own.
  have hfirst : Catches p.cursor p.published
      (((alone now (p.renewed.shift (p.past now))).step machine
        (.join now (.load timeline))).step machine (.turn 0 (time + now)))
      (((alone now p).step machine (.join now call)).step machine (.turn 0 (time + now))) := by
    have hfresh : (p.renewed.shift (p.past now)).start (time + now) (.load timeline) =
        shiftBoth (Task.shift (p.past now)) (p.past now)
          (p.renewed.start time (.load timeline)) := start_shift p.renewed (.load timeline)
    have hlists : ((p.renewed.cleared timeline time).shift (p.past now)).performLists
        (time + (p.past now).time) 0 .empty (timeline.before 0) =
          shiftBoth (Rebuild.shift (p.past now)) (p.past now)
            ((p.renewed.cleared timeline time).performLists time 0 .empty (timeline.before 0)) :=
      performLists_shift _ 0 .empty _
    have hticket : p.renewed.gate.next + (p.past now).ticket = p.gate.next := Nat.zero_add _
    rw [start_of_rewinds (p := p.renewed) rfl .load, ← settleRebuild_shift, hticket] at hfresh
    rw [step_calling, step_calling, start_of_rewinds h.1 hcall, cleared_eq h, performLists_stale,
      hfresh, show time + now = time + (p.past now).time from rfl, hlists]
    exact catches_settleRebuild p.cursor p.published _ _ _
      (shiftBoth (Rebuild.shift (p.past now)) (p.past now) _)
  -- From then on they go on alike.
  have hrest : ∀ {e e' : Ensemble Player Call Task}, Catches p.cursor p.published e e' →
      Catches p.cursor p.published
        (e.after machine ((times.map (.turn 0)).map (Event.later now)))
        (e'.after machine ((times.map (.turn 0)).map (Event.later now))) := by
    induction times with
    | nil => exact id
    | cons t times ih => exact fun h => ih (h.step (t + now))
  have hzero : ∀ call : Call, Event.later now (.join 0 call) = .join now call :=
    fun call => congrArg (Event.join · call) (Nat.zero_add now)
  simp only [calling, List.map_cons, hzero]
  exact hrest hfirst

/-- Once the call has returned, everything is as with a fresh player, so much later. -/
theorem calling_eq_carry (h : p.Unoccupied) (hcall : Rewinds timeline p call) (now : Nat)
    {times : List Nat}
    (hended : ((alone 0 p.renewed).after machine (calling (.load timeline) times)).Ended) :
    (alone now p).after machine ((calling call times).map (Event.later now)) =
      ((alone 0 p.renewed).after machine (calling (.load timeline) times)).carry now
        (shift (p.past now)) (Task.shift (p.past now)) := by
  have hcarries : machine.Carries machine now (shift (p.past now)) (Task.shift (p.past now)) :=
    carries_shift (p.past now)
  have hfresh := after_carry hcarries (alone 0 p.renewed) (calling (.load timeline) times)
  rw [show (alone 0 p.renewed : Ensemble Player Call Task).carry now (shift (p.past now))
    (Task.shift (p.past now)) = alone now (p.renewed.shift (p.past now)) from
      congrArg (alone · _) (Nat.zero_add now)] at hfresh
  cases times with
  | nil =>
    -- Without a turn the call would not even have begun.
    have hpending := hended _ List.mem_cons_self
    cases hpending
  | cons time times =>
    have hcatches := catches_calling h hcall now time times
    rw [hfresh] at hcatches
    generalize hbehind : (alone now p).after machine _ = e at hcatches ⊢
    generalize hfirst : (alone 0 p.renewed).after machine _ = e₀ at hcatches hended ⊢
    generalize hcarried : e₀.carry now (shift (p.past now)) (Task.shift (p.past now)) = e₁
      at hcatches ⊢
    cases hcatches with
    | even => rfl
    | behind =>
      -- A call that has returned does not rebuild the stage.
      have hvoices := congrArg Ensemble.voices hcarried
      obtain ⟨v, hv, hrunning⟩ := List.map_eq_singleton_iff.1 hvoices
      have hdone := hended v (hv ▸ List.mem_cons_self)
      cases v with
      | done start stop t q => cases hrunning
      | _ => cases hdone

/-- Let any calls have been made to a player, and let none of them be under way. Once a timeline is
    loaded, or the one there is was restarted, everything that can be observed of further calls, in
    whatever order they take turns or in rounds, is as with a fresh player on which that timeline
    was loaded at the same speed. -/
theorem history_independent (hplayed : Played equipment tosses coins e) (hrest : e.inFlight = [])
    (hcall : Rewinds timeline e.world call) (now : Nat) {times : List Nat}
    (hreturned : ((alone 0 e.world.renewed).after machine (calling (.load timeline) times)).Ended)
    (more : List (Event Call)) (rounds : Nat) :
    Repeats (e.world.past now)
      (((alone 0 e.world.renewed).after machine (calling (.load timeline) times ++ more)).run
        machine rounds)
      (((alone now e.world).after machine
        ((calling call times ++ more).map (Event.later now))).run machine rounds) := by
  have hloaded := calling_eq_carry (unoccupied_of_rest hplayed hrest) hcall now hreturned
  have hcarries : machine.Carries machine now (shift (e.world.past now))
      (Task.shift (e.world.past now)) := carries_shift (e.world.past now)
  rw [List.map_append, after_append, after_append, hloaded, after_carry hcarries,
    run_carry hcarries]
  exact repeats_carry (e.world.past now) _

/-- A step is cut short by a pause, and five seconds later its timeline is loaded again. -/
theorem history_independent_after_pause :
    let node : Json := .obj [("command", .str "CREATE_NODE"), ("id", .str "a"),
      ("position", .obj [("x", .int 0), ("y", .int 0)])]
    let timeline : Timeline := ⟨[], [⟨[node], none, none⟩]⟩
    let e := (alone 0 (fresh .usual [] [])).after machine
      [.join 0 (.load timeline), .turn 0 0, .join 0 .play, .turn 1 0, .turn 1 300, .join 500 .pause,
        .turn 2 500, .turn 1 500]
    let more : List (Event Call) := [.join 0 .play]
    Played .usual [] [] e ∧ e.inFlight = [] ∧ Rewinds timeline e.world (.load timeline) ∧
      ((alone 0 e.world.renewed).after machine (calling (.load timeline) [0])).Ended ∧
      Repeats (e.world.past 5000)
        (((alone 0 e.world.renewed).after machine (calling (.load timeline) [0] ++ more)).run
          machine 9)
        (((alone 5000 e.world).after machine
          ((calling (.load timeline) [0] ++ more).map (Event.later 5000))).run machine 9) := by
  intro node timeline e more
  have hplayed : Played .usual [] [] e := ⟨0, _, rfl⟩
  have hrest : e.inFlight = [] := List.isEmpty_iff.1 (by decide +kernel)
  have hreturned :
      ((alone 0 e.world.renewed).after machine (calling (.load timeline) [0])).Ended :=
    List.all_eq_true.1 (by decide +kernel)
  exact ⟨hplayed, hrest, .load, hreturned,
    history_independent hplayed hrest .load 5000 hreturned more 9⟩

end Storyboard.Player
