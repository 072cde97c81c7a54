import Storyboard.Proofs.Playback.Order

/-! # Going back

    A call that goes to some step rebuilds the stage. Alone, it is done after
    no more rounds than there are waits before that step, and the stage is
    then as it was when the player came to the step for the first time. -/

namespace Storyboard.Player

open Stage

/-- The waits that a rebuilding has ahead. -/
def Task.waits : Task → Nat
  | .rebuilding _ (.performing _ perf rest _) => perf.waits + (rest.map waitsOf).sum
  | _ => 0

/-- A call alone at the gate rebuilds the stage up to a step of a timeline, or has done so. -/
structure Replaying (timeline : Timeline) (place : Nat) (p : Player) (task : Task) : Prop where
  ordered  : p.Ordered [task.standing]
  timeline : p.timeline = timeline
  place    : match task with
    | .rebuilding _ (.performing goal perf _ _) => goal = place ∧ perf.isOver = false
    | .over _ => p.cursor = place
    | _ => False

variable {p q : Player} {timeline : Timeline} {place t now : Nat}

/-- What somebody alone at the gate does for the sake of a step. -/
theorem replaying_performLists {s : Standing} (h : p.Ordered [s]) (ht : s.ticket? = some t)
    (hleads : p.gate.leads t = true) (hgate : q.gate = p.gate) (hq : q.stage.Coherent ∅)
    (now : Nat) (report : Report) {lists : List (List Json)} (hplace : place ≤ q.total)
    (hlists : lists.foldl Scene.after q.stage.scene = q.timeline.sceneAt place)
    {r : Rebuild} {p' : Player} (hx : q.performLists now place report lists = (p', r)) :
    Replaying q.timeline place (p'.settleRebuild t r).1 (p'.settleRebuild t r).2 ∧
      (p'.settleRebuild t r).2.waits ≤ (lists.map waitsOf).sum := by
  have hordered := h.performLists ht hleads hgate hq now report hplace hlists
  have hspec := performLists_spec hq now place report lists
  have hrestaged := restaged_performLists q now place report lists
  rw [hx] at hordered hspec hrestaged
  obtain ⟨stage, cursor, rfl⟩ := hrestaged
  cases r with
  | «over» r => exact ⟨⟨hordered.settleRebuild, rfl, hspec.2.2⟩, Nat.zero_le _⟩
  | performing goal perf rest r =>
    obtain ⟨rfl, hopen, hwaits, _⟩ := hspec
    exact ⟨⟨hordered, rfl, rfl, hopen⟩, hwaits⟩

/-- Somebody alone at the gate who goes on rebuilding has fewer waits ahead. -/
theorem Replaying.resume {task : Task} (h : Replaying timeline place p task)
    (hopen : machine.isDone task = false) (now : Nat) :
    Replaying timeline place (p.resume now task).1 (p.resume now task).2 ∧
      (p.resume now task).2.waits + (if task.isReady now p then 1 else 0) ≤ task.waits := by
  obtain ⟨hordered, rfl, hplace⟩ := h
  cases task with
  | «over» report => cases hopen
  | rebuilding ticket r =>
    cases r with
    | «over» report => exact hplace.elim
    | performing goal perf rest report =>
      obtain ⟨rfl, hopen⟩ := hplace
      have hleads : p.gate.leads ticket = true := hordered.leads _ List.mem_cons_self
      obtain ⟨hgoal, x, report', hsettling, hrest⟩ := hordered.valid _ List.mem_cons_self _ rfl
      have hresumed := hsettling.resume now
      obtain ⟨_, _, _, hless⟩ := Performance.resume_spec (s := p.stage) now hsettling.tidy ∅
      have hready : Task.isReady now p (.rebuilding ticket (.performing goal perf rest report)) =
          perf.isReady now := rfl
      have hwaits : Task.waits (.rebuilding ticket (.performing goal perf rest report)) =
          perf.waits + (rest.map waitsOf).sum := rfl
      rw [hready, hwaits]
      simp only [Player.resume, resumeRebuild]
      -- The lists that are left begin in the same round in which this one is over.
      cases hover : (perf.resume now p.stage).2.isOver with
      | true =>
        obtain ⟨hcoherent, hscene⟩ := hresumed.over hover
        rcases hx : performLists { p with stage := (perf.resume now p.stage).1 } now goal
          (report.merge (perf.resume now p.stage).2.report) rest with ⟨p', r⟩
        obtain ⟨hreplaying, hless'⟩ := replaying_performLists
          (q := { p with stage := (perf.resume now p.stage).1 }) hordered rfl hleads rfl hcoherent
          now _ hgoal (by rw [← hrest, ← hscene]) hx
        refine ⟨hreplaying, ?_⟩
        simp only [↓reduceIte]
        omega
      | false =>
        have hagain := Ordered.resumeRebuild (r := .performing goal perf rest report) hordered now
        simp only [resumeRebuild, hover] at hagain
        refine ⟨⟨hagain, rfl, rfl, hover⟩, ?_⟩
        change (perf.resume now p.stage).2.waits + (rest.map waitsOf).sum + _ ≤ _
        omega
  | _ => exact hplace.elim

theorem advances_replaying (timeline : Timeline) (place : Nat) :
    Ensemble.Advances machine (Replaying timeline place) fun _ => Task.waits where
  step now p task h hopen := h.resume hopen now
  wake now p task h hopen hready := by
    obtain ⟨_, _, hplace⟩ := h
    cases task with
    | «over» report => cases hopen
    | rebuilding ticket r =>
      cases r with
      | «over» report => exact hplace.elim
      | performing goal perf rest report => exact Performance.exists_due hplace.2 hready
    | _ => exact hplace.elim

/-- Going back alone, from any stage that is settled. -/
theorem run_stepBackward (h : p.Ordered []) (hcursor : p.cursor = place + 1) (now : Nat)
    {rounds : Nat} (hrounds : ((p.timeline.before place).map waitsOf).sum < rounds) :
    ∃ stop q report, (Ensemble.ofActions now p [(now, .stepBackward)]).run machine rounds =
        ⟨stop, q, [.done now stop (.over report) q]⟩ ∧
      q.cursor = place ∧ q.timeline = p.timeline ∧
      q.stage.scene = p.timeline.sceneAt place := by
  have hsettled := h.settled fun s hs => by cases hs
  have hplace : place ≤ p.total := by
    have := hsettled.cursor
    omega
  -- Nobody else is at the gate, so the call is at its head at once.
  have hqueued : p.halt.enqueue.1.Ordered [.queued p.halt.enqueue.2] :=
    (h.congr (q := p.halt) rfl rfl rfl rfl).enqueue
  have hleads : p.halt.enqueue.1.gate.leads p.halt.enqueue.2 = true :=
    Line.leads_join h.line.waiting_eq_nil
  rcases hx : performLists { p.halt.enqueue.1 with stage := p.stage.reset now } now place .empty
    (p.timeline.before place) with ⟨p', r⟩
  obtain ⟨hreplaying, hwaits⟩ := replaying_performLists
    (q := { p.halt.enqueue.1 with stage := p.stage.reset now }) hqueued rfl hleads rfl
    hsettled.coherent.reset now .empty hplace rfl hx
  have hstart : machine.start now p .stepBackward = p'.settleRebuild p.halt.enqueue.2 r := by
    change p.stepBackward now = _
    have hgoal : min place p.halt.enqueue.1.total = place := Nat.min_eq_left hplace
    unfold stepBackward
    rw [hcursor]
    change p.halt.enqueue.1.rewind now p.halt.enqueue.2 (.seek place) = _
    unfold rewind
    rw [if_pos hleads]
    dsimp only
    unfold rebuild
    rw [hgoal]
    exact congrArg (fun x => x.1.settleRebuild p.halt.enqueue.2 x.2) hx
  rw [← hstart] at hreplaying hwaits
  obtain ⟨stop, q, task, hrun, ⟨hordered, htimeline, hover⟩, hdone⟩ := Ensemble.run_solo
    (advances_replaying p.timeline place) now p .stepBackward hreplaying
    (Nat.lt_of_le_of_lt hwaits hrounds)
  cases task with
  | «over» report =>
    refine ⟨stop, q, report, hrun, hover, htimeline, ?_⟩
    rw [((Ordered.away_iff.1 hordered).settled fun s hs => by cases hs).scene, htimeline]
    exact congrArg p.timeline.sceneAt hover
  | _ => cases hdone

/-! ### The stage after any calls -/

/-- Whatever calls were made and however they took turns: when nobody performs the commands of a
    step or rebuilds the stage, the scene is what is left when the setup and the steps before the
    cursor are performed on an empty stage, one after another, each alone and to its end, in either
    pacing. Going back by one step from there leaves what is left of the steps before that one. -/
theorem scene_after (narrator : Narrator) (coins : List Bool) (start : Nat)
    (events : List (Ensemble.Event Call))
    (hidle : ∀ task ∈ ((Ensemble.alone start (ofNarrator narrator coins)).after machine
      events).inFlight, ¬task.Works) :
    let e := (Ensemble.alone start (ofNarrator narrator coins)).after machine events
    (∀ pacing now, e.world.stage.scene =
      (Stage.empty.executeAll pacing now (e.world.timeline.before e.world.cursor)).scene) ∧
    ∀ place now rounds, e.inFlight = [] → e.world.cursor = place + 1 →
      ((e.world.timeline.before place).map waitsOf).sum < rounds →
      ∃ stop q report,
        (Ensemble.ofActions now e.world [(now, .stepBackward)]).run machine rounds =
          ⟨stop, q, [.done now stop (.over report) q]⟩ ∧
        q.cursor = place ∧ q.timeline = e.world.timeline ∧
        ∀ pacing now, q.stage.scene =
          (Stage.empty.executeAll pacing now (e.world.timeline.before place)).scene := by
  intro e
  have hordered : e.world.Ordered (e.inFlight.map Task.standing) :=
    ordered_after narrator coins start events
  -- The order of the player says what the scene is wherever nobody is at work.
  have hsettled : e.world.Settled := by
    refine hordered.settled fun s hs => ?_
    obtain ⟨task, htask, rfl⟩ := List.mem_map.1 hs
    exact work?_of_not_works (hidle task htask)
  refine ⟨fun pacing now => ?_, fun place now rounds hnone hcursor hrounds => ?_⟩
  · rw [hsettled.scene]
    exact sceneAt_eq_executeAll _ _ pacing now
  · rw [hnone] at hordered
    obtain ⟨stop, q, report, hrun, hplace, htimeline, hscene⟩ :=
      run_stepBackward hordered hcursor now hrounds
    refine ⟨stop, q, report, hrun, hplace, htimeline, fun pacing now => ?_⟩
    rw [hscene]
    exact sceneAt_eq_executeAll _ _ pacing now

/-- A step that creates a node, and the way back. -/
theorem scene_after_stepForward :
    let node : Json := .obj [("command", .str "CREATE_NODE"), ("id", .str "a"),
      ("position", .obj [("x", .int 0), ("y", .int 0)])]
    let e := (Ensemble.alone 0 (ofNarrator (.ofEquipment .usual []) [])).after machine
      [.join 0 (.load ⟨[], [⟨[node], none, none⟩]⟩), .turn 0 0, .turn 0 0,
        .join 0 .stepForward, .turn 1 0, .turn 1 1000, .turn 1 5000]
    (∀ task ∈ e.inFlight, ¬task.Works) ∧ e.inFlight = [] ∧ e.world.cursor = 0 + 1 ∧
      ((e.world.timeline.before 0).map waitsOf).sum < 9 ∧
      e.world.stage.scene =
        (Stage.empty.executeAll .realtime 0 (e.world.timeline.before e.world.cursor)).scene ∧
      ∃ stop q report, (Ensemble.ofActions 5000 e.world [(5000, .stepBackward)]).run machine 9 =
        ⟨stop, q, [.done 5000 stop (.over report) q]⟩ ∧
        q.cursor = 0 ∧ q.timeline = e.world.timeline ∧ ∀ pacing now, q.stage.scene =
          (Stage.empty.executeAll pacing now (e.world.timeline.before 0)).scene := by
  intro node e
  have hnone : e.inFlight = [] := List.isEmpty_iff.1 (by decide +kernel)
  have hidle : ∀ task ∈ e.inFlight, ¬task.Works := by
    rw [hnone]
    rintro task ⟨⟩
  have hcursor : e.world.cursor = 0 + 1 := by decide +kernel
  have hrounds : ((e.world.timeline.before 0).map waitsOf).sum < 9 := by decide +kernel
  subst e
  have h := scene_after (.ofEquipment .usual []) [] 0 _ hidle
  exact ⟨hidle, hnone, hcursor, hrounds, h.1 .realtime 0, h.2 0 5000 9 hnone hcursor hrounds⟩

end Storyboard.Player
