import Storyboard.Proofs.Playback.Gate

/-! # Steps and rebuildings at the gate

    Whoever is at the head of the gate may perform the step under the cursor
    or rebuild the stage. Either way the gate stays in order: while the
    commands are performed the work is valid, and with the last of them the
    stage is settled before the cursor that the work moves. -/

namespace Storyboard

open Stage

/-! ### Rebuilding -/

/-- How somebody stands who rebuilds the stage. -/
def Rebuild.standing (ticket : Nat) : Rebuild → Standing
  | .performing goal perf rest _ => .working ticket (.rebuilding goal perf rest)
  | .over _ => .trailing ticket

namespace Player

variable {p q : Player} {s : Standing} {l : List Standing} {t : Nat}

/-- Nothing changed but the stage and the cursor. -/
def Restaged (p q : Player) : Prop :=
  ∃ stage cursor, q = { p with stage := stage, cursor := cursor }

theorem restaged_performLists (p : Player) (now goal : Nat) (report : Report)
    (lists : List (List Json)) : p.Restaged (p.performLists now goal report lists).1 := by
  induction lists generalizing p report with
  | nil => exact ⟨_, _, rfl⟩
  | cons commands rest ih =>
    unfold performLists
    dsimp only
    split
    · obtain ⟨stage, cursor, h⟩ := ih { p with
        stage := (Performance.start now .instant p.stage commands).1 } _
      exact ⟨stage, cursor, h⟩
    · exact ⟨_, _, rfl⟩

/-- What is left of a rebuilding leads to the scene that all lists lead to, and it has no more waits
    ahead than they have. -/
theorem performLists_spec (hs : p.stage.Coherent ∅) (now goal : Nat) (report : Report)
    (lists : List (List Json)) :
    match (p.performLists now goal report lists).2 with
    | .over _ => (p.performLists now goal report lists).1.stage.Coherent ∅ ∧
        (p.performLists now goal report lists).1.stage.scene =
          lists.foldl Scene.after p.stage.scene ∧
        (p.performLists now goal report lists).1.cursor = goal
    | .performing goal' perf rest _ => goal' = goal ∧ perf.isOver = false ∧
        perf.waits + (rest.map waitsOf).sum ≤ (lists.map waitsOf).sum ∧ ∃ t report',
          (p.performLists now goal report lists).1.stage.Settling t report' perf ∧
          rest.foldl Scene.after t = lists.foldl Scene.after p.stage.scene := by
  induction lists generalizing p report with
  | nil => exact ⟨hs, rfl, rfl⟩
  | cons commands rest ih =>
    have hstart := Settling.start hs now .instant commands
    obtain ⟨_, _, _, _, hwaits⟩ := Performance.start_spec now .instant hs hs.matches_scene commands
    rw [List.map_cons, List.sum_cons]
    unfold performLists
    dsimp only
    -- A list that is over at once is followed by the next one; else the rest of them wait.
    cases hover : (Performance.start now .instant p.stage commands).2.isOver with
    | true =>
      obtain ⟨hrest, hscene⟩ := hstart.over hover
      have h := ih (p := { p with stage := (Performance.start now .instant p.stage commands).1 })
        hrest (report.merge (Performance.start now .instant p.stage commands).2.report)
      dsimp only at h
      rw [hscene] at h
      rw [if_pos rfl, List.foldl_cons]
      revert h
      cases (performLists { p with
        stage := (Performance.start now .instant p.stage commands).1 } now goal _ rest).2 with
      | «over» r => exact id
      | performing goal' perf rest' r =>
        rintro ⟨hgoal, hopen, hless, h⟩
        exact ⟨hgoal, hopen, Nat.le_trans hless (Nat.le_add_left _ _), h⟩
    | false => exact ⟨rfl, hover, Nat.add_le_add_right hwaits _, _, _, hstart, rfl⟩

namespace Ordered

/-- Lists that are performed by somebody at the head lead to where the timeline says. -/
theorem performLists (h : p.Ordered (s :: l)) (ht : s.ticket? = some t)
    (hleads : p.gate.leads t = true) (hgate : q.gate = p.gate) (hq : q.stage.Coherent ∅)
    (now : Nat) (report : Report) {goal : Nat} {lists : List (List Json)} (hgoal : goal ≤ q.total)
    (hlists : lists.foldl Scene.after q.stage.scene = q.timeline.sceneAt goal) :
    (q.performLists now goal report lists).1.Ordered
      ((q.performLists now goal report lists).2.standing t :: l) := by
  obtain ⟨stage, cursor, heq⟩ := restaged_performLists q now goal report lists
  have hspec := performLists_spec hq now goal report lists
  -- Either all lists are through and the goal is there, or one is under way and the rest leads to
  -- it.
  cases hr : (q.performLists now goal report lists).2 with
  | «over» r =>
    rw [hr] at hspec
    obtain ⟨hcoherent, hscene, hcursor⟩ := hspec
    refine h.act ht hleads ?_ rfl (by rintro w ⟨⟩) fun _ => ⟨hcoherent, ?_, ?_⟩
    · rw [heq]
      exact hgate
    · rw [hscene, hlists, hcursor, heq]
    · rw [hcursor, heq]
      exact hgoal
  | performing goal' perf rest r =>
    rw [hr] at hspec
    obtain ⟨rfl, _, _, x, report', hsettling, hrest⟩ := hspec
    refine h.act ht hleads ?_ rfl ?_ (by rintro ⟨⟩)
    · rw [heq]
      exact hgate
    · rintro w ⟨⟩
      refine ⟨?_, x, report', hsettling, ?_⟩
      · rw [heq]
        exact hgoal
      · rw [hrest, hlists, heq]

/-- Somebody at the head who does not work may rebuild the stage, for any timeline. -/
theorem rebuild (h : p.Ordered (s :: l)) (ht : s.ticket? = some t)
    (hleads : p.gate.leads t = true) (hidle : s.work? = none) (timeline : Timeline)
    (now goal : Nat) :
    ({ p with timeline }.rebuild now goal).1.Ordered
      (({ p with timeline }.rebuild now goal).2.standing t :: l) := by
  have hs := (h.settled_of_leads ht hleads hidle).coherent
  exact h.performLists (q := { p with timeline, stage := p.stage.reset now }) ht hleads rfl
    hs.reset now .empty (Nat.min_le_right _ _) rfl

theorem resumeRebuild {r : Rebuild} (h : p.Ordered (r.standing t :: l)) (now : Nat) :
    (p.resumeRebuild now r).1.Ordered ((p.resumeRebuild now r).2.standing t :: l) := by
  cases r with
  | «over» report => exact h
  | performing goal perf rest report =>
    have hleads : p.gate.leads t = true := h.leads _ List.mem_cons_self
    obtain ⟨hgoal, x, report', hsettling, hrest⟩ := h.valid _ List.mem_cons_self _ rfl
    have hresumed := hsettling.resume now
    unfold Player.resumeRebuild
    dsimp only
    cases hover : (perf.resume now p.stage).2.isOver with
    | true =>
      obtain ⟨hcoherent, hscene⟩ := hresumed.over hover
      exact h.performLists (q := { p with stage := (perf.resume now p.stage).1 }) rfl hleads rfl
        hcoherent now _ hgoal (by rw [← hrest, ← hscene])
    | false =>
      refine h.act (q := { p with stage := (perf.resume now p.stage).1 }) rfl hleads rfl rfl ?_
        (by rintro ⟨⟩)
      rintro w ⟨⟩
      exact ⟨hgoal, x, report', hresumed, hrest⟩

end Ordered

end Player

/-! ### Steps -/

/-- How somebody stands who performs a step. -/
def Advance.standing : Advance → Standing
  | .queued ticket => .queued ticket
  | .performing ticket place step p => .working ticket (.performing place step p)
  | .trailing ticket _ _ _ => .trailing ticket
  | .over _ => .away

namespace Player

variable {p q : Player} {s : Standing} {l : List Standing} {t epoch now place : Nat} {step : Step}

/-- Nothing changed but the narrator and the coins. -/
def Narrated (p q : Player) : Prop :=
  ∃ narrator coins, q = { p with narrator := narrator, coins := coins }

theorem narrated_resumeTail (p : Player) (now : Nat) (step : Step) (tail : Tail) :
    p.Narrated (p.resumeTail now step tail).1 := by
  cases tail with
  | ahead =>
    unfold resumeTail
    cases step.spoken? <;> exact ⟨_, _, rfl⟩
  | _ => exact ⟨_, _, rfl⟩

theorem narrated_dropTail (p : Player) (tail : Tail) : p.Narrated (p.dropTail tail) := by
  cases tail <;> exact ⟨_, _, rfl⟩

theorem Narrated.trans {r : Player} (h : p.Narrated q) (h' : q.Narrated r) : p.Narrated r := by
  obtain ⟨narrator, coins, rfl⟩ := h
  obtain ⟨narrator', coins', rfl⟩ := h'
  exact ⟨narrator', coins', rfl⟩

/-- What follows the commands of a step concerns the narrator and the coins only. -/
theorem narrated_follow (p : Player) (epoch now : Nat) (step : Step) (tail : Tail) :
    p.Narrated (p.follow epoch now step tail).1 := by
  unfold follow
  split
  · exact narrated_resumeTail p now step tail
  · have htoss : p.Narrated p.toss.1 := ⟨_, _, rfl⟩
    rcases hcoin : p.toss with ⟨p', coin⟩
    rw [hcoin] at htoss
    cases coin with
    | true =>
      exact (htoss.trans (narrated_resumeTail p' now step tail)).trans (narrated_dropTail _ _)
    | false => exact htoss.trans (narrated_dropTail _ _)

namespace Ordered

theorem narrated (h : p.Ordered l) (hq : p.Narrated q) : q.Ordered l := by
  obtain ⟨narrator, coins, rfl⟩ := hq
  exact h.congr rfl rfl rfl rfl

theorem settleTail (h : p.Ordered (.trailing t :: l)) (step : Step) (report : Report)
    (tail : Tail) :
    (p.settleTail t step report tail).1.Ordered
      ((p.settleTail t step report tail).2.standing :: l) := by
  have hleads : p.gate.leads t = true := h.leads _ List.mem_cons_self
  cases tail with
  | «over» => exact away_iff.2 (h.leave rfl hleads rfl (h.settled_of_leads rfl hleads rfl))
  | _ => exact h

/-- Somebody at the head performs the step at a place. -/
theorem settleStep (h : p.Ordered (s :: l)) (ht : s.ticket? = some t)
    (hleads : p.gate.leads t = true) (hstep : p.timeline.steps[place]? = some step)
    {stage : Stage} {perf : Performance} {report : Report}
    (hsettling : stage.Settling ((p.timeline.sceneAt place).after step.commands) report perf)
    (epoch now : Nat) :
    (p.settleStep epoch now t place step (stage, perf)).1.Ordered
      ((p.settleStep epoch now t place step (stage, perf)).2.standing :: l) := by
  unfold Player.settleStep
  dsimp only
  cases hover : perf.isOver with
  | true =>
    obtain ⟨hcoherent, hscene⟩ := hsettling.over hover
    have hplace : place < p.timeline.steps.length := (List.getElem?_eq_some_iff.1 hstep).1
    -- The cursor moves on when the commands are through.
    have hmoved : (Player.publish { p with stage, cursor := place + 1 }).Ordered
        (.trailing t :: l) := by
      refine h.act ht hleads rfl rfl (by rintro w ⟨⟩) fun _ => ⟨hcoherent, ?_, hplace⟩
      exact hscene.trans (Timeline.sceneAt_succ hstep).symm
    exact (hmoved.narrated (narrated_follow _ epoch now step .ahead)).settleTail step _ _
  | false =>
    refine h.act (q := { p with stage }) ht hleads rfl rfl ?_ (by rintro ⟨⟩)
    rintro w ⟨⟩
    exact ⟨hstep, report, hsettling⟩

theorem advance {a : Advance} (h : p.Ordered (a.standing :: l)) (epoch now : Nat) :
    (p.advance epoch now a).1.Ordered ((p.advance epoch now a).2.standing :: l) := by
  cases a with
  | queued t =>
    unfold Player.advance
    dsimp only
    split
    · next hleads =>
      have hsettled := h.settled_of_leads rfl hleads rfl
      split
      · next step _ hstep =>
        have hstart := Settling.start hsettled.coherent now .realtime step.commands
        rw [hsettled.scene] at hstart
        exact h.settleStep rfl hleads hstep hstart epoch now
      · exact away_iff.2 (h.leave rfl hleads rfl hsettled)
    · exact h
  | performing t place step perf =>
    have hleads : p.gate.leads t = true := h.leads _ List.mem_cons_self
    obtain ⟨hstep, report, hsettling⟩ := h.valid _ List.mem_cons_self _ rfl
    exact h.settleStep rfl hleads hstep (hsettling.resume now) epoch now
  | trailing t step report tail =>
    exact (h.narrated (narrated_follow p epoch now step tail)).settleTail step report _
  | «over» report => exact h

/-- Whoever asks for a step has a place in line for it, or has performed it. -/
theorem beginStep (h : p.Ordered l) (epoch now : Nat) :
    (p.beginStep epoch now).1.Ordered ((p.beginStep epoch now).2.standing :: l) :=
  Ordered.advance (a := .queued p.enqueue.2) h.enqueue epoch now

end Ordered

end Player

end Storyboard
