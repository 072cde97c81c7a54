import Storyboard.Proofs.Playback.Account

/-! # The gate, move by move

    Every single move keeps the gate in order, also where the call that makes
    it has more to do before it waits again (`Ordered.move`), and so does the
    beginning of a call (`Ordered.enter`). To rebuild the stage leaves the gate
    and the epoch alone (`Reset.same`), and nothing but a load replaces the
    timeline. -/

namespace Storyboard.Player

open Stage

variable {p q : Player} {t u : Task} {a b : Advance} {deeds : List Deed} {l : List Standing}
  {s : Standing} {epoch now ticket : Nat}

namespace Ordered

theorem strides (h : p.Ordered (a.standing :: l)) (hmove : Strides epoch now p a deeds q b) :
    q.Ordered (b.standing :: l) := by
  -- A step that is through leaves the scene of the next place, and the cursor moves on with it.
  -- Until then what is under way settles to that scene.
  cases hmove with
  | @begin ticket step hleads hcurrent hstep =>
    have hsettled := h.settled_of_leads rfl hleads rfl
    have hstart := Settling.start hsettled.coherent now .realtime step.commands
    rw [hsettled.scene] at hstart
    refine h.act rfl hleads rfl rfl ?_ (by rintro ⟨⟩)
    rintro w ⟨⟩
    exact ⟨hstep, _, hstart⟩
  | pass hleads hnone =>
    exact away_iff.2 (h.leave rfl hleads rfl (h.settled_of_leads rfl hleads rfl))
  | perform hready =>
    have hleads : p.gate.leads _ = true := h.leads _ List.mem_cons_self
    obtain ⟨hstep, report, hsettling⟩ := h.valid _ List.mem_cons_self _ rfl
    refine h.act rfl hleads rfl rfl ?_ (by rintro ⟨⟩)
    rintro w ⟨⟩
    exact ⟨hstep, report, hsettling.resume now⟩
  | @proceed ticket place step perf hover =>
    have hleads : p.gate.leads _ = true := h.leads _ List.mem_cons_self
    obtain ⟨hstep, report, hsettling⟩ := h.valid _ List.mem_cons_self _ rfl
    obtain ⟨hcoherent, hscene⟩ := hsettling.over hover
    have hplace : place < p.timeline.steps.length := (List.getElem?_eq_some_iff.1 hstep).1
    refine h.act rfl hleads rfl rfl (by rintro w ⟨⟩) fun _ => ⟨hcoherent, ?_, hplace⟩
    exact hscene.trans (Timeline.sceneAt_succ hstep).symm
  | follow htail hready => exact h.narrated (narrated_follow p epoch now _ _)
  | finish =>
    have hleads : p.gate.leads _ = true := h.leads _ List.mem_cons_self
    exact away_iff.2 (h.leave rfl hleads rfl (h.settled_of_leads rfl hleads rfl))

theorem move (h : p.Ordered (t.standing :: l)) (hmove : Move now p t deeds q u) :
    q.Ordered (u.standing :: l) := by
  -- Rebuilding keeps the gate with the call that rebuilds. A call that leaves the gate does so with
  -- the stage settled, so the next one finds it in order.
  cases hmove with
  | @rewind ticket goal hleads =>
    cases goal with
    | load timeline => exact h.rebuild rfl hleads rfl timeline now 0
    | seek place => exact h.rebuild rfl hleads rfl p.timeline now place
  | @rebuild ticket goal perf rest report q r hready hr =>
    have hrebuilt := Ordered.resumeRebuild (r := .performing goal perf rest report) h now
    rw [hr] at hrebuilt
    exact hrebuilt
  | rebuilt =>
    have hleads : p.gate.leads _ = true := h.leads _ List.mem_cons_self
    have hsettled := h.settled_of_leads rfl hleads rfl
    exact away_iff.2 (h.leave (q := p.publish) rfl hleads rfl
      ⟨hsettled.coherent, hsettled.scene, hsettled.cursor⟩)
  | wrap hleads hcurrent => exact h.rebuild rfl hleads rfl p.timeline now 0
  | unwrap hleads hstale =>
    exact away_iff.2 (h.leave rfl hleads rfl (h.settled_of_leads rfl hleads rfl))
  | @rewrap ticket epoch goal perf rest report q r hready hr =>
    have hrebuilt := Ordered.resumeRebuild (r := .performing goal perf rest report) h now
    rw [hr] at hrebuilt
    exact hrebuilt
  | rewrapped =>
    have hleads : p.gate.leads _ = true := h.leads _ List.mem_cons_self
    have hleft := h.leave rfl hleads rfl (h.settled_of_leads rfl hleads rfl)
    exact away_iff.2 (hleft.congr rfl rfl rfl rfl)
  | play hstrides => exact h.strides hstrides
  | next hcurrent => exact (away_iff.1 h).enqueue
  | stop hstale => exact h
  | finish => exact (away_iff.1 h).finishPlay _ _
  | step hstrides => exact h.strides hstrides
  | stepped => exact h.congr rfl rfl rfl rfl

theorem enter {call : Call} (h : p.Ordered l) (henter : Entered p call q t) :
    q.Ordered (t.standing :: l) := by
  cases henter with
  | rewinds hhalts goal =>
    have hhalt : p.halt.Ordered l := h.congr rfl rfl rfl rfl
    exact hhalt.enqueue
  | wraps hplay =>
    have hrenew : p.renew.Ordered l := h.congr rfl rfl rfl rfl
    exact hrenew.enqueue
  | steps hstep => exact h.enqueue
  | returns hgoes report => exact away_iff.2 h
  | _ => exact away_iff.2 (h.congr rfl rfl rfl rfl)

end Ordered

/-! ### Rebuilding, seen from outside -/

/-- Nothing changed but the stage, the timeline and the cursor. -/
def Reset (p q : Player) : Prop :=
  ∃ stage timeline cursor, q = { p with stage := stage, timeline := timeline, cursor := cursor }

theorem reset_rebuild (p : Player) (now goal : Nat) : p.Reset (p.rebuild now goal).1 := by
  obtain ⟨stage, cursor, h⟩ := restaged_performLists { p with stage := p.stage.reset now } now
    (min goal p.total) .empty (p.timeline.before (min goal p.total))
  exact ⟨stage, p.timeline, cursor, h⟩

theorem reset_goal (p : Player) (now : Nat) (goal : Goal) : p.Reset (goal.rebuild p now).1 := by
  cases goal with
  | load timeline =>
    obtain ⟨stage, timeline', cursor, h⟩ := reset_rebuild { p with timeline } now 0
    exact ⟨stage, timeline', cursor, h⟩
  | seek place => exact reset_rebuild p now place

theorem reset_resumeRebuild {r r' : Rebuild} (h : p.resumeRebuild now r = (q, r')) :
    p.Reset q := by
  obtain rfl : (p.resumeRebuild now r).1 = q := congrArg Prod.fst h
  cases r with
  | «over» report => exact ⟨_, _, _, rfl⟩
  | performing goal perf rest report =>
    unfold Player.resumeRebuild
    dsimp only
    split
    · obtain ⟨stage, cursor, h⟩ := restaged_performLists
        { p with stage := (perf.resume now p.stage).1 } now goal
        (report.merge (perf.resume now p.stage).2.report) rest
      exact ⟨stage, _, cursor, h⟩
    · exact ⟨_, _, _, rfl⟩

theorem Reset.same (h : p.Reset q) :
    q.narrator = p.narrator ∧ q.epoch = p.epoch ∧ q.gate = p.gate := by
  obtain ⟨stage, timeline, cursor, rfl⟩ := h
  exact ⟨rfl, rfl, rfl⟩

/-- To rebuild the stage keeps the timeline. -/
theorem timeline_rebuild (p : Player) (now goal : Nat) :
    (p.rebuild now goal).1.timeline = p.timeline := by
  obtain ⟨stage, cursor, h⟩ := restaged_performLists { p with stage := p.stage.reset now } now
    (min goal p.total) .empty (p.timeline.before (min goal p.total))
  unfold rebuild
  dsimp only
  rw [h]

/-- So does to go on with it. -/
theorem timeline_resumeRebuild {r r' : Rebuild} (h : p.resumeRebuild now r = (q, r')) :
    q.timeline = p.timeline := by
  obtain rfl : (p.resumeRebuild now r).1 = q := congrArg Prod.fst h
  cases r with
  | «over» report => rfl
  | performing goal perf rest report =>
    unfold Player.resumeRebuild
    dsimp only
    split
    · obtain ⟨stage, cursor, h⟩ := restaged_performLists
        { p with stage := (perf.resume now p.stage).1 } now goal
        (report.merge (perf.resume now p.stage).2.report) rest
      rw [h]
    · rfl

/-- So does a step. -/
theorem timeline_of_strides (h : Strides epoch now p a deeds q b) : q.timeline = p.timeline := by
  cases h with
  | @follow ticket step report tail htail hready =>
    obtain ⟨narrator, coins, hfollow⟩ := narrated_follow p epoch now step tail
    rw [hfollow]
  | _ => rfl

/-- To come to the end of playing changes only what the player says. -/
theorem finishPlay_same (p : Player) (epoch : Nat) (report : Report) :
    let q := (p.finishPlay epoch report).1
    q.cursor = p.cursor ∧ q.timeline = p.timeline ∧ q.epoch = p.epoch ∧ q.gate = p.gate ∧
      q.narrator.line = p.narrator.line := by
  unfold finishPlay
  cases p.isCurrent epoch <;> exact ⟨rfl, rfl, rfl, rfl, rfl⟩

end Storyboard.Player
