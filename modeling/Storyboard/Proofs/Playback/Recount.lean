import Storyboard.Proofs.Playback.Alone
import Storyboard.Proofs.Playback.Redrawing
import Storyboard.Proofs.Playback.Reports

/-! # What calls report

    A call that goes to a step reports everything that it performs again, and
    that is the setup and the steps before (`run_rewinding`). A call to play
    reports the steps from the cursor on, each as the timeline says that it is
    reported where the steps before are through, whenever the call makes its
    moves (`Tally`, `run_play`). -/

namespace Storyboard

open Stage

/-! ### What is reported so far -/

/-- What a rebuilding reports in the end. -/
def Rebuild.Recounts (p : Player) (total : Report) : Rebuild → Prop
  | .performing _ perf rest report => ∃ t r, p.stage.Settling t r perf ∧
      (report.merge r).merge (Report.all (t.reports rest)) = total
  | .over report => report = total

/-- What a call to play has reported so far: the reports of the steps before the cursor are those
    `before` the call and those in the `log`. -/
def Advance.Tells (p : Player) (before log : List Report) (report : Report) : Advance → Prop
  | .queued _ => p.timeline.stepReports.take p.cursor = before ++ log ∧ report = Report.all log
  | .performing _ place step perf => p.timeline.steps[place]? = some step ∧
      perf.report = (p.timeline.sceneAt place).report step.commands ∧
      p.timeline.stepReports.take place = before ++ log ∧ report = Report.all log
  | .trailing _ _ r _ => p.timeline.stepReports.take p.cursor = before ++ (log ++ [r]) ∧
      report = Report.all log
  | .over (some r) => p.timeline.stepReports.take p.cursor = before ++ log ∧
      report.merge r = Report.all log
  | .over none => p.total ≤ p.cursor ∧ p.timeline.stepReports = before ++ log ∧
      report = Report.all log

/-- The report of a step that comes to its end with the next move of the call. -/
def Advance.reported? : Advance → Option Report
  | .trailing _ _ report .over => some report
  | _ => none

namespace Player

/-- What a call reports in the end that goes to a step. -/
def Task.Recounts (p : Player) (total : Report) : Task → Prop
  | .rewinding .. => True
  | .rebuilding _ r => r.Recounts p total
  | .over report => report = some total
  | _ => False

variable {p q : Player} {t u : Task} {a b : Advance} {deeds : List Deed} {l : List Standing}
  {timeline : Timeline} {place epoch now rounds : Nat} {call : Call} {goal : Goal}
  {total report : Report} {log before : List Report}

/-! ### Going to a step -/

theorem recounts_performLists (hs : p.stage.Coherent ∅) (now place : Nat) (report : Report)
    (lists : List (List Json)) :
    (p.performLists now place report lists).2.Recounts (p.performLists now place report lists).1
      (report.merge (Report.all (p.stage.scene.reports lists))) := by
  induction lists generalizing p report with
  | nil => exact (Report.merge_empty report).symm
  | cons commands rest ih =>
    have hstart := Settling.start hs now .instant commands
    have hall : report.merge (Report.all (p.stage.scene.reports (commands :: rest))) =
        (report.merge (p.stage.scene.report commands)).merge
          (Report.all ((p.stage.scene.after commands).reports rest)) := by
      rw [Scene.reports, Report.all_cons, Report.merge_assoc]
    rw [hall]
    unfold performLists
    dsimp only
    cases hover : (Performance.start now .instant p.stage commands).2.isOver with
    | true =>
      -- The first list is through at once, and the others meet the scene that it leaves.
      obtain ⟨hrest, hscene⟩ := hstart.over hover
      have h := ih (p := { p with stage := (Performance.start now .instant p.stage commands).1 })
        hrest (report.merge (Performance.start now .instant p.stage commands).2.report)
      rw [show (Performance.start now .instant p.stage commands).1.scene = _ from hscene,
        hstart.report] at h
      rw [if_pos rfl, hstart.report]
      exact h
    | false => exact ⟨_, _, hstart, rfl⟩

theorem recounts_goal (hs : p.stage.Coherent ∅) (hbound : goal.BoundFor timeline place p)
    (now : Nat) :
    (goal.rebuild p now).2.Recounts (goal.rebuild p now).1
      (Report.all (timeline.reportsBefore place)) := by
  cases goal with
  | load t =>
    obtain ⟨rfl, rfl⟩ := hbound
    have h := recounts_performLists (p := { p with timeline := t, stage := p.stage.reset now })
      hs.reset now (min 0 t.length) .empty (t.before (min 0 t.length))
    rw [Report.empty_merge, Nat.zero_min] at h
    rw [← Timeline.reports_before]
    exact h
  | seek place' =>
    obtain ⟨rfl, rfl⟩ := hbound
    have h := recounts_performLists (p := { p with stage := p.stage.reset now }) hs.reset now
      (min place' p.total) .empty (p.timeline.before (min place' p.total))
    rw [Report.empty_merge] at h
    rw [← Timeline.reports_before]
    exact h

theorem recounts_resumeRebuild {r r' : Rebuild} (h : r.Recounts p total)
    (hr : p.resumeRebuild now r = (q, r')) : r'.Recounts q total := by
  cases r with
  | «over» report =>
    cases hr
    exact h
  | performing goal perf rest report =>
    obtain ⟨t, r, hsettling, htotal⟩ := h
    have hresumed := hsettling.resume now
    unfold resumeRebuild at hr
    dsimp only at hr
    cases hover : (perf.resume now p.stage).2.isOver with
    | true =>
      obtain ⟨hrest, hscene⟩ := hresumed.over hover
      have h := recounts_performLists (p := { p with stage := (perf.resume now p.stage).1 }) hrest
        now goal (report.merge (perf.resume now p.stage).2.report) rest
      rw [hover, if_pos rfl] at hr
      rw [hr, show (perf.resume now p.stage).1.scene = t from hscene, hresumed.report, htotal] at h
      exact h
    | false =>
      rw [hover, if_neg Bool.false_ne_true] at hr
      cases hr
      exact ⟨t, r, hresumed, htotal⟩

/-- A call on its way to a step of a timeline, with nothing played meanwhile, and what it will have
    to report there. -/
structure Seeks (timeline : Timeline) (place : Nat) (p : Player) (t : Task) : Prop where
  bound    : t.BoundFor timeline place p
  silent   : p.playing = false
  recounts : t.Recounts p (Report.all (timeline.reportsBefore place))

theorem lasting_seeks (timeline : Timeline) (place : Nat) : Lasting (Seeks timeline place) := by
  rintro now p t deeds q u hordered hmove ⟨hbound, hsilent, hrecounts⟩
  -- A call that plays or steps is none that goes to a step.
  refine ⟨hmove.boundFor hbound, ?_, ?_⟩
  · cases hmove with
    | @rewind ticket goal hleads =>
      obtain ⟨stage, timeline', cursor, hsame⟩ := reset_goal p now goal
      rw [hsame]
      exact hsilent
    | rebuild hready hr =>
      obtain ⟨stage, timeline', cursor, rfl⟩ := reset_resumeRebuild hr
      exact hsilent
    | rebuilt => exact hsilent
    | _ => exact hrecounts.elim
  · cases hmove with
    | rewind hleads =>
      exact recounts_goal (hordered.settled_of_leads rfl hleads rfl).coherent hbound now
    | @rebuild ticket goal perf rest report q r hready hr =>
      have h : (Rebuild.performing goal perf rest report).Recounts p _ := hrecounts
      exact recounts_resumeRebuild h hr
    | rebuilt => exact congrArg some hrecounts
    | _ => exact hrecounts.elim

/-- A call that goes to a step, alone, brings the player there, and it reports the setup and the
    steps before. -/
theorem run_rewinding (h : p.Ordered []) (hvoiced : p.Voiced [])
    (henter : p.enter call = (p.halt.enqueue.1, .rewinding p.halt.enqueue.2 goal))
    (hbound : goal.BoundFor timeline place p) (now : Nat)
    (hrounds : (call.goesThrough p).rounds ≤ rounds) :
    ∃ stop q, (Ensemble.ofActions now p [(now, call)]).run machine rounds = ⟨stop, q,
        [.done now stop (.over (some (Report.all (timeline.reportsBefore place)))) q]⟩ ∧
      q.Ordered [] ∧ q.Voiced [] ∧ q.timeline = timeline ∧ q.cursor = place ∧
      q.playing = false := by
  have hentered : Seeks timeline place (p.enter call).1 (p.enter call).2 := by
    rw [henter]
    refine ⟨?_, rfl, trivial⟩
    cases goal <;> exact hbound
  obtain ⟨stop, q, report, hrun, hordered, hvoiced', ⟨⟨htimeline, hcursor⟩, hsilent, hreport⟩⟩ :=
    run_alone (lasting_seeks timeline place) h hvoiced now call hentered hrounds
  obtain rfl : report = some _ := hreport
  exact ⟨stop, q, hrun, hordered, hvoiced', htimeline, hcursor, hsilent⟩

/-! ### Playing -/

/-- Where no step comes to its end, the log stays as it is. -/
theorem tells_of_none (hnone : a.reported? = none) (h : b.Tells q before log report) :
    b.Tells q before (log ++ a.reported?.toList) report := by
  rwa [hnone, Option.toList_none, List.append_nil]

theorem tells_strides (h : p.Ordered (a.standing :: l)) (hepoch : p.epoch = epoch)
    (ha : a.Tells p before log report) (hmove : Strides epoch now p a deeds q b) :
    q.epoch = epoch ∧ b.Tells q before (log ++ a.reported?.toList) report := by
  cases hmove with
  | @begin ticket step hleads hcurrent hstep =>
    have hsettled := h.settled_of_leads rfl hleads rfl
    have hreport := (Settling.start hsettled.coherent now .realtime step.commands).report
    rw [hsettled.scene] at hreport
    obtain ⟨hlog, htotal⟩ := ha
    exact ⟨hepoch, tells_of_none rfl ⟨hstep, hreport, hlog, htotal⟩⟩
  | pass hleads hnone =>
    obtain ⟨hlog, htotal⟩ := ha
    -- The call is of the epoch, so it passes only where there are no more steps.
    have hcursor : p.total ≤ p.cursor := List.getElem?_eq_none_iff.1 (hnone hepoch)
    rw [List.take_of_length_le (p.timeline.length_stepReports.trans_le hcursor)] at hlog
    exact ⟨hepoch, tells_of_none rfl ⟨hcursor, hlog, htotal⟩⟩
  | @perform ticket place step perf hready =>
    obtain ⟨hstep, hreport, hlog, htotal⟩ := ha
    obtain ⟨_, _, hsettling⟩ := h.valid _ List.mem_cons_self _ rfl
    have hresumed := (hsettling.resume now).report.trans hsettling.report.symm
    exact ⟨hepoch, tells_of_none rfl ⟨hstep, hresumed.trans hreport, hlog, htotal⟩⟩
  | @proceed ticket place step perf hover =>
    obtain ⟨hstep, hreport, hlog, htotal⟩ := ha
    refine ⟨hepoch, tells_of_none rfl ⟨?_, htotal⟩⟩
    show p.timeline.stepReports.take (place + 1) = before ++ (log ++ [perf.report])
    rw [Timeline.take_succ_stepReports hstep, hlog, hreport, List.append_assoc]
  | @follow ticket step report' tail htail hready =>
    obtain ⟨narrator, coins, hfollow⟩ := narrated_follow p epoch now step tail
    have hnone : (Advance.trailing ticket step report' tail).reported? = none := by
      rcases htail with rfl | hrests
      · rfl
      · cases tail with
        | «over» => exact hrests.elim
        | _ => rfl
    rw [hfollow]
    exact ⟨hepoch, tells_of_none hnone ha⟩
  | @finish ticket step r =>
    obtain ⟨hlog, htotal⟩ := ha
    refine ⟨hepoch, hlog, ?_⟩
    show report.merge r = Report.all (log ++ [r])
    rw [Report.all_append, ← htotal, Report.all_cons, Report.all_nil, Report.merge_empty]

/-- What a call to play has reported so far, and that it comes to the end of a timeline. -/
def Task.Tells (timeline : Timeline) (p : Player) (before log : List Report) : Task → Prop
  | .playing epoch report a => p.timeline = timeline ∧ p.epoch = epoch ∧
      a.Tells p before log report
  | .over report => p.timeline = timeline ∧ p.total ≤ p.cursor ∧
      timeline.stepReports = before ++ log ∧ report = some (Report.all log)
  | _ => False

/-- The report of a step that comes to its end with the next move of the call. -/
def Task.reported? : Task → Option Report
  | .playing _ _ a => a.reported?
  | .stepping _ a => a.reported?
  | _ => none

theorem task_tells_of_none (hnone : t.reported? = none) (h : u.Tells timeline q before log) :
    u.Tells timeline q before (log ++ t.reported?.toList) := by
  rwa [hnone, Option.toList_none, List.append_nil]

theorem tells_move (h : p.Ordered (t.standing :: l)) (ht : t.Tells timeline p before log)
    (hmove : Move now p t deeds q u) : u.Tells timeline q before (log ++ t.reported?.toList) := by
  cases hmove with
  | @play q epoch report a b deeds hstrides =>
    obtain ⟨htimeline, hepoch, ha⟩ := ht
    exact ⟨(timeline_of_strides hstrides).trans htimeline, tells_strides h hepoch ha hstrides⟩
  | @next epoch report r hcurrent =>
    obtain ⟨htimeline, hepoch, hlog, htotal⟩ := ht
    exact task_tells_of_none rfl ⟨htimeline, hepoch, hlog, htotal⟩
  | stop hstale => exact absurd ht.2.1 hstale
  | @finish epoch report =>
    obtain ⟨rfl, hepoch, hcursor, hlog, htotal⟩ := ht
    obtain ⟨hcursor', htimeline, _⟩ := p.finishPlay_same epoch report
    refine task_tells_of_none rfl ⟨htimeline, ?_, hlog, congrArg some htotal⟩
    rw [total, htimeline, hcursor']
    exact hcursor
  | _ => exact ht.elim

/-- Moves of one call, at whatever times, with the reports of the steps that came to their end. -/
inductive Tally (p : Player) (t : Task) : List Report → Player → Task → Prop
  | refl : Tally p t [] p t
  | snoc {log : List Report} {now : Nat} {q r : Player} {u v : Task} {deeds : List Deed}
      (h : Tally p t log q u) (hmove : Move now q u deeds r v) :
      Tally p t (log ++ u.reported?.toList) r v

theorem Tally.tells (h : Tally p t log q u) (hordered : p.Ordered [t.standing])
    (ht : t.Tells timeline p before []) :
    q.Ordered [u.standing] ∧ u.Tells timeline q before log := by
  induction h with
  | refl => exact ⟨hordered, ht⟩
  | snoc _ hmove ih => exact ⟨ih.1.move hmove, tells_move ih.1 ih.2 hmove⟩

/-- A call to play that finds steps to perform. -/
theorem tells_enter (hidle : p.playing = false) (hstatus : p.renew.status ≠ .finished) :
    (p.enter .play).2.Tells p.timeline (p.enter .play).1 (p.timeline.stepReports.take p.cursor)
      [] := by
  have henter : p.enter .play = (publish { p.renew with playing := true },
      .playing p.renew.epoch .empty (.over (some .empty))) := by
    show p.enterPlay = _
    unfold enterPlay
    rw [hidle, if_neg Bool.false_ne_true, if_neg hstatus]
  rw [henter]
  exact ⟨rfl, rfl, (List.append_nil _).symm, rfl⟩

/-- A call to play, alone, reports the steps from the cursor on, each as it is reported where the
    timeline is through with those before it. -/
theorem run_play (h : p.Ordered []) (hvoiced : p.Voiced []) (hidle : p.playing = false)
    (hstatus : p.renew.status ≠ .finished) (now : Nat) (hrounds : p.timeline.rounds ≤ rounds) :
    ∃ stop q log, (Ensemble.ofActions now p [(now, .play)]).run machine rounds =
        ⟨stop, q, [.done now stop (.over (some (Report.all log))) q]⟩ ∧
      Tally (p.enter .play).1 (p.enter .play).2 log q (.over (some (Report.all log))) ∧
      q.Ordered [] ∧ q.Voiced [] ∧ q.timeline = p.timeline ∧ q.cursor = p.total ∧
      p.timeline.stepReports = p.timeline.stepReports.take p.cursor ++ log := by
  -- What lasts is that the call came here by moves, whatever they have put into the log.
  have hlasting : Lasting fun q u => ∃ log, Tally (p.enter .play).1 (p.enter .play).2 log q u :=
    fun _ hmove ⟨_, htally⟩ => ⟨_, htally.snoc hmove⟩
  obtain ⟨stop, q, report, hrun, hordered, hvoiced', log, htally⟩ :=
    run_alone hlasting h hvoiced now .play ⟨[], .refl⟩ hrounds
  obtain ⟨htimeline, hcursor, hlog, rfl⟩ :=
    (htally.tells (h.enter (p.entered .play)) (tells_enter hidle hstatus)).2
  have htotal : q.total = p.total := congrArg Timeline.length htimeline
  have hsettled := hordered.settled fun s hs => nomatch hs
  exact ⟨stop, q, log, hrun, htally, hordered, hvoiced', htimeline,
    Nat.le_antisymm (htotal ▸ hsettled.cursor) (htotal ▸ hcursor), hlog⟩

end Player

end Storyboard
