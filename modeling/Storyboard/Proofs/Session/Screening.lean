import Storyboard.Proofs.Playback.Recount
import Storyboard.Proofs.Session.Calls
import Storyboard.Session.Rehearsal

/-! # Rehearsals and screenings

    A rehearsal performs a payload on a stage of its own, without time; a
    screening loads it into a session and plays it there. What becomes of a
    command is decided by the scene that those before it have left, so both
    report the same (`reports_as_rehearsed`). A screening that goes to a step
    instead performs the setup twice, and counts it twice (`counts_presented`). -/

namespace Storyboard

/-! ### Rehearsals -/

namespace Stage

variable {s : Stage}

/-- To rehearse commands is to perform them alone. -/
theorem Coherent.rehearse (hs : s.Coherent ∅) (now : Nat) (commands : List Json) :
    (s.rehearse now commands).1.Coherent ∅ ∧
      (s.rehearse now commands).1.scene = s.scene.after commands ∧
      (s.rehearse now commands).2 = s.scene.report commands := by
  obtain ⟨stop, s', p, hrun, hs', hscene, hreport⟩ :=
    hs.execute now .instant commands (Nat.lt_succ_self _)
  have hsame : s.rehearse now commands = (s', p.report) := by
    have hexecute : (Ensemble.ofActions now s [(now, .perform commands .instant)]).run machine
        (waitsOf commands + 1) = _ := hrun
    unfold Stage.rehearse
    rw [hexecute]
    rfl
  rw [hsame]
  exact ⟨hs', hscene, hreport⟩

theorem Coherent.reports_eq (hs : s.Coherent ∅) (now : Nat) (lists : List (List Json)) :
    Rehearsal.reports s now lists = s.scene.reports lists := by
  induction lists generalizing s with
  | nil => rfl
  | cons commands rest ih =>
    obtain ⟨hs', hscene, hreport⟩ := hs.rehearse now commands
    unfold Rehearsal.reports Scene.reports
    rw [← hscene, ← hreport, ← ih hs']

end Stage

namespace Rehearsal

/-- A rehearsal reports the setup and every step as the timeline says. -/
theorem ofPayload_eq (p : Payload) :
    ofPayload p = ⟨p.header, p.timeline.setupReport, p.timeline.stepReports⟩ := by
  obtain ⟨hs, hscene, hreport⟩ := Stage.coherent_empty.rehearse 0 p.timeline.setup
  have hsteps := hs.reports_eq 0 (p.timeline.steps.map (·.commands))
  unfold ofPayload
  dsimp only
  rw [hsteps, hscene, hreport]
  rfl

theorem total_eq (r : Rehearsal) : r.total = Report.all (r.setup :: r.steps) := by
  rw [total, Report.foldl_merge, Report.all_cons]

end Rehearsal

/-! ### One call of a session -/

namespace Session

open Ensemble

variable {s : Session} {a : Action} {c : Player.Call} {q : Player} {t : Player.Task}
  {stop now rounds : Nat} {payload : Payload}

/-- A call to the player goes on as it does without the session around it. -/
theorem mirrors_calling (header : Header) :
    Mirrors Player.machine machine (fun p => ⟨header, p⟩) Task.calling where
  resume _ _ _ := rfl
  isDone _ := rfl
  isReady _ _ _ := rfl
  due? _ := rfl

/-- An action that comes down to a call, alone, ends as that call does. -/
theorem run_call (hcall : a.call? = some c) (s : Session)
    (hrun : (ofActions now (a.prepare s).player [(now, c)]).run Player.machine rounds =
      ⟨stop, q, [.done now stop t q]⟩) :
    (ofActions now s [(now, a)]).run machine rounds = ⟨stop, ⟨(a.prepare s).header, q⟩,
      [.done now stop (.calling t) ⟨(a.prepare s).header, q⟩]⟩ :=
  run_solo_mirrors (mirrors_calling (a.prepare s).header) (start_of_call hcall s now) hrun

/-- To load a payload, alone, brings its header and its timeline, and reports the setup. -/
theorem run_load (h : s.player.Ordered []) (hvoiced : s.player.Voiced []) (now : Nat)
    (payload : Payload) (hrounds : payload.timeline.rounds ≤ rounds) :
    ∃ stop q, (ofActions now s [(now, .load payload)]).run machine rounds =
        ⟨stop, ⟨payload.header, q⟩, [.done now stop
          (.calling (.over (some payload.timeline.setupReport))) ⟨payload.header, q⟩]⟩ ∧
      q.Ordered [] ∧ q.Voiced [] ∧ q.timeline = payload.timeline ∧ q.cursor = 0 ∧
      q.playing = false := by
  have henter : s.player.silence.enter (.load payload.timeline) =
      (s.player.silence.halt.enqueue.1,
        .rewinding s.player.silence.halt.enqueue.2 (.load payload.timeline)) := rfl
  obtain ⟨stop, q, hrun, hq⟩ :=
    Player.run_rewinding h.silence hvoiced henter ⟨rfl, rfl⟩ now hrounds
  have hreport : Report.all (payload.timeline.reportsBefore 0) = payload.timeline.setupReport := by
    rw [Timeline.reportsBefore, List.take_zero, Report.all_cons, Report.all_nil, Report.merge_empty]
  rw [hreport] at hrun
  exact ⟨stop, q, run_call (a := .load payload) rfl s hrun, hq⟩

end Session

/-! ### Screenings -/

namespace Screening

open Ensemble Session

variable {s : Screening} {payload : Payload} {action : Action} {rounds stop : Nat}
  {world : Session} {report : Report}

theorem perform_eq (hrun : (ofActions s.now s.session [(s.now, action)]).run Session.machine
    rounds = ⟨stop, world, [.done s.now stop (.calling (.over (some report))) world]⟩) :
    s.perform rounds action = ⟨stop, world, s.report.merge report⟩ := by
  unfold perform
  rw [hrun]
  rfl

/-- A payload that is loaded while nobody calls. -/
structure Loaded (payload : Payload) (s : Screening) : Prop where
  ordered  : s.session.player.Ordered []
  voiced   : s.session.player.Voiced []
  header   : s.session.header = payload.header
  timeline : s.session.player.timeline = payload.timeline
  cursor   : s.session.player.cursor = 0
  silent   : s.session.player.playing = false
  report   : s.report = payload.timeline.setupReport

theorem Loaded.of_idle {w : Session} (h : w.player.Ordered []) (hvoiced : w.player.Voiced [])
    (now : Nat) (payload : Payload) :
    Loaded payload ((⟨now, w, .empty⟩ : Screening).perform payload.timeline.rounds
      (.load payload)) := by
  obtain ⟨stop, q, hrun, hordered, hvoiced', htimeline, hcursor, hsilent⟩ :=
    run_load h hvoiced now payload (Nat.le_refl _)
  rw [perform_eq (s := ⟨now, w, .empty⟩) hrun]
  exact ⟨hordered, hvoiced', rfl, htimeline, hcursor, hsilent, Report.empty_merge _⟩

theorem Loaded.not_finished (h : Loaded payload s) :
    s.session.player.renew.status ≠ .finished := by
  have hplaying : s.session.player.renew.playing = false := h.silent
  have hcursor : s.session.player.renew.cursor = 0 := h.cursor
  unfold Player.status
  rw [hplaying, if_neg Bool.false_ne_true, if_neg (by omega), if_pos hcursor]
  exact nofun

/-- To play what is loaded comes to its end with the report of every step, each performed on the
    scene that those before it leave. -/
theorem Loaded.play (h : Loaded payload s) :
    (s.present none).report = s.report.merge (Report.all payload.timeline.stepReports) ∧
      (s.present none).session.header = payload.header ∧
      (s.present none).session.player.cursor = payload.timeline.length ∧
      Player.Tally (s.session.player.enter .play).1 (s.session.player.enter .play).2
        payload.timeline.stepReports (s.present none).session.player
        (.over (some (Report.all payload.timeline.stepReports))) := by
  obtain ⟨stop, q, log, hrun, htally, _, _, _, hcursor, hlog⟩ := Player.run_play h.ordered
    h.voiced h.silent h.not_finished s.now (Nat.le_refl s.session.player.timeline.rounds)
  -- The cursor was at the start, so the log has the reports of all steps.
  rw [h.cursor, List.take_zero, List.nil_append, h.timeline] at hlog
  subst hlog
  have hpresent : s.present none = ⟨stop, ⟨s.session.header, q⟩, _⟩ :=
    perform_eq (run_call (a := .call .play) rfl s.session hrun)
  rw [hpresent]
  exact ⟨rfl, h.header, hcursor.trans (congrArg Timeline.length h.timeline), htally⟩

/-- Whenever a call to play makes its moves, it comes to its end with these reports. -/
theorem Loaded.tally (h : Loaded payload s) {log : List Report} {q : Player}
    {o : Option Report} (htally : Player.Tally (s.session.player.enter .play).1
      (s.session.player.enter .play).2 log q (.over o)) :
    log = payload.timeline.stepReports ∧ o = some (Report.all payload.timeline.stepReports) := by
  have htells := Player.tells_enter h.silent h.not_finished
  rw [h.cursor, List.take_zero, h.timeline] at htells
  obtain ⟨_, _, hlog, ho⟩ := (htally.tells (h.ordered.enter (s.session.player.entered .play))
    htells).2
  rw [List.nil_append] at hlog
  exact ⟨hlog.symm, hlog ▸ ho⟩

/-- To go to a step of what is loaded reports the setup once more, and the steps before that one. -/
theorem Loaded.seek (h : Loaded payload s) (place : Nat) :
    (s.present (some place)).report =
        s.report.merge (Report.all (payload.timeline.reportsBefore place)) ∧
      (s.present (some place)).session.player.cursor = min place payload.timeline.length := by
  have henter : s.session.player.enter (.seek place) = (s.session.player.halt.enqueue.1,
      .rewinding s.session.player.halt.enqueue.2 (.seek place)) := rfl
  obtain ⟨stop, q, hrun, _, _, _, hcursor, _⟩ := Player.run_rewinding h.ordered h.voiced henter
    ⟨h.timeline, rfl⟩ s.now (Nat.le_refl s.session.player.timeline.rounds)
  have htotal : s.session.player.total = payload.timeline.length :=
    congrArg Timeline.length h.timeline
  have hpresent : s.present (some place) = ⟨stop, ⟨s.session.header, q⟩, _⟩ :=
    perform_eq (run_call (a := .call (.seek place)) rfl s.session hrun)
  rw [hpresent, htotal, Timeline.reportsBefore_min]
  exact ⟨rfl, hcursor.trans (congrArg (min place) htotal)⟩

/-! ### What is printed -/

/-- A payload that is loaded while nobody calls, and then played without interruption, has the
    setup and every step report what they report in a rehearsal, commands that are skipped and the
    reasons included, at whatever times the call to play goes on. Both totals are the same. -/
theorem reports_as_rehearsed (equipment : Narration.Equipment) (tosses coins : List Bool)
    (start : Nat) (events : List (Event Action))
    (hidle : Idle ((alone start (ofNarrator (.ofEquipment equipment tosses) coins)).after
      Session.machine events)) (now : Nat) (payload : Payload) :
    let w := ((alone start (ofNarrator (.ofEquipment equipment tosses) coins)).after
      Session.machine events).world
    let r := Rehearsal.ofPayload payload
    let loaded := (⟨now, w, .empty⟩ : Screening).perform payload.timeline.rounds (.load payload)
    let played := loaded.present none
    let first := loaded.session.player.enter .play
    loaded.report = r.setup ∧
      Player.Tally first.1 first.2 r.steps played.session.player
        (.over (some (Report.all r.steps))) ∧
      (∀ log q o, Player.Tally first.1 first.2 log q (.over o) →
        log = r.steps ∧ o = some (Report.all r.steps)) ∧
      played.report = r.total ∧ played.session.header = r.header ∧
      played.session.player.cursor = r.steps.length := by
  intro w r loaded played first
  have hloaded : Loaded payload loaded :=
    .of_idle (ordered_of_idle _ coins start events hidle)
      (lines_of_idle equipment tosses coins start events hidle) now payload
  have hr : r = ⟨payload.header, payload.timeline.setupReport, payload.timeline.stepReports⟩ :=
    Rehearsal.ofPayload_eq payload
  -- What a command reports is decided by the scene it finds, and the scene at each step is that of
  -- the timeline, at whatever time it begins.
  obtain ⟨hreport, hheader, hcursor, htally⟩ := hloaded.play
  rw [Rehearsal.total_eq, hr]
  refine ⟨hloaded.report, htally, fun log q o => hloaded.tally, ?_, hheader, ?_⟩
  · rw [Report.all_cons, ← hloaded.report]
    exact hreport
  · exact hcursor.trans payload.timeline.length_stepReports.symm

/-- A step that is performed on what the setup leaves, with a command that is skipped. -/
theorem reports_as_rehearsed_step :
    let node : Json := .obj [("id", .str "a"), ("position", .obj [("x", .int 0), ("y", .int 0)])]
    let payload : Payload := ⟨none, none, none, some ⟨[node], []⟩,
      [⟨[.obj [("command", .str "DELETE_EDGE"), ("id", .str "a")]], none, some (.ofMillis 100)⟩]⟩
    let s := ofNarrator (.ofEquipment .usual []) []
    let e := (alone 0 s).after Session.machine [.join 0 (.call .play), .turn 0 0]
    let r := Rehearsal.ofPayload payload
    let loaded := (⟨0, e.world, .empty⟩ : Screening).perform payload.timeline.rounds (.load payload)
    Idle e ∧ r.total.text = "1 commands applied, 1 skipped" ∧ loaded.report = r.setup ∧
      (loaded.present none).report = r.total := by
  intro node payload s e r loaded
  have hidle : Idle e := List.isEmpty_iff.1 (by decide +kernel)
  subst e s
  obtain ⟨hsetup, _, _, htotal, _⟩ :=
    reports_as_rehearsed .usual [] [] 0 [.join 0 (.call .play), .turn 0 0] hidle 0 payload
  exact ⟨hidle, by decide +kernel, hsetup, htotal⟩

/-- A payload that is loaded while nobody calls: played to its end, every command is counted once.
    Taken to a step, the setup is performed for a second time, and its commands are counted twice,
    while those of the steps before are counted once. -/
theorem counts_presented (equipment : Narration.Equipment) (tosses coins : List Bool)
    (start : Nat) (events : List (Event Action))
    (hidle : Idle ((alone start (ofNarrator (.ofEquipment equipment tosses) coins)).after
      Session.machine events)) (now : Nat) (payload : Payload) :
    let w := ((alone start (ofNarrator (.ofEquipment equipment tosses) coins)).after
      Session.machine events).world
    let r := Rehearsal.ofPayload payload
    let t := payload.timeline
    let loaded := (⟨now, w, .empty⟩ : Screening).perform t.rounds (.load payload)
    ((loaded.present none).report = r.total ∧
      (loaded.present none).report.count = t.commandsBefore t.length) ∧
    ∀ place,
      (loaded.present (some place)).report =
        r.setup.merge (Report.all (r.setup :: r.steps.take place)) ∧
      (loaded.present (some place)).report.count = t.setup.length + t.commandsBefore place ∧
      (loaded.present (some place)).session.player.cursor = min place t.length := by
  intro w r t loaded
  have hloaded : Loaded payload loaded :=
    .of_idle (ordered_of_idle _ coins start events hidle)
      (lines_of_idle equipment tosses coins start events hidle) now payload
  have hr : r = ⟨payload.header, t.setupReport, t.stepReports⟩ := Rehearsal.ofPayload_eq payload
  have hplayed : (loaded.present none).report = Report.all (t.reportsBefore t.length) := by
    rw [hloaded.play.1, hloaded.report, Timeline.reportsBefore_length, Report.all_cons]
  refine ⟨⟨?_, ?_⟩, fun place => ?_⟩
  · rw [hplayed, Rehearsal.total_eq, hr, Timeline.reportsBefore_length]
  · rw [hplayed, Timeline.count_reportsBefore]
  · -- The report of the load holds the setup already, and seeking rebuilds from it once more.
    obtain ⟨hreport, hcursor⟩ := hloaded.seek place
    rw [hloaded.report] at hreport
    refine ⟨?_, ?_, hcursor⟩
    · rw [hreport, hr]
      rfl
    · rw [hreport, Report.count_merge, Timeline.count_reportsBefore]
      exact congrArg (· + _) (Scene.empty.count_report t.setup)

/-- One node and one step, up to the step. -/
theorem counts_presented_node :
    let node : Json := .obj [("id", .str "a"), ("position", .obj [("x", .int 0), ("y", .int 0)])]
    let payload : Payload := ⟨none, none, none, some ⟨[node], []⟩, [⟨[], none, none⟩]⟩
    let s := ofNarrator (.ofEquipment .usual []) []
    let e := (alone 0 s).after Session.machine [.join 0 (.call .play), .turn 0 0]
    let loaded := (⟨0, e.world, .empty⟩ : Screening).perform payload.timeline.rounds (.load payload)
    Idle e ∧ (loaded.present none).report.count = payload.timeline.commandsBefore 1 ∧
      (loaded.present (some 0)).report.count = 1 + payload.timeline.commandsBefore 0 := by
  intro node payload s e loaded
  have hidle : Idle e := List.isEmpty_iff.1 (by decide +kernel)
  subst e s
  obtain ⟨⟨_, hplayed⟩, hplace⟩ :=
    counts_presented .usual [] [] 0 [.join 0 (.call .play), .turn 0 0] hidle 0 payload
  exact ⟨hidle, hplayed, (hplace 0).2.1⟩

/-- The one node that is there before the first step is counted twice where that step is gone to. -/
theorem node_counted_twice :
    let node : Json := .obj [("id", .str "a"), ("position", .obj [("x", .int 0), ("y", .int 0)])]
    let payload : Payload := ⟨none, none, none, some ⟨[node], []⟩, [⟨[], none, none⟩]⟩
    let loaded := Screening.load (ofNarrator (.ofEquipment .usual []) []) payload
    (loaded.present (some 0)).report.count = 2 ∧ payload.timeline.commandsBefore 0 = 1 ∧
      (loaded.present none).report.count = 1 ∧ (Rehearsal.ofPayload payload).total.count = 1 := by
  decide +kernel

end Screening

end Storyboard
