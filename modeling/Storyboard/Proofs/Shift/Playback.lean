import Storyboard.Playback.Call
import Storyboard.Proofs.Ensemble.Carry
import Storyboard.Proofs.Shift.Narration
import Storyboard.Proofs.Shift.Stage

/-! # Shifted players

    A call to a shifted player does what it does to the player itself,
    shifted: it waits, goes on and returns at the same moments, counted from
    where the clock was, and with the same report. -/

namespace Storyboard

variable {σ : Shift} {now : Nat}

/-! ### What is under way -/

/-- What follows a step, at a later time. -/
def Tail.shift (σ : Shift) : Tail → Tail
  | .ahead => .ahead
  | .speaking s => .speaking (s.shift σ)
  | .dwelling time => .dwelling (time + σ.time)
  | .over => .over

/-- A step with a later ticket. -/
def Advance.shift (σ : Shift) : Advance → Advance
  | .queued ticket => .queued (ticket + σ.ticket)
  | .performing ticket place step p => .performing (ticket + σ.ticket) place step (p.shift σ)
  | .trailing ticket step report tail => .trailing (ticket + σ.ticket) step report (tail.shift σ)
  | .over report => .over report

/-- A rebuilding at a later time. -/
def Rebuild.shift (σ : Shift) : Rebuild → Rebuild
  | .performing goal p rest report => .performing goal (p.shift σ) rest report
  | .over report => .over report

namespace Player

/-- A call in a later epoch. -/
def Task.shift (σ : Shift) : Task → Task
  | .rewinding ticket goal => .rewinding (ticket + σ.ticket) goal
  | .rebuilding ticket r => .rebuilding (ticket + σ.ticket) (r.shift σ)
  | .wrapping ticket epoch => .wrapping (ticket + σ.ticket) (epoch + σ.epoch)
  | .rewrapping ticket epoch r => .rewrapping (ticket + σ.ticket) (epoch + σ.epoch) (r.shift σ)
  | .playing epoch report a => .playing (epoch + σ.epoch) report (a.shift σ)
  | .stepping epoch a => .stepping (epoch + σ.epoch) (a.shift σ)
  | .over report => .over report

/-- A player that was used before. -/
def shift (σ : Shift) (p : Player) : Player :=
  { p with
    stage := p.stage.shift σ
    narrator := p.narrator.shift σ
    epoch := p.epoch + σ.epoch
    gate := p.gate.shift σ.ticket }

/-- What came of a turn, shifted. -/
def shiftBoth {α : Type} (f : α → α) (σ : Shift) (x : Player × α) : Player × α :=
  (x.1.shift σ, f x.2)

variable (p : Player)

/-! ### Small changes -/

@[simp] theorem isCurrent_shift (epoch : Nat) :
    (p.shift σ).isCurrent (epoch + σ.epoch) = p.isCurrent epoch := by
  rw [Bool.eq_iff_iff]
  simp [isCurrent, shift]

@[simp] theorem status_shift : (p.shift σ).status = p.status := rfl

@[simp] theorem snapshot_shift : (p.shift σ).snapshot = p.snapshot := rfl

theorem renew_shift : (p.shift σ).renew = p.renew.shift σ := by
  simp only [renew, shift, Nat.add_right_comm]

theorem silence_shift : (p.shift σ).silence = p.silence.shift σ := by
  simp only [silence, shift, Narrator.stop_shift]

theorem halt_shift : (p.shift σ).halt = p.halt.shift σ := by
  rw [halt, show ({ p.shift σ with playing := false } : Player) =
    shift σ { p with playing := false } from rfl, renew_shift, silence_shift]
  rfl

theorem enqueue_shift : (p.shift σ).enqueue = (p.enqueue.1.shift σ, p.enqueue.2 + σ.ticket) := by
  simp only [enqueue, shift, Line.join_shift]

theorem leave_shift (ticket : Nat) :
    (p.shift σ).leave (ticket + σ.ticket) = (p.leave ticket).shift σ := by
  simp only [leave, shift, Line.leave_shift]

theorem leads_shift (ticket : Nat) :
    (p.shift σ).gate.leads (ticket + σ.ticket) = p.gate.leads ticket := Line.leads_shift p.gate

theorem toss_shift : (p.shift σ).toss = (p.toss.1.shift σ, p.toss.2) := rfl

/-! ### Steps -/

theorem dwell_shift (step : Step) :
    (p.shift σ).dwell (now + σ.time) step = (p.dwell now step).shift σ := by
  simp only [dwell, show (p.shift σ).speed = p.speed from rfl, Wait.endOf_shift,
    Nat.add_le_add_iff_right]
  generalize Wait.endOf now (step.dwell p.speed) = time
  split <;> rfl

theorem settleSpeech_shift (step : Step) (x : Narrator × Speech) :
    (p.shift σ).settleSpeech (now + σ.time) step (x.1.shift σ, x.2.shift σ) =
      shiftBoth (Tail.shift σ) σ (p.settleSpeech now step x) := by
  obtain ⟨n, s⟩ := x
  have hspoken : ({ p.shift σ with narrator := n.shift σ } : Player) =
    shift σ { p with narrator := n } := rfl
  simp only [settleSpeech, hspoken, Speech.isOver_shift, dwell_shift, shiftBoth]
  split <;> rfl

theorem resumeTail_shift (step : Step) (t : Tail) :
    (p.shift σ).resumeTail (now + σ.time) step (t.shift σ) =
      shiftBoth (Tail.shift σ) σ (p.resumeTail now step t) := by
  cases t with
  | ahead =>
    simp only [Tail.shift, resumeTail]
    cases step.spoken? with
    | none => exact Prod.ext rfl (dwell_shift p step)
    | some text =>
      simp only [show (p.shift σ).narrator = p.narrator.shift σ from rfl, Narrator.speak_shift]
      exact settleSpeech_shift p step _
  | speaking s =>
    simp only [Tail.shift, resumeTail, show (p.shift σ).narrator = p.narrator.shift σ from rfl,
      Narrator.resume_shift]
    exact settleSpeech_shift p step _
  | dwelling time =>
    simp only [Tail.shift, resumeTail, Nat.add_le_add_iff_right, shiftBoth]
    split <;> rfl
  | «over» => rfl

theorem dropTail_shift (t : Tail) : (p.shift σ).dropTail (t.shift σ) = (p.dropTail t).shift σ := by
  cases t with
  | speaking s =>
    simp only [Tail.shift, dropTail, show (p.shift σ).narrator = p.narrator.shift σ from rfl,
      Narrator.abandon_shift]
    rfl
  | _ => rfl

theorem follow_shift (epoch : Nat) (step : Step) (t : Tail) :
    (p.shift σ).follow (epoch + σ.epoch) (now + σ.time) step (t.shift σ) =
      shiftBoth (Tail.shift σ) σ (p.follow epoch now step t) := by
  unfold follow
  rw [isCurrent_shift, toss_shift]
  cases p.isCurrent epoch with
  | true => exact resumeTail_shift p step t
  | false =>
    rcases p.toss with ⟨q, coin⟩
    cases coin with
    | false => exact Prod.ext (dropTail_shift q t) rfl
    | true =>
      simp only [Bool.false_eq_true, if_false, resumeTail_shift]
      rcases q.resumeTail now step t with ⟨r, t'⟩
      exact Prod.ext (dropTail_shift r t') rfl

theorem settleTail_shift (ticket : Nat) (step : Step) (report : Report) (t : Tail) :
    (p.shift σ).settleTail (ticket + σ.ticket) step report (t.shift σ) =
      shiftBoth (Advance.shift σ) σ (p.settleTail ticket step report t) := by
  cases t with
  | «over» => exact Prod.ext (leave_shift p ticket) rfl
  | _ => rfl

theorem settleStep_shift (epoch ticket place : Nat) (step : Step) (x : Stage × Performance) :
    (p.shift σ).settleStep (epoch + σ.epoch) (now + σ.time) (ticket + σ.ticket) place step
        (x.1.shift σ, x.2.shift σ) =
      shiftBoth (Advance.shift σ) σ (p.settleStep epoch now ticket place step x) := by
  obtain ⟨stage, perf⟩ := x
  unfold settleStep
  simp only [Performance.isOver_shift]
  cases perf.isOver with
  | false => rfl
  | true =>
    have hmoved : publish { p.shift σ with stage := stage.shift σ, cursor := place + 1 } =
      shift σ (publish { p with stage, cursor := place + 1 }) := rfl
    have hfollow : (shift σ (publish { p with stage, cursor := place + 1 })).follow
        (epoch + σ.epoch) (now + σ.time) step (Tail.ahead.shift σ) = shiftBoth (Tail.shift σ) σ
          ((publish { p with stage, cursor := place + 1 }).follow epoch now step .ahead) :=
      follow_shift _ epoch step .ahead
    simp only [if_true, Performance.report_shift, hmoved]
    rw [show Tail.ahead = Tail.ahead.shift σ from rfl, hfollow]
    exact settleTail_shift _ ticket step perf.report _

theorem advance_shift (epoch : Nat) (a : Advance) :
    (p.shift σ).advance (epoch + σ.epoch) (now + σ.time) (a.shift σ) =
      shiftBoth (Advance.shift σ) σ (p.advance epoch now a) := by
  -- Whoever waits is let in by the gate and the epoch, which are shifted on both sides of the test.
  cases a with
  | queued ticket =>
    simp only [Advance.shift, advance, leads_shift, isCurrent_shift]
    cases p.gate.leads ticket with
    | false => rfl
    | true =>
      simp only [if_true, show (p.shift σ).timeline = p.timeline from rfl,
        show (p.shift σ).cursor = p.cursor from rfl]
      cases p.isCurrent epoch with
      | false => exact Prod.ext (leave_shift p ticket) rfl
      | true =>
        cases p.timeline.steps[p.cursor]? with
        | none => exact Prod.ext (leave_shift p ticket) rfl
        | some step =>
          simp only [show (p.shift σ).stage = p.stage.shift σ from rfl, Performance.start_shift]
          exact settleStep_shift p epoch ticket p.cursor step _
  | performing ticket place step perf =>
    simp only [Advance.shift, advance, show (p.shift σ).stage = p.stage.shift σ from rfl,
      Performance.resume_shift]
    exact settleStep_shift p epoch ticket place step _
  | trailing ticket step report t =>
    simp only [Advance.shift, advance, follow_shift]
    exact settleTail_shift _ ticket step report _
  | «over» report => rfl

theorem beginStep_shift (epoch : Nat) :
    (p.shift σ).beginStep (epoch + σ.epoch) (now + σ.time) =
      shiftBoth (Advance.shift σ) σ (p.beginStep epoch now) := by
  simp only [beginStep, enqueue_shift]
  exact advance_shift p.enqueue.1 epoch (.queued p.enqueue.2)

/-! ### Rebuilding -/

theorem performLists_shift (goal : Nat) (report : Report) (lists : List (List Json)) :
    (p.shift σ).performLists (now + σ.time) goal report lists =
      shiftBoth (Rebuild.shift σ) σ (p.performLists now goal report lists) := by
  induction lists generalizing p report with
  | nil => rfl
  | cons commands rest ih =>
    simp only [performLists, show (p.shift σ).stage = p.stage.shift σ from rfl,
      Performance.start_shift, Performance.isOver_shift, Performance.report_shift]
    split
    · exact ih { p with stage := (Performance.start now .instant p.stage commands).1 } _
    · rfl

theorem rebuild_shift (goal : Nat) :
    (p.shift σ).rebuild (now + σ.time) goal =
      shiftBoth (Rebuild.shift σ) σ (p.rebuild now goal) :=
  performLists_shift { p with stage := p.stage.reset now } _ _ _

theorem resumeRebuild_shift (r : Rebuild) :
    (p.shift σ).resumeRebuild (now + σ.time) (r.shift σ) =
      shiftBoth (Rebuild.shift σ) σ (p.resumeRebuild now r) := by
  cases r with
  | performing goal perf rest report =>
    simp only [Rebuild.shift, resumeRebuild, show (p.shift σ).stage = p.stage.shift σ from rfl,
      Performance.resume_shift, Performance.isOver_shift, Performance.report_shift]
    split
    · exact performLists_shift { p with stage := (perf.resume now p.stage).1 } goal _ rest
    · rfl
  | «over» report => rfl

/-! ### Calls -/

theorem settleRebuild_shift (ticket : Nat) (r : Rebuild) :
    (p.shift σ).settleRebuild (ticket + σ.ticket) (r.shift σ) =
      shiftBoth (Task.shift σ) σ (p.settleRebuild ticket r) := by
  cases r with
  | performing goal perf rest report => rfl
  | «over» report => exact Prod.ext (leave_shift p.publish ticket) rfl

theorem rewind_shift (ticket : Nat) (goal : Goal) :
    (p.shift σ).rewind (now + σ.time) (ticket + σ.ticket) goal =
      shiftBoth (Task.shift σ) σ (p.rewind now ticket goal) := by
  unfold rewind
  rw [leads_shift]
  cases p.gate.leads ticket with
  | false => rfl
  | true =>
    cases goal with
    | load timeline =>
      simp only [if_true]
      rw [show ({ p.shift σ with timeline } : Player) = shift σ { p with timeline } from rfl,
        rebuild_shift]
      exact settleRebuild_shift _ ticket _
    | seek place =>
      simp only [if_true, rebuild_shift]
      exact settleRebuild_shift _ ticket _

theorem goTo_shift (goal : Goal) :
    (p.shift σ).goTo (now + σ.time) goal = shiftBoth (Task.shift σ) σ (p.goTo now goal) := by
  simp only [goTo, halt_shift, enqueue_shift]
  exact rewind_shift p.halt.enqueue.1 p.halt.enqueue.2 goal

theorem finishPlay_shift (epoch : Nat) (report : Report) :
    (p.shift σ).finishPlay (epoch + σ.epoch) report =
      shiftBoth (Task.shift σ) σ (p.finishPlay epoch report) := by
  unfold finishPlay
  rw [isCurrent_shift]
  cases p.isCurrent epoch with
  | false => rfl
  | true =>
    refine Prod.ext ?_ rfl
    exact congrArg publish (silence_shift { p with playing := false })

theorem playSteps_shift (epoch : Nat) (report : Report) (most : Nat) :
    (p.shift σ).playSteps (epoch + σ.epoch) (now + σ.time) report most =
      shiftBoth (Task.shift σ) σ (p.playSteps epoch now report most) := by
  induction most generalizing p report with
  | zero => exact finishPlay_shift p epoch report
  | succ most ih =>
    simp only [playSteps, isCurrent_shift, beginStep_shift]
    cases p.isCurrent epoch with
    | false => exact finishPlay_shift p epoch report
    | true =>
      rcases p.beginStep epoch now with ⟨q, a⟩
      cases a with
      | «over» r =>
        cases r with
        | none => exact finishPlay_shift q epoch report
        | some r => exact ih q _
      | _ => rfl

theorem playOn_shift (epoch : Nat) (report : Report) :
    (p.shift σ).playOn (epoch + σ.epoch) (now + σ.time) report =
      shiftBoth (Task.shift σ) σ (p.playOn epoch now report) :=
  playSteps_shift p epoch report _

theorem resumePlay_shift (epoch : Nat) (report : Report) (a : Advance) :
    (p.shift σ).resumePlay (epoch + σ.epoch) (now + σ.time) report (a.shift σ) =
      shiftBoth (Task.shift σ) σ (p.resumePlay epoch now report a) := by
  simp only [resumePlay, advance_shift]
  rcases p.advance epoch now a with ⟨q, b⟩
  cases b with
  | «over» r =>
    cases r with
    | none => exact finishPlay_shift q epoch report
    | some r => exact playOn_shift q epoch _
  | _ => rfl

theorem beginPlay_shift (epoch : Nat) (report : Report) :
    (p.shift σ).beginPlay (epoch + σ.epoch) (now + σ.time) report =
      shiftBoth (Task.shift σ) σ (p.beginPlay epoch now report) :=
  playOn_shift (publish { p with playing := true }) epoch report

theorem settleWrap_shift (ticket epoch : Nat) (r : Rebuild) :
    (p.shift σ).settleWrap (now + σ.time) (ticket + σ.ticket) (epoch + σ.epoch) (r.shift σ) =
      shiftBoth (Task.shift σ) σ (p.settleWrap now ticket epoch r) := by
  cases r with
  | performing goal perf rest report => rfl
  | «over» report =>
    simp only [Rebuild.shift, settleWrap, leave_shift]
    exact beginPlay_shift (p.leave ticket) epoch _

theorem wrap_shift (ticket epoch : Nat) :
    (p.shift σ).wrap (now + σ.time) (ticket + σ.ticket) (epoch + σ.epoch) =
      shiftBoth (Task.shift σ) σ (p.wrap now ticket epoch) := by
  simp only [wrap, leads_shift, isCurrent_shift, rebuild_shift]
  cases p.gate.leads ticket with
  | false => rfl
  | true =>
    cases p.isCurrent epoch with
    | false => exact Prod.ext (leave_shift p ticket) rfl
    | true => exact settleWrap_shift _ ticket epoch _

theorem play_shift : (p.shift σ).play (now + σ.time) =
    shiftBoth (Task.shift σ) σ (p.play now) := by
  unfold play
  simp only [show (p.shift σ).playing = p.playing from rfl, renew_shift, status_shift]
  cases p.playing with
  | true => rfl
  | false =>
    simp only [Bool.false_eq_true, if_false, enqueue_shift]
    split
    · exact wrap_shift p.renew.enqueue.1 p.renew.enqueue.2 p.renew.enqueue.1.epoch
    · exact beginPlay_shift p.renew p.renew.epoch .empty

theorem settleAdvance_shift (epoch : Nat) (a : Advance) :
    (p.shift σ).settleAdvance (epoch + σ.epoch) (a.shift σ) =
      shiftBoth (Task.shift σ) σ (p.settleAdvance epoch a) := by
  cases a <;> rfl

theorem stepForward_shift : (p.shift σ).stepForward (now + σ.time) =
    shiftBoth (Task.shift σ) σ (p.stepForward now) := by
  simp only [stepForward, show (p.shift σ).epoch = p.epoch + σ.epoch from rfl, beginStep_shift]
  exact settleAdvance_shift _ p.epoch _

theorem start_shift (call : Call) :
    (p.shift σ).start (now + σ.time) call = shiftBoth (Task.shift σ) σ (p.start now call) := by
  cases call with
  | load t => exact goTo_shift p (.load t)
  | play => exact play_shift p
  | pause =>
    refine Prod.ext ?_ rfl
    exact congrArg publish (halt_shift p)
  | stepForward => exact stepForward_shift p
  | stepBackward =>
    simp only [start, stepBackward, show (p.shift σ).cursor = p.cursor from rfl]
    split
    · rfl
    · exact goTo_shift p _
  | seek place => exact goTo_shift p (.seek place)
  | restart => exact goTo_shift p (.seek 0)
  | setSpeed s => rfl
  | cycleSpeed => rfl

theorem resume_shift (t : Task) :
    (p.shift σ).resume (now + σ.time) (t.shift σ) =
      shiftBoth (Task.shift σ) σ (p.resume now t) := by
  cases t with
  | rewinding ticket goal => exact rewind_shift p ticket goal
  | rebuilding ticket r =>
    simp only [Task.shift, resume, resumeRebuild_shift]
    exact settleRebuild_shift _ ticket _
  | wrapping ticket epoch => exact wrap_shift p ticket epoch
  | rewrapping ticket epoch r =>
    simp only [Task.shift, resume, resumeRebuild_shift]
    exact settleWrap_shift _ ticket epoch _
  | playing epoch report a => exact resumePlay_shift p epoch report a
  | stepping epoch a =>
    simp only [Task.shift, resume, advance_shift]
    exact settleAdvance_shift _ epoch _
  | «over» report => rfl

/-! ### When calls go on -/

theorem isReady_shift_tail (n : Narrator) (t : Tail) :
    (t.shift σ).isReady (now + σ.time) (n.shift σ) = t.isReady now n := by
  cases t with
  | speaking s => exact Speech.isReady_shift n s
  | dwelling time => simp only [Tail.shift, Tail.isReady, Nat.add_le_add_iff_right]
  | _ => rfl

theorem due?_shift_tail (t : Tail) : (t.shift σ).due? = t.due?.map (· + σ.time) := by
  cases t with
  | speaking s => exact Speech.due?_shift s
  | _ => rfl

theorem isReady_shift_advance (epoch : Nat) (a : Advance) :
    (a.shift σ).isReady (epoch + σ.epoch) (now + σ.time) (p.shift σ) = a.isReady epoch now p := by
  cases a with
  | queued ticket => exact leads_shift p ticket
  | performing ticket place step perf => exact Performance.isReady_shift perf
  | trailing ticket step report t =>
    simp only [Advance.shift, Advance.isReady, isCurrent_shift,
      show (p.shift σ).narrator = p.narrator.shift σ from rfl, isReady_shift_tail]
  | «over» report => rfl

theorem due?_shift_advance (a : Advance) : (a.shift σ).due? = a.due?.map (· + σ.time) := by
  cases a with
  | performing ticket place step perf => exact Performance.due?_shift perf
  | trailing ticket step report t => exact due?_shift_tail t
  | _ => rfl

theorem isReady_shift_rebuild (r : Rebuild) :
    (r.shift σ).isReady (now + σ.time) = r.isReady now := by
  cases r with
  | performing goal perf rest report => exact Performance.isReady_shift perf
  | «over» report => rfl

theorem due?_shift_rebuild (r : Rebuild) : (r.shift σ).due? = r.due?.map (· + σ.time) := by
  cases r with
  | performing goal perf rest report => exact Performance.due?_shift perf
  | «over» report => rfl

/-- Calls to a shifted player go as they do to the player itself, so much later. -/
theorem carries_shift (σ : Shift) : machine.Carries machine σ.time (shift σ) (Task.shift σ) where
  start _ p call := start_shift p call
  resume _ p t := resume_shift p t
  isDone t := by cases t <;> rfl
  isReady now p t := by
    cases t with
    | rewinding ticket goal => exact leads_shift p ticket
    | rebuilding ticket r => exact isReady_shift_rebuild r
    | wrapping ticket epoch => exact leads_shift p ticket
    | rewrapping ticket epoch r => exact isReady_shift_rebuild r
    | playing epoch report a => exact isReady_shift_advance p epoch a
    | stepping epoch a => exact isReady_shift_advance p epoch a
    | «over» report => rfl
  due? t := by
    cases t with
    | rebuilding ticket r => exact due?_shift_rebuild r
    | rewrapping ticket epoch r => exact due?_shift_rebuild r
    | playing epoch report a => exact due?_shift_advance a
    | stepping epoch a => exact due?_shift_advance a
    | _ => rfl

end Player

end Storyboard
