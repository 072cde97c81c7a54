import Storyboard.Proofs.Playback.Move
import Storyboard.Proofs.Playback.Status
import Storyboard.Proofs.Stage.Readiness

/-! # Turns are moves

    What a call does when it begins and whenever it goes on comes of single
    moves (`comes_start`, `comes_resume`), of at least one if it can go on.
    Afterwards the call has returned or has something to wait for (`Rests`).
    What every move keeps is kept by every turn. -/

namespace Storyboard

/-! ### What is under way -/

/-- The step has something to wait for. -/
def Advance.Rests : Advance → Prop
  | .queued _ => True
  | .performing _ _ _ perf => perf.isOver = false
  | .trailing _ _ _ tail => tail.Rests
  | .over _ => False

/-- The rebuilding has something to wait for, and that is its next turn. -/
def Rebuild.Rests : Rebuild → Prop
  | .performing _ perf _ _ => perf.isOver = false ∧ perf.Instant
  | .over _ => False

/-- The call has returned or has something to wait for. -/
def Player.Task.Rests : Task → Prop
  | .rebuilding _ r => r.Rests
  | .rewrapping _ _ r => r.Rests
  | .playing _ _ a => a.Rests
  | .stepping _ a => a.Rests
  | _ => True

namespace Player

variable {p q : Player} {t u : Task} {deeds : List Deed} {moved : Bool}
  {epoch now ticket place : Nat}
  {step : Step} {x : Player × Task} {a b : Advance} {y : Player × Advance} {r : Rebuild}

/-! ### Staying where it is -/

/-- A rebuilding under way can always go on. -/
theorem isReady_of_rests (h : r.Rests) (now : Nat) : r.isReady now = true := by
  cases r with
  | «over» report => exact h.elim
  | performing goal perf rest report => exact h.2.isReady h.1 now

/-- A step that cannot go on stays where it is. -/
theorem advance_of_not_ready (hready : a.isReady epoch now p = false) (ha : a.Rests) :
    p.advance epoch now a = (p, a) := by
  cases a with
  | queued ticket =>
    have hleads : p.gate.leads ticket = false := hready
    simp only [advance, hleads, Bool.false_eq_true, ↓reduceIte]
  | performing ticket place step perf =>
    have hsame : perf.resume now p.stage = (p.stage, perf) :=
      Performance.resume_of_not_ready hready
    simp only [advance, hsame]
    exact settleStep_of_not_over ha p epoch now ticket place step
  | trailing ticket step report tail =>
    have hrests : tail.Rests := ha
    simp only [advance, follow_of_not_ready hready hrests]
    cases tail with
    | «over» => exact hrests.elim
    | _ => rfl
  | «over» report => rfl

/-- A call that cannot go on stays where it is. -/
theorem resume_of_not_ready (hready : t.isReady now p = false) (ht : t.Rests) :
    p.resume now t = (p, t) := by
  -- A rebuilding that rests is always ready to go on; all others wait for the gate or a time.
  cases t with
  | rewinding ticket goal =>
    have hleads : p.gate.leads ticket = false := hready
    simp only [resume, rewind, hleads, Bool.false_eq_true, ↓reduceIte]
  | rebuilding ticket r =>
    have hr : r.isReady now = false := hready
    rw [isReady_of_rests ht now] at hr
    cases hr
  | wrapping ticket epoch =>
    have hleads : p.gate.leads ticket = false := hready
    simp only [resume, wrap, hleads, Bool.false_eq_true, ↓reduceIte]
  | rewrapping ticket epoch r =>
    have hr : r.isReady now = false := hready
    rw [isReady_of_rests ht now] at hr
    cases hr
  | playing epoch report a =>
    have hsame : p.advance epoch now a = (p, a) := advance_of_not_ready hready ht
    simp only [resume, resumePlay, hsame]
    cases a with
    | «over» report => exact ht.elim
    | _ => rfl
  | stepping epoch a =>
    have hsame : p.advance epoch now a = (p, a) := advance_of_not_ready hready ht
    simp only [resume, hsame]
    cases a with
    | «over» report => exact ht.elim
    | _ => rfl
  | «over» report => rfl

/-! ### Turns of a step -/

/-- A step comes by moves, and by at least one if it `moved`, to where it is over or has something
    to wait for. -/
def Reaches (epoch now : Nat) (p : Player) (a : Advance) (moved : Bool)
    (y : Player × Advance) : Prop :=
  (y.2.Rests ∨ ∃ report, y.2 = .over report) ∧
    ∃ n deeds, moved.toNat ≤ n ∧ Path (Strides epoch now) n p a deeds y.1 y.2

theorem Reaches.head (h : Strides epoch now p a deeds q b) (hs : Reaches epoch now q b moved y) :
    Reaches epoch now p a true y := by
  obtain ⟨hrests, n, more, _, hpath⟩ := hs
  exact ⟨hrests, n + 1, deeds ++ more, Nat.succ_le_succ (Nat.zero_le n), .head h hpath⟩

theorem Reaches.of_rests (h : a.Rests) : Reaches epoch now p a false (p, a) :=
  ⟨.inl h, 0, [], Nat.le_refl _, .refl⟩

theorem Reaches.of_over {report : Option Report} :
    Reaches epoch now p (.over report) false (p, .over report) :=
  ⟨.inr ⟨report, rfl⟩, 0, [], Nat.le_refl _, .refl⟩

theorem reaches_follow (report : Report) {tail : Tail} (htail : tail = .ahead ∨ tail.Rests)
    (hready : (!p.isCurrent epoch || tail.isReady now p.narrator) = true) :
    Reaches epoch now p (.trailing ticket step report tail) true
      ((p.follow epoch now step tail).1.settleTail ticket step report
        (p.follow epoch now step tail).2) := by
  have hrests := rests_follow p epoch now step htail
  have hmove : Strides epoch now p (.trailing ticket step report tail) []
      (p.follow epoch now step tail).1
      (.trailing ticket step report (p.follow epoch now step tail).2) := .follow htail hready
  rcases hx : p.follow epoch now step tail with ⟨q, tail'⟩
  rw [hx] at hrests hmove
  rcases hrests with hover | hrests
  · obtain rfl : tail' = .over := hover
    exact .head hmove (.head .finish .of_over)
  · cases tail' with
    | speaking s => exact .head hmove (.of_rests hrests)
    | dwelling time => exact .head hmove (.of_rests trivial)
    | _ => exact hrests.elim

theorem reaches_settleStep {stage : Stage} {perf : Performance}
    (h : Strides epoch now p a deeds { p with stage } (.performing ticket place step perf)) :
    Reaches epoch now p a true (p.settleStep epoch now ticket place step (stage, perf)) := by
  unfold settleStep
  dsimp only
  cases hover : perf.isOver with
  | true =>
    exact .head h (.head (.proceed hover)
      (reaches_follow perf.report (.inl rfl) (Bool.or_true _)))
  | false => exact .head h (.of_rests hover)

theorem reaches_advance (p : Player) (epoch now : Nat) (ha : a.Rests) :
    Reaches epoch now p a (a.isReady epoch now p) (p.advance epoch now a) := by
  cases hready : a.isReady epoch now p with
  | false =>
    rw [advance_of_not_ready hready ha]
    exact .of_rests ha
  | true =>
    cases a with
    | queued ticket =>
      have hleads : p.gate.leads ticket = true := hready
      -- At the head of the gate a step begins, or there is none or the epoch is over.
      unfold advance
      dsimp only
      rw [if_pos hleads]
      split
      · next step hcurrent hstep =>
        exact reaches_settleStep (.begin hleads (beq_iff_eq.1 hcurrent) hstep)
      · next hnone =>
        refine .head (.pass hleads fun hepoch => ?_) .of_over
        cases hstep : p.timeline.steps[p.cursor]? with
        | none => rfl
        | some step => exact absurd hstep (hnone step (beq_iff_eq.2 hepoch))
    | performing ticket place step perf => exact reaches_settleStep (.perform hready)
    | trailing ticket step report tail => exact reaches_follow report (.inr ha) hready
    | «over» report => exact ha.elim

theorem timeline_settleStep (p : Player) (epoch now ticket place : Nat) (step : Step)
    (y : Stage × Performance) :
    (p.settleStep epoch now ticket place step y).1.timeline = p.timeline := by
  obtain ⟨stage, perf⟩ := y
  have htail : ∀ (q : Player) (report : Report) (tail : Tail),
      (q.settleTail ticket step report tail).1.timeline = q.timeline := by
    intro q report tail
    cases tail <;> rfl
  unfold settleStep
  dsimp only
  split
  · obtain ⟨narrator, coins, hfollow⟩ := narrated_follow
      (publish { p with stage, cursor := place + 1 }) epoch now step .ahead
    rw [htail, hfollow]
    rfl
  · rfl

/-- A step that was performed in one turn moved the cursor on by one. -/
theorem advance_queued_over {report : Report}
    (h : (p.advance epoch now (.queued ticket)).2 = .over (some report)) :
    p.cursor < p.total ∧ (p.advance epoch now (.queued ticket)).1.cursor = p.cursor + 1 ∧
      (p.advance epoch now (.queued ticket)).1.timeline = p.timeline := by
  unfold advance at h ⊢
  dsimp only at h ⊢
  split at h
  · next hleads =>
    rw [if_pos hleads]
    split at h
    · next step hcurrent hstep =>
      have hplace : p.cursor < p.total := (List.getElem?_eq_some_iff.1 hstep).1
      generalize Performance.start now .realtime p.stage step.commands = y at h ⊢
      have hover : y.2.isOver = true := by
        rw [← Bool.not_eq_false]
        intro hopen
        rw [show y = (y.1, y.2) from rfl, settleStep_of_not_over hopen] at h
        cases h
      exact ⟨hplace, cursor_settleStep hover p epoch now ticket p.cursor step,
        timeline_settleStep p epoch now ticket p.cursor step y⟩
    · cases h
  · cases h

/-! ### Turns of a call -/

/-- A call comes by moves, and by at least one if it `moved`, to where it has returned or has
    something to wait for. -/
def Comes (now : Nat) (p : Player) (t : Task) (moved : Bool) (x : Player × Task) : Prop :=
  x.2.Rests ∧ ∃ n deeds, moved.toNat ≤ n ∧ Moves now n p t deeds x.1 x.2

theorem Comes.of_rests (h : t.Rests) : Comes now p t false (p, t) :=
  ⟨h, 0, [], Nat.le_refl _, .refl⟩

theorem Comes.head (h : Move now p t deeds q u) (hs : Comes now q u moved x) :
    Comes now p t true x := by
  obtain ⟨hrests, n, more, _, hmoves⟩ := hs
  exact ⟨hrests, n + 1, deeds ++ more, Nat.succ_le_succ (Nat.zero_le n), .head h hmoves⟩

theorem Comes.weaken (h : Comes now p t moved x) : Comes now p t false x := by
  obtain ⟨hrests, n, deeds, _, hmoves⟩ := h
  exact ⟨hrests, n, deeds, Nat.zero_le n, hmoves⟩

/-- A step of the call comes to some place, and the call goes on from there. -/
theorem Comes.of_reaches {f : Advance → Task} {moved' : Bool}
    (hf : ∀ {p a deeds q b}, Strides epoch now p a deeds q b → Move now p (f a) deeds q (f b))
    (h : Reaches epoch now p a moved y) (hs : Comes now y.1 (f y.2) moved' x) :
    Comes now p (f a) moved x := by
  obtain ⟨_, n, deeds, hleast, hpath⟩ := h
  obtain ⟨hrests, m, more, _, hmoves⟩ := hs
  exact ⟨hrests, n + m, deeds ++ more, Nat.le_trans hleast (Nat.le_add_right n m),
    (hpath.map (S := Move now) (f := f) hf).trans hmoves⟩

/-! ### Going to a step -/

theorem comes_settleRebuild (h : Move now p t deeds q (.rebuilding ticket r))
    (hr : r.Rests ∨ ∃ report, r = .over report) :
    Comes now p t true (q.settleRebuild ticket r) := by
  rcases hr with hrests | ⟨report, rfl⟩
  · cases r with
    | «over» report => exact hrests.elim
    | performing goal perf rest report => exact .head h (.of_rests hrests)
  · exact .head h (.head .rebuilt (.of_rests trivial))

theorem rests_performLists (p : Player) (now goal : Nat) (report : Report)
    (lists : List (List Json)) : (p.performLists now goal report lists).2.Rests ∨
      ∃ report', (p.performLists now goal report lists).2 = .over report' := by
  induction lists generalizing p report with
  | nil => exact .inr ⟨report, rfl⟩
  | cons commands rest ih =>
    unfold performLists
    dsimp only
    cases hover : (Performance.start now .instant p.stage commands).2.isOver with
    | true =>
      rw [if_pos rfl]
      exact ih _ _
    | false => exact .inl ⟨hover, Performance.instant_start now p.stage commands⟩

theorem rests_rebuild (p : Player) (now goal : Nat) : (p.rebuild now goal).2.Rests ∨
    ∃ report, (p.rebuild now goal).2 = .over report :=
  rests_performLists { p with stage := p.stage.reset now } now _ .empty _

theorem rests_resumeRebuild (hr : r.Rests) (p : Player) (now : Nat) :
    (p.resumeRebuild now r).2.Rests ∨ ∃ report, (p.resumeRebuild now r).2 = .over report := by
  cases r with
  | «over» report => exact hr.elim
  | performing goal perf rest report =>
    unfold resumeRebuild
    dsimp only
    cases hover : (perf.resume now p.stage).2.isOver with
    | true =>
      rw [if_pos rfl]
      exact rests_performLists _ now goal _ rest
    | false => exact .inl ⟨hover, hr.2.resume now p.stage⟩

theorem comes_rewind (hleads : p.gate.leads ticket = true) (now : Nat) (goal : Goal) :
    Comes now p (.rewinding ticket goal) true (p.rewind now ticket goal) := by
  unfold rewind
  rw [if_pos hleads]
  cases goal with
  | load timeline =>
    exact comes_settleRebuild (.rewind hleads) (rests_rebuild { p with timeline } now 0)
  | seek place => exact comes_settleRebuild (.rewind hleads) (rests_rebuild p now place)

/-! ### Playing -/

theorem comes_stop {report r : Report} (hstale : p.epoch ≠ epoch) :
    Comes now p (.playing epoch report (.over (some r))) true
      (p.finishPlay epoch (report.merge r)) := by
  have hsame : p.finishPlay epoch (report.merge r) = (p, .over (some (report.merge r))) := by
    unfold finishPlay
    rw [if_neg (by simpa [isCurrent] using hstale)]
  rw [hsame]
  exact .head (.stop hstale) (.of_rests trivial)

theorem comes_finish {report : Report} :
    Comes now p (.playing epoch report (.over none)) true (p.finishPlay epoch report) :=
  .head .finish (.of_rests trivial)

/-- Playing goes on for as long as there are steps, so it is never ended by their number. -/
theorem comes_playSteps {report r : Report} {most : Nat} (hmost : p.total - p.cursor < most) :
    Comes now p (.playing epoch report (.over (some r))) true
      (p.playSteps epoch now (report.merge r) most) := by
  induction most generalizing p report r with
  | zero => exact absurd hmost (Nat.not_lt_zero _)
  | succ most ih =>
    unfold playSteps
    split
    · next hcurrent =>
      have hreaches := reaches_advance (a := .queued p.enqueue.2) p.enqueue.1 epoch now trivial
      -- A step that is over at once leads to the next one, with fewer to come. Everything else
      -- rests, and the call is ended there.
      have hfrom : ∀ {x}, Comes now _ _ false x →
          Comes now p (.playing epoch report (.over (some r))) true x := fun hs =>
        .head (.next (beq_iff_eq.1 hcurrent))
          (.of_reaches (f := Task.playing epoch (report.merge r)) .play hreaches hs)
      refine hfrom ?_
      obtain ⟨hrests, _⟩ := hreaches
      have hmoved : ∀ r', (p.enqueue.1.advance epoch now (.queued p.enqueue.2)).2 =
          .over (some r') → _ := fun _ => advance_queued_over
      unfold beginStep
      dsimp only
      rcases hx : p.enqueue.1.advance epoch now (.queued p.enqueue.2) with ⟨p', b⟩
      rw [hx] at hrests hmoved
      cases b with
      | «over» report' =>
        cases report' with
        | none => exact comes_finish.weaken
        | some r' =>
          obtain ⟨hbefore, hcursor, htimeline⟩ := hmoved r' rfl
          have hless : p.cursor < p.total := hbefore
          have hcursor : p'.cursor = p.cursor + 1 := hcursor
          have htotal : p'.total = p.total := congrArg Timeline.length htimeline
          refine (ih ?_).weaken
          show p'.total - p'.cursor < most
          omega
      | _ =>
        refine .of_rests ?_
        rcases hrests with hrests | ⟨_, hover⟩
        · exact hrests
        · cases hover
    · next hstale => exact comes_stop fun hepoch => hstale (beq_iff_eq.2 hepoch)

theorem comes_playOn {report r : Report} :
    Comes now p (.playing epoch report (.over (some r))) true
      (p.playOn epoch now (report.merge r)) :=
  comes_playSteps (Nat.lt_succ_self _)

theorem comes_resumePlay (p : Player) (epoch now : Nat) (report : Report) (ha : a.Rests) :
    Comes now p (.playing epoch report a) (a.isReady epoch now p)
      (p.resumePlay epoch now report a) := by
  have hreaches := reaches_advance p epoch now ha
  have hfrom : ∀ {x}, Comes now _ _ false x → Comes now p (.playing epoch report a) _ x :=
    fun hs => .of_reaches (f := Task.playing epoch report) .play hreaches hs
  refine hfrom ?_
  obtain ⟨hrests, _⟩ := hreaches
  unfold resumePlay
  rcases hx : p.advance epoch now a with ⟨p', b⟩
  rw [hx] at hrests
  cases b with
  | «over» report' =>
    cases report' with
    | none => exact comes_finish.weaken
    | some r => exact comes_playOn.weaken
  | _ =>
    refine .of_rests ?_
    rcases hrests with hrests | ⟨_, hover⟩
    · exact hrests
    · cases hover

theorem comes_settleWrap (h : Move now p t deeds q (.rewrapping ticket epoch r))
    (hr : r.Rests ∨ ∃ report, r = .over report) :
    Comes now p t true (q.settleWrap now ticket epoch r) := by
  rcases hr with hrests | ⟨report, rfl⟩
  · cases r with
    | «over» report => exact hrests.elim
    | performing goal perf rest report => exact .head h (.of_rests hrests)
  · exact .head h (.head .rewrapped comes_playOn)

theorem comes_wrap (hleads : p.gate.leads ticket = true) (now epoch : Nat) :
    Comes now p (.wrapping ticket epoch) true (p.wrap now ticket epoch) := by
  unfold wrap
  rw [if_pos hleads]
  split
  · next hcurrent =>
    exact comes_settleWrap (.wrap hleads (beq_iff_eq.1 hcurrent)) (rests_rebuild p now 0)
  · next hstale =>
    exact .head (.unwrap hleads fun hepoch => hstale (beq_iff_eq.2 hepoch)) (.of_rests trivial)

/-! ### Single steps -/

theorem comes_stepping (p : Player) (epoch now : Nat) (ha : a.Rests) :
    Comes now p (.stepping epoch a) (a.isReady epoch now p)
      ((p.advance epoch now a).1.settleAdvance epoch (p.advance epoch now a).2) := by
  have hreaches := reaches_advance p epoch now ha
  have hfrom : ∀ {x}, Comes now _ _ false x → Comes now p (.stepping epoch a) _ x :=
    fun hs => .of_reaches (f := Task.stepping epoch) .step hreaches hs
  refine hfrom ?_
  obtain ⟨hrests, _⟩ := hreaches
  rcases hx : p.advance epoch now a with ⟨p', b⟩
  rw [hx] at hrests
  cases b with
  | «over» report => exact (Comes.head .stepped (.of_rests trivial)).weaken
  | _ =>
    refine .of_rests ?_
    rcases hrests with hrests | ⟨_, hover⟩
    · exact hrests
    · cases hover

/-! ### All calls -/

/-- Every turn of a call but the first comes of moves. -/
theorem comes_resume (p : Player) (now : Nat) (ht : t.Rests) :
    Comes now p t (t.isReady now p) (p.resume now t) := by
  cases hready : t.isReady now p with
  | false =>
    rw [resume_of_not_ready hready ht]
    exact .of_rests ht
  | true =>
    -- Who is ready makes a move first, and what comes of it depends on what it was at.
    cases t with
    | rewinding ticket goal => exact comes_rewind hready now goal
    | rebuilding ticket r =>
      cases r with
      | «over» report => exact ht.elim
      | performing goal perf rest report =>
        have hr := rests_resumeRebuild (r := .performing goal perf rest report) ht p now
        rcases hx : p.resumeRebuild now (.performing goal perf rest report) with ⟨q, r⟩
        simp only [resume, hx]
        rw [hx] at hr
        exact comes_settleRebuild (.rebuild hready hx) hr
    | wrapping ticket epoch => exact comes_wrap hready now epoch
    | rewrapping ticket epoch r =>
      cases r with
      | «over» report => exact ht.elim
      | performing goal perf rest report =>
        have hr := rests_resumeRebuild (r := .performing goal perf rest report) ht p now
        rcases hx : p.resumeRebuild now (.performing goal perf rest report) with ⟨q, r⟩
        simp only [resume, hx]
        rw [hx] at hr
        exact comes_settleWrap (.rewrap hready hx) hr
    | playing epoch report a => exact hready ▸ comes_resumePlay p epoch now report ht
    | stepping epoch a => exact hready ▸ comes_stepping p epoch now ht
    | «over» report => cases hready

/-- What a call to play does first. -/
def enterPlay (p : Player) : Player × Task :=
  if p.playing then (p, .over (some .empty))
  else if p.renew.status = .finished then
    (p.renew.enqueue.1, .wrapping p.renew.enqueue.2 p.renew.epoch)
  else (publish { p.renew with playing := true },
    .playing p.renew.epoch .empty (.over (some .empty)))

/-- What a call does first, before its first move. -/
def enter (p : Player) : Call → Player × Task
  | .load t => (p.halt.enqueue.1, .rewinding p.halt.enqueue.2 (.load t))
  | .play => p.enterPlay
  | .pause => (p.halt.publish, .over none)
  | .stepForward => (p.enqueue.1, .stepping p.epoch (.queued p.enqueue.2))
  | .stepBackward =>
    match p.cursor with
    | 0 => (p, .over none)
    | place + 1 => (p.halt.enqueue.1, .rewinding p.halt.enqueue.2 (.seek place))
  | .seek place => (p.halt.enqueue.1, .rewinding p.halt.enqueue.2 (.seek place))
  | .restart => (p.halt.enqueue.1, .rewinding p.halt.enqueue.2 (.seek 0))
  | .setSpeed s => (p.setSpeed s, .over none)
  | .cycleSpeed => (p.setSpeed p.speed.next, .over none)

/-- What a call does first is one of few things. -/
inductive Entered (p : Player) (call : Call) : Player → Task → Prop
  | rewinds (hhalts : call.Halts p) (goal : Goal) :
      Entered p call p.halt.enqueue.1 (.rewinding p.halt.enqueue.2 goal)
  | pauses (hhalts : call.Halts p) : Entered p call p.halt.publish (.over none)
  | wraps (hplay : call = .play) :
      Entered p call p.renew.enqueue.1 (.wrapping p.renew.enqueue.2 p.renew.epoch)
  | plays (hplay : call = .play) : Entered p call (publish { p.renew with playing := true })
      (.playing p.renew.epoch .empty (.over (some .empty)))
  | steps (hstep : call = .stepForward) :
      Entered p call p.enqueue.1 (.stepping p.epoch (.queued p.enqueue.2))
  | speeds (hgoes : ¬call.Halts p) (s : Speed) : Entered p call (p.setSpeed s) (.over none)
  | returns (hgoes : ¬call.Halts p) (report : Option Report) : Entered p call p (.over report)

theorem entered (p : Player) (call : Call) : Entered p call (p.enter call).1 (p.enter call).2 := by
  -- Each way to enter says by itself whether the call halts the player.
  cases call with
  | load t => exact .rewinds (show Call.Halts p (.load t) from trivial) (.load t)
  | play =>
    show Entered p .play p.enterPlay.1 p.enterPlay.2
    unfold enterPlay
    split
    · exact .returns (show ¬Call.Halts p .play from id) _
    · split
      · exact .wraps rfl
      · exact .plays rfl
  | pause => exact .pauses (show Call.Halts p .pause from trivial)
  | stepForward => exact .steps rfl
  | stepBackward =>
    unfold enter
    cases hcursor : p.cursor with
    | zero => exact .returns (show ¬Call.Halts p .stepBackward from fun h => h hcursor) none
    | succ place =>
      have hhalts : Call.Halts p .stepBackward := by
        show p.cursor ≠ 0
        omega
      exact .rewinds hhalts (.seek place)
  | seek place => exact .rewinds (show Call.Halts p (.seek place) from trivial) (.seek place)
  | restart => exact .rewinds (show Call.Halts p .restart from trivial) (.seek 0)
  | setSpeed s => exact .speeds (show ¬Call.Halts p (.setSpeed s) from id) s
  | cycleSpeed => exact .speeds (show ¬Call.Halts p .cycleSpeed from id) _

/-- The first turn of a call comes of moves. -/
theorem comes_start (p : Player) (now : Nat) (call : Call) :
    Comes now (p.enter call).1 (p.enter call).2 false (p.start now call) := by
  -- Most calls enter at rest and go on from there in the same turn.
  have hrest : ∀ q t, t.Rests → Comes now q t false (q.resume now t) :=
    fun q t ht => (comes_resume q now ht).weaken
  cases call with
  | load t => exact hrest _ (.rewinding _ _) trivial
  | play =>
    show Comes now p.enterPlay.1 p.enterPlay.2 false (p.play now)
    unfold enterPlay play
    split
    · exact .of_rests trivial
    · dsimp only
      split
      · exact hrest _ (.wrapping _ _) trivial
      · have hplay : Comes now (publish { p.renew with playing := true })
            (.playing p.renew.epoch .empty (.over (some .empty))) true
            ((publish { p.renew with playing := true }).playOn p.renew.epoch now .empty) :=
          comes_playOn
        exact hplay.weaken
  | stepForward => exact hrest _ (.stepping _ (.queued _)) trivial
  | stepBackward =>
    unfold enter start stepBackward
    cases p.cursor with
    | zero => exact .of_rests trivial
    | succ place => exact hrest _ (.rewinding _ _) trivial
  | seek place => exact hrest _ (.rewinding _ _) trivial
  | restart => exact hrest _ (.rewinding _ _) trivial
  | _ => exact .of_rests trivial

end Player

end Storyboard
