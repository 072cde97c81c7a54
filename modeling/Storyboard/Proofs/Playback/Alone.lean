import Storyboard.Proofs.Playback.Epoch
import Storyboard.Proofs.Playback.Progress
import Storyboard.Session.Screening

/-! # Calls that nobody else makes

    A call that is alone does not wait in any line, neither at the gate nor for
    the narrator. Every move then leaves no more rounds to come than there were,
    and the first move of a turn leaves fewer (`Move.rounds`). So each call
    returns within the rounds that its timeline has (`run_alone`), and what
    every move keeps holds when it does. -/

namespace Storyboard

open Stage

/-! ### Rounds -/

namespace Timeline

/-- The most rounds that the steps take from a place on. -/
def roundsFrom (t : Timeline) (place : Nat) : Nat :=
  ((t.steps.drop place).map fun s => waitsOf s.commands + waitsAfter).sum

variable {t : Timeline} {place : Nat} {step : Step}

theorem rounds_eq (t : Timeline) : t.rounds = t.roundsFrom 0 + (waitsOf t.setup + 1) := by
  unfold rounds roundsFrom
  rw [List.drop_zero]
  induction t.steps with
  | nil => simp
  | cons s rest ih =>
    rw [List.foldr_cons, ih, List.map_cons, List.sum_cons]
    omega

theorem roundsFrom_of_step (h : t.steps[place]? = some step) :
    t.roundsFrom place = waitsOf step.commands + waitsAfter + t.roundsFrom (place + 1) := by
  obtain ⟨hplace, rfl⟩ := List.getElem?_eq_some_iff.1 h
  unfold roundsFrom
  rw [List.drop_eq_getElem_cons hplace, List.map_cons, List.sum_cons]

theorem roundsFrom_le (t : Timeline) (place : Nat) : t.roundsFrom place ≤ t.roundsFrom 0 := by
  unfold roundsFrom
  rw [List.drop_zero, ← congrArg (List.map _) (List.take_append_drop place t.steps),
    List.map_append, List.sum_append]
  exact Nat.le_add_left _ _

/-- To rebuild the stage takes no more rounds than there are. -/
theorem sum_waits_before_lt (t : Timeline) (place : Nat) :
    ((t.before place).map waitsOf).sum < t.rounds := by
  have hsteps : ∀ steps : List Step, (((steps.take place).map (·.commands)).map waitsOf).sum ≤
      (steps.map fun s => waitsOf s.commands + waitsAfter).sum := by
    intro steps
    induction steps generalizing place with
    | nil => simp
    | cons s rest ih =>
      cases place with
      | zero => exact Nat.zero_le _
      | succ place =>
        rw [List.take_succ_cons, List.map_cons, List.map_cons, List.map_cons, List.sum_cons,
          List.sum_cons]
        exact Nat.add_le_add (Nat.le_add_right _ _) (ih place)
  have hbefore := hsteps t.steps
  rw [rounds_eq, roundsFrom, List.drop_zero, before, List.map_cons, List.sum_cons]
  omega

end Timeline

/-- How many more times what follows the commands of a step can go on, if nobody else speaks. -/
def Tail.rounds : Tail → Nat
  | .ahead => Timeline.waitsAfter
  | .speaking s => s.waits
  | .dwelling _ => 1
  | .over => 0

/-- How many more rounds there are, at most, with those of the steps that are to follow. -/
def Advance.rounds (t : Timeline) (cursor : Nat) : Advance → Nat
  | .queued _ => t.roundsFrom cursor
  | .performing _ place _ perf => perf.waits + Timeline.waitsAfter + t.roundsFrom (place + 1)
  | .trailing _ _ _ tail => tail.rounds + t.roundsFrom cursor
  | .over (some _) => t.roundsFrom cursor
  | .over none => 0

namespace Player

/-- The waits of everything that is performed to go there. -/
def Goal.waits (p : Player) : Goal → Nat
  | .load timeline => ((timeline.before 0).map waitsOf).sum
  | .seek place => ((p.timeline.before (min place p.total)).map waitsOf).sum

/-- How many more rounds there are for a call, at most. -/
def Task.rounds (p : Player) : Task → Nat
  | .rewinding _ goal => goal.waits p
  | .rebuilding _ r => r.waits
  | .wrapping _ _ => ((p.timeline.before 0).map waitsOf).sum + p.timeline.roundsFrom 0
  | .rewrapping _ _ r => r.waits + p.timeline.roundsFrom 0
  | .playing _ _ a => a.rounds p.timeline p.cursor
  | .stepping _ a => a.rounds p.timeline p.cursor
  | .over _ => 0

/-- A call in line at the gate. -/
def Task.InLine : Task → Prop
  | .rewinding .. => True
  | .wrapping .. => True
  | .playing _ _ (.queued _) => True
  | .stepping _ (.queued _) => True
  | _ => False

end Player

/-! ### The narrator -/

namespace Narrator

variable {n : Narrator} {now : Nat} {text : String}

/-- Whoever finds nobody in the line of the narrator does not wait in it. -/
theorem speak_alone (hline : n.line.Holds []) (now : Nat) (text : String) :
    (n.speak now text).2.isOver = true ∨ (n.speak now text).2.waits ≤ 4 := by
  unfold speak
  cases Text.trimmed? text with
  | none => exact .inl rfl
  | some text =>
    have hleads : n.line.join.1.leads n.line.join.2 = true := Line.leads_join hline.waiting_eq_nil
    obtain ⟨_, hwaits⟩ := deliver_spec { n with line := n.line.join.1 } now text
    dsimp only [resume]
    rw [if_neg (not_not.2 rfl), if_pos hleads]
    cases hd : (deliver { n with line := n.line.join.1 } now text).2 with
    | «over» => exact .inl rfl
    | _ =>
      rw [hd] at hwaits
      exact .inr (Nat.succ_le_succ hwaits)

end Narrator

namespace Player

variable {p q : Player} {t u : Task} {a b : Advance} {deeds : List Deed} {l : List Standing}
  {epoch now ticket place : Nat} {step : Step} {tail : Tail} {report : Report}

/-! ### What follows a step -/

theorem rounds_dwell (p : Player) (now : Nat) (step : Step) : (p.dwell now step).rounds ≤ 1 := by
  unfold dwell
  dsimp only
  split
  · exact Nat.zero_le _
  · exact Nat.le_refl _

theorem rounds_settleSpeech {x : Narrator × Speech} {most : Nat} (hmost : 1 ≤ most)
    (hx : x.2.isOver = true ∨ x.2.waits ≤ most) :
    (p.settleSpeech now step x).2.rounds ≤ most := by
  obtain ⟨n, s⟩ := x
  show Tail.rounds (if s.isOver = true then dwell { p with narrator := n } now step
    else .speaking s) ≤ most
  split
  · exact Nat.le_trans (rounds_dwell _ now step) hmost
  · next hopen => exact hx.resolve_left hopen

theorem rounds_of_rests (h : tail.Rests) : 0 < tail.rounds := by
  cases tail with
  | speaking s =>
    cases s with
    | queued turn => exact Nat.succ_pos 4
    | delivering turn d => exact Nat.succ_pos _
    | «over» outcome => exact h.elim
  | dwelling time => exact Nat.one_pos
  | _ => exact h.elim

/-- What follows the commands of a step has fewer rounds left with every one. -/
theorem rounds_follow (step : Step) (htail : tail = .ahead ∨ tail.Rests)
    (hready : (!p.isCurrent epoch || tail.isReady now p.narrator) = true)
    (hline : p.narrator.Lines tail []) :
    (p.follow epoch now step tail).2.rounds ≤ tail.rounds ∧
      (tail.Rests → (p.follow epoch now step tail).2.rounds < tail.rounds) := by
  cases hcurrent : p.isCurrent epoch with
  | false =>
    -- In an epoch that is over nothing follows any more.
    have hover : (p.follow epoch now step tail).2.rounds = 0 := by
      rw [follow_of_stale hcurrent]
      split <;> rfl
    rw [hover]
    exact ⟨Nat.zero_le _, rounds_of_rests⟩
  | true =>
    rw [hcurrent] at hready
    rw [follow_of_current (beq_iff_eq.1 hcurrent)]
    cases tail with
    | «over» => cases hready
    | ahead =>
      refine ⟨?_, False.elim⟩
      unfold resumeTail
      cases step.spoken? with
      | none => exact Nat.le_trans (rounds_dwell p now step) (by decide)
      | some text => exact rounds_settleSpeech (by decide) (p.narrator.speak_alone hline now text)
    | dwelling time =>
      have htime : time ≤ now := by simpa [Tail.isReady] using hready
      have hover : (p.resumeTail now step (.dwelling time)).2 = .over := if_pos htime
      rw [hover]
      exact ⟨Nat.zero_le _, fun _ => Nat.one_pos⟩
    | speaking s =>
      obtain ⟨ticket, hticket⟩ : ∃ ticket, s.ticket? = some ticket := by
        cases s with
        | «over» outcome => cases hready
        | _ => exact ⟨_, rfl⟩
      -- A speech that is over may be followed by a pause, so it has to have more than one round.
      obtain ⟨hplace, hless⟩ := Narrator.proceeds_resume hready hticket
      have hrests : s.Rests := htail.resolve_left fun h => Tail.noConfusion h
      have hwaits : 1 < s.waits := by
        cases s with
        | queued turn => exact (by decide : 1 < 5)
        | delivering turn d =>
          cases d with
          | «over» => exact absurd rfl hrests
          | _ => exact Nat.succ_lt_succ (Nat.succ_pos _)
        | «over» outcome => exact hrests.elim
      have hlt : (p.settleSpeech now step (p.narrator.resume now s)).2.rounds ≤ s.waits - 1 :=
        rounds_settleSpeech (by omega) (.inr (by omega))
      show (p.settleSpeech now step (p.narrator.resume now s)).2.rounds ≤ s.waits ∧
        (_ → (p.settleSpeech now step (p.narrator.resume now s)).2.rounds < s.waits)
      exact ⟨by omega, fun _ => by omega⟩

/-! ### Move by move -/

/-- A step of a call that nobody else speaks beside. -/
theorem Strides.rounds (h : p.Ordered (a.standing :: l))
    (hline : p.narrator.line.Holds a.speech?.toList) (hmove : Strides epoch now p a deeds q b) :
    b.rounds q.timeline q.cursor ≤ a.rounds p.timeline p.cursor ∧
      (a.Rests → (∀ ticket, a ≠ .queued ticket) →
        b.rounds q.timeline q.cursor < a.rounds p.timeline p.cursor) := by
  cases hmove with
  | @begin ticket step hleads hcurrent hstep =>
    -- The step that begins has the rounds that the timeline has for it from its place on.
    have hcoherent := (h.settled_of_leads rfl hleads rfl).coherent
    obtain ⟨_, _, _, _, hwaits⟩ := Performance.start_spec now .realtime hcoherent
      hcoherent.matches_scene step.commands
    refine ⟨?_, fun _ hline => absurd rfl (hline ticket)⟩
    show _ + Timeline.waitsAfter + p.timeline.roundsFrom (p.cursor + 1) ≤
      p.timeline.roundsFrom p.cursor
    rw [Timeline.roundsFrom_of_step hstep]
    omega
  | pass hleads hnone => exact ⟨Nat.zero_le _, fun _ hline => absurd rfl (hline _)⟩
  | @perform ticket place step perf hready =>
    obtain ⟨_, _, hsettling⟩ := h.valid _ List.mem_cons_self _ rfl
    obtain ⟨_, _, _, hless⟩ := Performance.resume_spec (s := p.stage) now hsettling.tidy ∅
    rw [hready, if_pos rfl] at hless
    have hlt : (perf.resume now p.stage).2.waits + Timeline.waitsAfter +
          p.timeline.roundsFrom (place + 1) <
        perf.waits + Timeline.waitsAfter + p.timeline.roundsFrom (place + 1) := by omega
    exact ⟨Nat.le_of_lt hlt, fun _ _ => hlt⟩
  | @proceed ticket place step perf hover =>
    refine ⟨?_, fun hrests => ?_⟩
    · show Timeline.waitsAfter + p.timeline.roundsFrom (place + 1) ≤
        perf.waits + Timeline.waitsAfter + p.timeline.roundsFrom (place + 1)
      omega
    · rw [show perf.isOver = false from hrests] at hover
      cases hover
  | @follow ticket step report tail htail hready =>
    obtain ⟨narrator, coins, hfollow⟩ := narrated_follow p epoch now step tail
    have hlines : p.narrator.Lines tail [] := by
      unfold Narrator.Lines
      rwa [List.append_nil]
    obtain ⟨hle, hlt⟩ := rounds_follow step htail hready hlines
    have hsame : (p.follow epoch now step tail).1.timeline.roundsFrom
        (p.follow epoch now step tail).1.cursor = p.timeline.roundsFrom p.cursor := by rw [hfollow]
    show (p.follow epoch now step tail).2.rounds + _ ≤ tail.rounds + _ ∧
      (_ → _ → (p.follow epoch now step tail).2.rounds + _ < tail.rounds + _)
    rw [hsame]
    exact ⟨Nat.add_le_add_right hle _, fun hrests _ => Nat.add_lt_add_right (hlt hrests) _⟩
  | finish =>
    refine ⟨?_, False.elim⟩
    show p.timeline.roundsFrom p.cursor ≤ 0 + p.timeline.roundsFrom p.cursor
    omega

theorem waits_performLists (hs : p.stage.Coherent ∅) (now goal : Nat) (report : Report)
    (lists : List (List Json)) :
    (p.performLists now goal report lists).2.waits ≤ (lists.map waitsOf).sum := by
  have hspec := performLists_spec hs now goal report lists
  rcases hx : p.performLists now goal report lists with ⟨q, r⟩
  rw [hx] at hspec
  cases r with
  | «over» report' => exact Nat.zero_le _
  | performing goal' perf rest report' => exact hspec.2.2.1

theorem waits_goal (hs : p.stage.Coherent ∅) (now : Nat) (goal : Goal) :
    (goal.rebuild p now).2.waits ≤ goal.waits p := by
  cases goal with
  | load timeline =>
    have h := waits_performLists (p := { p with timeline, stage := p.stage.reset now }) hs.reset now
      (min 0 timeline.length) .empty (timeline.before (min 0 timeline.length))
    rwa [Nat.zero_min] at h
  | seek place =>
    exact waits_performLists (p := { p with stage := p.stage.reset now }) hs.reset now _ _ _

/-- A rebuilding that goes on has fewer waits ahead. -/
theorem waits_resumeRebuild {goal : Nat} {perf : Performance} {rest : List (List Json)}
    {r : Rebuild} (h : p.Ordered (.working ticket (.rebuilding goal perf rest) :: l))
    (hready : perf.isReady now = true)
    (hr : p.resumeRebuild now (.performing goal perf rest report) = (q, r)) :
    r.waits < (Rebuild.performing goal perf rest report).waits := by
  cases r with
  | performing goal' perf' rest' report' => exact (resumeRebuild_performing h hready hr).2.2
  | «over» report' =>
    obtain ⟨_, _, _, hsettling, _⟩ := h.valid _ List.mem_cons_self _ rfl
    obtain ⟨_, _, _, hless⟩ := Performance.resume_spec (s := p.stage) now hsettling.tidy ∅
    rw [hready, if_pos rfl] at hless
    show 0 < perf.waits + _
    omega

/-- No move leaves more rounds than there were, and the first move of a turn leaves fewer. -/
theorem Move.rounds (h : p.Ordered (t.standing :: l)) (hline : p.Voiced [t])
    (hmove : Move now p t deeds q u) :
    u.rounds q ≤ t.rounds p ∧ (t.Rests → ¬t.InLine → u.rounds q < t.rounds p) := by
  have hspeech : p.narrator.line.Holds t.speech?.toList := by
    simpa [Voiced] using hline
  cases hmove with
  | @rewind ticket goal hleads =>
    have hs := (h.settled_of_leads rfl hleads rfl).coherent
    exact ⟨waits_goal hs now goal, fun _ hnot => absurd trivial hnot⟩
  | @rebuild ticket goal perf rest report q r hready hr =>
    have hlt := waits_resumeRebuild h hready hr
    exact ⟨Nat.le_of_lt hlt, fun _ _ => hlt⟩
  | rebuilt => exact ⟨Nat.le_refl _, False.elim⟩
  | @wrap ticket epoch hleads hcurrent =>
    have hs := (h.settled_of_leads rfl hleads rfl).coherent
    refine ⟨?_, fun _ hnot => absurd trivial hnot⟩
    show (p.rebuild now 0).2.waits + (p.rebuild now 0).1.timeline.roundsFrom 0 ≤
      ((p.timeline.before 0).map waitsOf).sum + p.timeline.roundsFrom 0
    have hwaits := waits_goal hs now (.load p.timeline)
    rw [timeline_rebuild]
    exact Nat.add_le_add_right hwaits _
  | unwrap hleads hstale => exact ⟨Nat.zero_le _, fun _ hnot => absurd trivial hnot⟩
  | @rewrap ticket epoch goal perf rest report q r hready hr =>
    have hlt : r.waits + q.timeline.roundsFrom 0 <
        (Rebuild.performing goal perf rest report).waits + p.timeline.roundsFrom 0 := by
      rw [timeline_resumeRebuild hr]
      exact Nat.add_lt_add_right (waits_resumeRebuild h hready hr) _
    exact ⟨Nat.le_of_lt hlt, fun _ _ => hlt⟩
  | @rewrapped ticket epoch report =>
    -- Where the cursor is by now does not matter: from the start on there are rounds enough.
    refine ⟨?_, False.elim⟩
    show p.timeline.roundsFrom p.cursor ≤ 0 + p.timeline.roundsFrom 0
    rw [Nat.zero_add]
    exact p.timeline.roundsFrom_le p.cursor
  | play hstrides =>
    obtain ⟨hle, hlt⟩ := hstrides.rounds h hspeech
    refine ⟨hle, fun hrests hnot => hlt hrests fun ticket hqueued => hnot ?_⟩
    rw [hqueued]
    trivial
  | next hcurrent => exact ⟨Nat.le_refl _, False.elim⟩
  | stop hstale => exact ⟨Nat.zero_le _, False.elim⟩
  | finish => exact ⟨Nat.zero_le _, False.elim⟩
  | step hstrides =>
    obtain ⟨hle, hlt⟩ := hstrides.rounds h hspeech
    refine ⟨hle, fun hrests hnot => hlt hrests fun ticket hqueued => hnot ?_⟩
    rw [hqueued]
    trivial
  | stepped => exact ⟨Nat.zero_le _, False.elim⟩

/-! ### Nobody is in line -/

/-- Who is at the head of the gate does not wait there. -/
theorem advance_ne_queued (h : ∀ ticket, a = .queued ticket → p.gate.leads ticket = true)
    (epoch now ticket : Nat) : (p.advance epoch now a).2 ≠ .queued ticket := by
  have htail : ∀ (q : Player) (ticket' : Nat) (step : Step) (report : Report) (tail : Tail),
      (q.settleTail ticket' step report tail).2 ≠ .queued ticket := by
    intro q ticket' step report tail
    cases tail <;> exact nofun
  have hstep : ∀ (ticket' place : Nat) (step : Step) (x : Stage × Performance),
      (p.settleStep epoch now ticket' place step x).2 ≠ .queued ticket := by
    intro ticket' place step x
    unfold settleStep
    dsimp only
    split
    · exact htail _ _ _ _ _
    · exact nofun
  cases a with
  | queued ticket' =>
    unfold advance
    dsimp only
    rw [if_pos (h ticket' rfl)]
    split
    · exact hstep _ _ _ _
    · exact nofun
  | performing ticket' place step perf => exact hstep _ _ _ _
  | trailing ticket' step report tail => exact htail _ _ _ _ _
  | «over» report => exact nofun

theorem not_inLine_settleRebuild (p : Player) (ticket : Nat) (r : Rebuild) :
    ¬(p.settleRebuild ticket r).2.InLine := by
  cases r <;> exact id

theorem not_inLine_rewind (hleads : p.gate.leads ticket = true) (now : Nat) (goal : Goal) :
    ¬(p.rewind now ticket goal).2.InLine := by
  unfold rewind
  rw [if_pos hleads]
  exact not_inLine_settleRebuild _ _ _

/-- Who plays alone finds the gate free for every step. -/
theorem not_inLine_playSteps (h : p.Ordered []) (epoch now : Nat) (report : Report) (most : Nat) :
    ¬(p.playSteps epoch now report most).2.InLine := by
  -- By induction on the steps that may still be begun: one that is over at once leaves the gate
  -- free for the next.
  induction most generalizing p report with
  | zero => exact id
  | succ most ih =>
    have hordered := h.beginStep epoch now
    have hleads : p.enqueue.1.gate.leads p.enqueue.2 = true :=
      Line.leads_join h.line.waiting_eq_nil
    have hqueued : ∀ ticket, (p.beginStep epoch now).2 ≠ .queued ticket :=
      advance_ne_queued (by rintro _ ⟨⟩; exact hleads) epoch now
    unfold playSteps
    split
    · rcases hx : p.beginStep epoch now with ⟨q, a⟩
      rw [hx] at hordered hqueued
      cases a with
      | queued ticket => exact absurd rfl (hqueued ticket)
      | «over» r =>
        cases r with
        | none => exact id
        | some r => exact ih (Ordered.away_iff.1 hordered) _
      | _ => exact id
    · exact id

theorem not_inLine_beginPlay (h : p.Ordered []) (epoch now : Nat) (report : Report) :
    ¬(p.beginPlay epoch now report).2.InLine := by
  have hplaying : ({ p with playing := true }.publish).Ordered [] := h.congr rfl rfl rfl rfl
  exact not_inLine_playSteps hplaying epoch now report _

theorem not_inLine_settleWrap {r : Rebuild} (h : p.Ordered [r.standing ticket]) (now epoch : Nat) :
    ¬(p.settleWrap now ticket epoch r).2.InLine := by
  cases r with
  | performing goal perf rest report => exact id
  | «over» report =>
    have hleads : p.gate.leads ticket = true := h.leads _ List.mem_cons_self
    have hsettled := h.settled_of_leads rfl hleads rfl
    exact not_inLine_beginPlay (h.leave rfl hleads rfl hsettled) epoch now _

theorem not_inLine_wrap (h : p.Ordered [.queued ticket]) (hleads : p.gate.leads ticket = true)
    (now epoch : Nat) : ¬(p.wrap now ticket epoch).2.InLine := by
  unfold wrap
  rw [if_pos hleads]
  split
  · exact not_inLine_settleWrap (h.rebuild rfl hleads rfl p.timeline now 0) now epoch
  · exact id

theorem not_inLine_stepping (h : ∀ ticket, a ≠ .queued ticket) (epoch : Nat) :
    ¬(p.settleAdvance epoch a).2.InLine := by
  cases a with
  | queued ticket => exact absurd rfl (h ticket)
  | _ => exact id

/-- Who calls alone does not have to wait in line. -/
theorem not_inLine_start (h : p.Ordered []) (now : Nat) (call : Call) :
    ¬(p.start now call).2.InLine := by
  -- Nobody is in line before, so who joins is at the head at once.
  have hfree : ∀ {q : Player}, q.Ordered [] → q.enqueue.1.gate.leads q.enqueue.2 = true :=
    fun hq => Line.leads_join hq.line.waiting_eq_nil
  have hhalt : p.halt.Ordered [] := h.congr rfl rfl rfl rfl
  have hrenew : p.renew.Ordered [] := h.congr rfl rfl rfl rfl
  cases call with
  | play =>
    show ¬(p.play now).2.InLine
    unfold play
    split
    · exact id
    · dsimp only
      split
      · exact not_inLine_wrap hrenew.enqueue (hfree hrenew) now _
      · exact not_inLine_beginPlay hrenew _ now _
  | stepForward =>
    exact not_inLine_stepping
      (advance_ne_queued (a := .queued p.enqueue.2) (by rintro _ ⟨⟩; exact hfree h) p.epoch now)
      p.epoch
  | stepBackward =>
    show ¬(p.stepBackward now).2.InLine
    unfold stepBackward
    cases p.cursor with
    | zero => exact id
    | succ place => exact not_inLine_rewind (hfree hhalt) now _
  | load timeline => exact not_inLine_rewind (hfree hhalt) now _
  | seek place => exact not_inLine_rewind (hfree hhalt) now _
  | restart => exact not_inLine_rewind (hfree hhalt) now _
  | _ => exact id

/-- Nor has it to as it goes on. -/
theorem not_inLine_resume (h : p.Ordered [t.standing]) (ht : ¬t.InLine) (now : Nat) :
    ¬(p.resume now t).2.InLine := by
  -- A call that is not in line is at the head or away, and who is away is let in at once.
  have hopen : ∀ {a : Advance}, (∀ ticket, a ≠ .queued ticket) → ∀ epoch ticket,
      (p.advance epoch now a).2 ≠ .queued ticket := fun ha epoch =>
    advance_ne_queued (fun ticket heq => absurd heq (ha ticket)) epoch now
  cases t with
  | rewinding ticket goal => exact absurd trivial ht
  | rebuilding ticket r => exact not_inLine_settleRebuild _ _ _
  | wrapping ticket epoch => exact absurd trivial ht
  | rewrapping ticket epoch r =>
    exact not_inLine_settleWrap (Ordered.resumeRebuild h now) now epoch
  | playing epoch report a =>
    have hordered : (p.advance epoch now a).1.Ordered _ := Ordered.advance h epoch now
    have hqueued := hopen (a := a) (by rintro ticket rfl; exact ht trivial) epoch
    simp only [resume, resumePlay]
    rcases hx : p.advance epoch now a with ⟨q, b⟩
    rw [hx] at hordered hqueued
    cases b with
    | queued ticket => exact absurd rfl (hqueued ticket)
    | «over» r =>
      cases r with
      | none => exact id
      | some r => exact not_inLine_playSteps (Ordered.away_iff.1 hordered) epoch now _ _
    | _ => exact id
  | stepping epoch a =>
    exact not_inLine_stepping (hopen (a := a) (by rintro ticket rfl; exact ht trivial) epoch) epoch
  | «over» report => exact id

/-! ### To the end -/

/-- A call that nobody else makes. -/
structure Alone (p : Player) (t : Task) : Prop where
  ordered : p.Ordered [t.standing]
  voiced  : p.Voiced [t]
  rests   : t.Rests
  away    : ¬t.InLine

/-- What the moves of a call keep that is alone. -/
def Lasting (J : Player → Task → Prop) : Prop :=
  ∀ {now p t deeds q u}, p.Ordered [t.standing] → Move now p t deeds q u → J p t → J q u

variable {J : Player → Task → Prop} {n : Nat}

theorem lasting_voiced : Lasting fun p t => p.Voiced [t] :=
  fun _ hmove h => kept_voiced.keeps.move hmove h

/-- The rounds that are left after some moves, and after at least one of them. -/
theorem rounds_of_moves (h : p.Ordered [t.standing]) (hvoiced : p.Voiced [t])
    (hmoves : Moves now n p t deeds q u) :
    q.Ordered [u.standing] ∧ q.Voiced [u] ∧ (∀ {J}, Lasting J → J p t → J q u) ∧
      u.rounds q ≤ t.rounds p ∧ (t.Rests → ¬t.InLine → 0 < n → u.rounds q < t.rounds p) := by
  induction hmoves with
  | refl =>
    exact ⟨h, hvoiced, fun _ hJ => hJ, Nat.le_refl _, fun _ _ hn => absurd hn (Nat.lt_irrefl 0)⟩
  | head hfirst _ ih =>
    obtain ⟨hle, hlt⟩ := hfirst.rounds h hvoiced
    obtain ⟨hordered, hvoiced', hkept, hle', _⟩ :=
      ih (h.move hfirst) (lasting_voiced h hfirst hvoiced)
    exact ⟨hordered, hvoiced', fun hJ hp => hkept hJ (hJ h hfirst hp), Nat.le_trans hle' hle,
      fun hrests hnot _ => Nat.lt_of_le_of_lt hle' (hlt hrests hnot)⟩

theorem advances_alone (hJ : Lasting J) :
    Ensemble.Advances machine (fun p t => Alone p t ∧ J p t) fun p t => t.rounds p where
  step := by
    rintro now p t ⟨⟨hordered, hvoiced, hrests, hnot⟩, hp⟩ _
    obtain ⟨hrests', n, deeds, hn, hmoves⟩ := comes_resume p now hrests
    obtain ⟨hordered', hvoiced', hkept, hle, hlt⟩ := rounds_of_moves hordered hvoiced hmoves
    refine ⟨⟨⟨hordered', hvoiced', hrests', not_inLine_resume hordered hnot now⟩, hkept hJ hp⟩, ?_⟩
    show (p.resume now t).2.rounds (p.resume now t).1 + (if t.isReady now p then 1 else 0) ≤ _
    split
    · next hready =>
      rw [hready] at hn
      exact hlt hrests hnot hn
    · exact hle
  wake := by
    rintro now p t ⟨⟨hordered, hvoiced, hrests, hnot⟩, _⟩ hopen hready
    -- Nobody else has a ticket, so the call is at the head and can only wait for a time.
    obtain ⟨ticket, hticket⟩ := exists_ticket hopen hrests
    obtain ⟨s, hs, hheads⟩ := hordered.exists_heads List.mem_cons_self hticket
    obtain rfl := List.mem_singleton.1 hs
    have hready' : ¬t.isReady now p = true := Bool.eq_false_iff.1 hready
    have halone : p.Ordered (t.standing :: List.map Task.standing []) := hordered
    obtain ⟨due, hdue⟩ :=
      (exists_due_of_heads halone hvoiced hrests hheads now).resolve_left hready'
    exact ⟨due, hdue, isReady_of_due hdue (Nat.le_max_right now due)⟩

/-- The timeline that a call goes through. -/
def Call.goesThrough (p : Player) : Call → Timeline
  | .load timeline => timeline
  | _ => p.timeline

/-- A call has no more rounds than the timeline that it goes through. -/
theorem rounds_enter_lt (p : Player) (call : Call) :
    (p.enter call).2.rounds (p.enter call).1 < (call.goesThrough p).rounds := by
  have hnone : 0 < p.timeline.rounds := Nat.zero_lt_of_lt (p.timeline.sum_waits_before_lt 0)
  have hsteps : p.timeline.roundsFrom p.cursor < p.timeline.rounds := by
    have := p.timeline.roundsFrom_le p.cursor
    rw [Timeline.rounds_eq]
    omega
  -- What is rebuilt is the setup and steps up to a place, and what is played are steps from a place
  -- on. Neither exceeds the timeline.
  cases call with
  | load timeline => exact timeline.sum_waits_before_lt 0
  | play =>
    show p.enterPlay.2.rounds p.enterPlay.1 < p.timeline.rounds
    unfold enterPlay
    split
    · exact hnone
    · split
      · have hall : ((p.timeline.before 0).map waitsOf).sum = waitsOf p.timeline.setup := rfl
        show ((p.timeline.before 0).map waitsOf).sum + p.timeline.roundsFrom 0 < _
        rw [hall, Timeline.rounds_eq]
        omega
      · exact hsteps
  | stepForward => exact hsteps
  | stepBackward =>
    show (p.enter .stepBackward).2.rounds (p.enter .stepBackward).1 < p.timeline.rounds
    unfold enter
    cases p.cursor with
    | zero => exact hnone
    | succ place => exact p.timeline.sum_waits_before_lt _
  | seek place => exact p.timeline.sum_waits_before_lt _
  | restart => exact p.timeline.sum_waits_before_lt _
  | _ => exact hnone

/-- A call that is alone returns within so many rounds, and what every move keeps holds then. -/
theorem run_alone (hJ : Lasting J) (h : p.Ordered []) (hvoiced : p.Voiced []) (now : Nat)
    (call : Call) (henter : J (p.enter call).1 (p.enter call).2) {rounds : Nat}
    (hrounds : (call.goesThrough p).rounds ≤ rounds) :
    ∃ stop q report, (Ensemble.ofActions now p [(now, call)]).run machine rounds =
        ⟨stop, q, [.done now stop (.over report) q]⟩ ∧
      q.Ordered [] ∧ q.Voiced [] ∧ J q (.over report) := by
  obtain ⟨hrests, n, deeds, _, hmoves⟩ := comes_start p now call
  have hentered := p.entered call
  obtain ⟨hordered, hvoiced', hkept, hle, _⟩ := rounds_of_moves (h.enter hentered)
    (kept_voiced.keeps.enter hentered hvoiced) hmoves
  have halone : Alone (p.start now call).1 (p.start now call).2 :=
    ⟨hordered, hvoiced', hrests, not_inLine_start h now call⟩
  obtain ⟨stop, q, t, hrun, ⟨halone', hq⟩, hdone⟩ := Ensemble.run_solo (advances_alone hJ) now p
    call ⟨halone, hkept hJ henter⟩
    (Nat.lt_of_le_of_lt hle (Nat.lt_of_lt_of_le (rounds_enter_lt p call) hrounds))
  cases t with
  | «over» report =>
    exact ⟨stop, q, report, hrun, Ordered.away_iff.1 halone'.ordered, halone'.voiced, hq⟩
  | _ => cases hdone

end Player

end Storyboard
