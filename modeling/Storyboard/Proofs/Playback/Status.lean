import Mathlib.Data.List.Induction
import Storyboard.Proofs.Playback.Order

/-! # The status of the player

    A player says that it is playing from the moment at which somebody begins
    to play until that playing comes to its end or is halted, and who plays is
    in the epoch of the player as long as nobody halts it or begins to play
    again.

    There is one way for the player to say so while nobody plays. Whoever
    rebuilds the stage in order to play once more does not look at the epoch
    again when the stage is rebuilt, and it may be over by then (`Strays`).
    From then on the player says that it is playing, and calls to play return
    at once, until it is halted (`Strayed`). -/

namespace Storyboard.Player

/-- The epoch in which a call plays, or is about to. -/
def Task.playEpoch? : Task → Option Nat
  | .wrapping _ epoch => some epoch
  | .rewrapping _ epoch _ => some epoch
  | .playing epoch _ _ => some epoch
  | _ => none

/-- Nobody plays in the epoch of the player. -/
def Deserted (p : Player) (tasks : List Task) : Prop :=
  ∀ t ∈ tasks, t.playEpoch? ≠ some p.epoch

/-- The player says that it is playing while nobody plays. -/
def Stuck (p : Player) (tasks : List Task) : Prop := p.playing = true ∧ p.Deserted tasks

variable {p q r : Player} {t : Task} {tasks others : List Task} {epoch now place : Nat}
  {step : Step}

theorem Stuck.perm_iff (h : tasks.Perm others) : p.Stuck tasks ↔ p.Stuck others := by
  unfold Stuck Deserted
  simp only [h.mem_iff]

theorem status_eq_playing_iff : p.status = .playing ↔ p.playing = true := by
  unfold status
  cases p.playing with
  | true => simp
  | false =>
    simp only [Bool.false_eq_true, ↓reduceIte, iff_false]
    split
    · simp
    · split <;> simp

theorem deserted_cons_iff :
    p.Deserted (t :: tasks) ↔ t.playEpoch? ≠ some p.epoch ∧ p.Deserted tasks :=
  List.forall_mem_cons

/-- Who plays in the epoch of the player is under way. -/
theorem not_deserted_joined (h : t.playEpoch? = some p.epoch) :
    ¬p.Deserted (Ensemble.joined machine t tasks) := by
  intro hdeserted
  refine hdeserted t ?_ h
  cases t with
  | «over» report => cases h
  | _ => exact List.mem_cons_self

/-- Who does not play in the epoch of the player does not count. -/
theorem deserted_joined_iff (h : t.playEpoch? ≠ some p.epoch) :
    p.Deserted (Ensemble.joined machine t tasks) ↔ p.Deserted tasks := by
  cases t with
  | «over» report => exact Iff.rfl
  | _ => exact deserted_cons_iff.trans (and_iff_right h)

/-! ### Who does not play -/

/-- The player says what it said, in the same epoch. -/
def Steady (p q : Player) : Prop := q.playing = p.playing ∧ q.epoch = p.epoch

theorem Steady.trans (h : p.Steady q) (h' : q.Steady r) : p.Steady r :=
  ⟨h'.1.trans h.1, h'.2.trans h.2⟩

theorem Restaged.steady (h : p.Restaged q) : p.Steady q := by
  obtain ⟨stage, cursor, rfl⟩ := h
  exact ⟨rfl, rfl⟩

theorem Narrated.steady (h : p.Narrated q) : p.Steady q := by
  obtain ⟨narrator, coins, rfl⟩ := h
  exact ⟨rfl, rfl⟩

theorem steady_rebuild (p : Player) (now goal : Nat) : p.Steady (p.rebuild now goal).1 :=
  (restaged_performLists { p with stage := p.stage.reset now } now _ _ _).steady

theorem steady_resumeRebuild (p : Player) (now : Nat) (r : Rebuild) :
    p.Steady (p.resumeRebuild now r).1 := by
  cases r with
  | «over» report => exact ⟨rfl, rfl⟩
  | performing goal perf rest report =>
    unfold resumeRebuild
    dsimp only
    split
    · exact (restaged_performLists { p with stage := (perf.resume now p.stage).1 } now goal _
        rest).steady
    · exact ⟨rfl, rfl⟩

theorem steady_settleTail (p : Player) (ticket : Nat) (step : Step) (report : Report)
    (tail : Tail) : p.Steady (p.settleTail ticket step report tail).1 := by
  cases tail <;> exact ⟨rfl, rfl⟩

theorem steady_settleStep (p : Player) (epoch now ticket place : Nat) (step : Step)
    (x : Stage × Performance) : p.Steady (p.settleStep epoch now ticket place step x).1 := by
  obtain ⟨stage, perf⟩ := x
  unfold settleStep
  dsimp only
  split
  · exact (narrated_follow (publish { p with stage, cursor := place + 1 }) epoch now step
      .ahead).steady.trans (steady_settleTail _ ticket step _ _)
  · exact ⟨rfl, rfl⟩

theorem steady_advance (p : Player) (epoch now : Nat) (a : Advance) :
    p.Steady (p.advance epoch now a).1 := by
  cases a with
  | queued ticket =>
    unfold advance
    dsimp only
    split
    · split
      · exact steady_settleStep p epoch now ticket _ _ _
      · exact ⟨rfl, rfl⟩
    · exact ⟨rfl, rfl⟩
  | performing ticket place step perf => exact steady_settleStep p epoch now ticket place step _
  | trailing ticket step report tail =>
    exact (narrated_follow p epoch now step tail).steady.trans (steady_settleTail _ ticket step _ _)
  | «over» report => exact ⟨rfl, rfl⟩

theorem steady_beginStep (p : Player) (epoch now : Nat) : p.Steady (p.beginStep epoch now).1 :=
  steady_advance p.enqueue.1 epoch now (.queued p.enqueue.2)

/-- A call that does not play came this far. -/
structure Minds (p q : Player) (t : Task) : Prop where
  steady : p.Steady q
  silent : t.playEpoch? = none

theorem Minds.stuck_iff (h : p.Minds q t) :
    q.Stuck (Ensemble.joined machine t tasks) ↔ p.Stuck tasks := by
  obtain ⟨⟨hplaying, hepoch⟩, hsilent⟩ := h
  unfold Stuck
  rw [deserted_joined_iff (by rw [hsilent]; rintro ⟨⟩), hplaying]
  unfold Deserted
  rw [hepoch]

theorem minds_settleRebuild (h : p.Steady q) (ticket : Nat) (r : Rebuild) :
    p.Minds (q.settleRebuild ticket r).1 (q.settleRebuild ticket r).2 := by
  cases r <;> exact ⟨h, rfl⟩

theorem minds_rewind (p : Player) (now ticket : Nat) (goal : Goal) :
    p.Minds (p.rewind now ticket goal).1 (p.rewind now ticket goal).2 := by
  unfold rewind
  split
  · cases goal with
    | load timeline =>
      have hsteady : p.Steady ({ p with timeline }.rebuild now 0).1 :=
        steady_rebuild { p with timeline } now 0
      exact minds_settleRebuild hsteady ticket _
    | seek place => exact minds_settleRebuild (steady_rebuild p now place) ticket _
  · exact ⟨⟨rfl, rfl⟩, rfl⟩

theorem minds_settleAdvance (h : p.Steady q) (epoch : Nat) (a : Advance) :
    p.Minds (q.settleAdvance epoch a).1 (q.settleAdvance epoch a).2 := by
  cases a <;> exact ⟨h, rfl⟩

/-! ### Who plays -/

/-- A call that plays in an epoch came this far. In the epoch of the player it plays on, or the
    player says that it does not; in another one nothing is heard of it. -/
structure Plays (epoch : Nat) (p q : Player) (t : Task) : Prop where
  same    : q.epoch = p.epoch
  current : p.epoch = epoch → t.playEpoch? = some epoch ∨ q.playing = false
  stale   : p.epoch ≠ epoch → q.playing = p.playing ∧ t.playEpoch? ≠ some p.epoch

theorem Plays.of_steady (h : p.Steady q) (h' : Plays epoch q r t) : Plays epoch p r t := by
  obtain ⟨hplaying, hepoch⟩ := h
  obtain ⟨hsame, hcurrent, hstale⟩ := h'
  rw [hepoch] at hsame hcurrent hstale
  rw [hplaying] at hstale
  exact ⟨hsame, hcurrent, hstale⟩

/-- Who is under way keeps playing. -/
theorem Plays.under_way (h : p.Steady q) (ht : t.playEpoch? = some epoch) :
    Plays epoch p q t := by
  refine ⟨h.2, fun _ => .inl ht, fun hne => ⟨h.1, ?_⟩⟩
  rw [ht]
  intro heq
  exact hne (Option.some.inj heq).symm

/-- In the epoch of the player it does not matter what was said before. -/
theorem Plays.of_current (h : Plays epoch q r t) (hq : q.epoch = p.epoch)
    (hp : p.epoch = epoch) : Plays epoch p r t :=
  ⟨h.same.trans hq, fun _ => h.current (hq.trans hp), fun hne => absurd hp hne⟩

theorem Plays.stuck_iff (h : Plays epoch p q t) :
    q.Stuck (Ensemble.joined machine t tasks) ↔ p.epoch ≠ epoch ∧ p.Stuck tasks := by
  obtain ⟨hsame, hcurrent, hstale⟩ := h
  by_cases hepoch : p.epoch = epoch
  · refine iff_of_false ?_ fun hstuck => hstuck.1 hepoch
    rintro ⟨hplaying, hdeserted⟩
    rcases hcurrent hepoch with ht | hidle
    · exact not_deserted_joined (by rw [ht, hsame, hepoch]) hdeserted
    · rw [hidle] at hplaying
      cases hplaying
  · obtain ⟨hplaying, ht⟩ := hstale hepoch
    rw [← hsame] at ht
    unfold Stuck
    rw [deserted_joined_iff ht, hplaying]
    unfold Deserted
    rw [hsame, and_iff_right hepoch]

theorem plays_finishPlay (p : Player) (epoch : Nat) (report : Report) :
    Plays epoch p (p.finishPlay epoch report).1 (p.finishPlay epoch report).2 := by
  unfold finishPlay
  cases hcurrent : p.isCurrent epoch with
  | true =>
    have hepoch : p.epoch = epoch := beq_iff_eq.1 hcurrent
    exact ⟨rfl, fun _ => .inr rfl, fun hne => absurd hepoch hne⟩
  | false =>
    have hepoch : p.epoch ≠ epoch := beq_eq_false_iff_ne.1 hcurrent
    exact ⟨rfl, fun heq => absurd heq hepoch, fun _ => ⟨rfl, by rintro ⟨⟩⟩⟩

theorem plays_playSteps (p : Player) (epoch now : Nat) (report : Report) (most : Nat) :
    Plays epoch p (p.playSteps epoch now report most).1 (p.playSteps epoch now report most).2 := by
  induction most generalizing p report with
  | zero => exact plays_finishPlay p epoch report
  | succ most ih =>
    have hsteady := steady_beginStep p epoch now
    unfold playSteps
    split
    · rcases hbegin : p.beginStep epoch now with ⟨p', a⟩
      rw [hbegin] at hsteady
      cases a with
      | «over» r =>
        cases r with
        | some r => exact .of_steady hsteady (ih p' _)
        | none => exact .of_steady hsteady (plays_finishPlay p' epoch report)
      | _ => exact .under_way hsteady rfl
    · exact plays_finishPlay p epoch report

theorem plays_resumePlay (p : Player) (epoch now : Nat) (report : Report) (a : Advance) :
    Plays epoch p (p.resumePlay epoch now report a).1 (p.resumePlay epoch now report a).2 := by
  have hsteady := steady_advance p epoch now a
  unfold resumePlay
  rcases hadvance : p.advance epoch now a with ⟨p', a'⟩
  rw [hadvance] at hsteady
  cases a' with
  | «over» r =>
    cases r with
    | some r => exact .of_steady hsteady (plays_playSteps p' epoch now _ _)
    | none => exact .of_steady hsteady (plays_finishPlay p' epoch report)
  | _ => exact .under_way hsteady rfl

/-- Who begins to play says so first, in whichever epoch. -/
theorem plays_beginPlay (p : Player) (epoch now : Nat) (report : Report) :
    Plays epoch { p with playing := true } (p.beginPlay epoch now report).1
      (p.beginPlay epoch now report).2 :=
  .of_steady (q := { p with playing := true }.publish) ⟨rfl, rfl⟩
    (plays_playSteps _ epoch now report _)

theorem plays_settleWrap (h : p.Steady q) (hepoch : p.epoch = epoch) (now ticket : Nat)
    (r : Rebuild) :
    Plays epoch p (q.settleWrap now ticket epoch r).1 (q.settleWrap now ticket epoch r).2 := by
  cases r with
  | «over» report => exact (plays_beginPlay (q.leave ticket) epoch now _).of_current h.2 hepoch
  | performing goal perf rest report => exact .under_way h rfl

theorem plays_wrap (p : Player) (now ticket epoch : Nat) :
    Plays epoch p (p.wrap now ticket epoch).1 (p.wrap now ticket epoch).2 := by
  unfold wrap
  split
  · cases hcurrent : p.isCurrent epoch with
    | true =>
      exact plays_settleWrap (steady_rebuild p now 0) (beq_iff_eq.1 hcurrent) now ticket _
    | false =>
      have hepoch : p.epoch ≠ epoch := beq_eq_false_iff_ne.1 hcurrent
      exact ⟨rfl, fun heq => absurd heq hepoch, fun _ => ⟨rfl, by rintro ⟨⟩⟩⟩
  · exact .under_way ⟨rfl, rfl⟩ rfl

/-! ### All calls -/

/-- Whether a call halts the player when it begins. -/
def Call.Halts (p : Player) : Call → Prop
  | .load _ => True
  | .pause => True
  | .stepBackward => p.cursor ≠ 0
  | .seek _ => True
  | .restart => True
  | _ => False

/-- Whether a call that rebuilds the stage in order to play once more is done with that now, in an
    epoch that is over. -/
def Task.Overruns (p : Player) (now : Nat) : Task → Prop
  | .rewrapping _ epoch r => p.epoch ≠ epoch ∧ ∃ report, (p.resumeRebuild now r).2 = .over report
  | _ => False

theorem not_stuck_of_not_playing (h : p.playing = false) : ¬p.Stuck tasks := by
  rintro ⟨hplaying, _⟩
  rw [h] at hplaying
  cases hplaying

theorem not_stuck_goTo (p : Player) (now : Nat) (goal : Goal) :
    ¬(p.goTo now goal).1.Stuck (Ensemble.joined machine (p.goTo now goal).2 tasks) := by
  have hminds := minds_rewind p.halt.enqueue.1 now p.halt.enqueue.2 goal
  exact fun h => not_stuck_of_not_playing rfl (hminds.stuck_iff.1 h)

theorem not_stuck_play (hidle : p.playing = false) (now : Nat) :
    ¬(p.play now).1.Stuck (Ensemble.joined machine (p.play now).2 tasks) := by
  unfold play
  rw [if_neg (by rw [hidle]; exact Bool.false_ne_true)]
  dsimp only
  split
  · have hplays := plays_wrap p.renew.enqueue.1 now p.renew.enqueue.2 p.renew.epoch
    exact fun h => (hplays.stuck_iff.1 h).1 rfl
  · have hplays := plays_beginPlay p.renew p.renew.epoch now .empty
    exact fun h => (hplays.stuck_iff.1 h).1 rfl

/-- No call makes the player stuck when it begins, and those that halt it end that. -/
theorem stuck_start_iff (p : Player) (now : Nat) (call : Call) (tasks : List Task) :
    (p.start now call).1.Stuck (Ensemble.joined machine (p.start now call).2 tasks) ↔
      p.Stuck tasks ∧ ¬call.Halts p := by
  -- A call goes to some step, which halts the player, or it minds its own business, or it plays.
  have hhalts : ∀ goal, (p.goTo now goal).1.Stuck
      (Ensemble.joined machine (p.goTo now goal).2 tasks) ↔ p.Stuck tasks ∧ ¬True :=
    fun goal => iff_of_false (not_stuck_goTo p now goal) fun h => h.2 trivial
  have hspares : ∀ {q t}, p.Minds q t →
      (q.Stuck (Ensemble.joined machine t tasks) ↔ p.Stuck tasks ∧ ¬False) :=
    fun h => h.stuck_iff.trans (and_iff_left not_false).symm
  cases call with
  | load t => exact hhalts (.load t)
  | play =>
    cases hplaying : p.playing with
    | true =>
      refine hspares ?_
      change p.Minds (p.play now).1 (p.play now).2
      unfold play
      rw [if_pos hplaying]
      exact ⟨⟨rfl, rfl⟩, rfl⟩
    | false =>
      have hidle : ¬p.Stuck tasks := not_stuck_of_not_playing hplaying
      exact iff_of_false (not_stuck_play hplaying now) fun h => hidle h.1
  | pause =>
    exact iff_of_false (not_stuck_of_not_playing rfl) fun h => h.2 trivial
  | stepForward =>
    exact hspares (minds_settleAdvance (steady_beginStep p p.epoch now) p.epoch _)
  | stepBackward =>
    unfold start stepBackward Call.Halts
    dsimp only
    split
    · next hcursor =>
      rw [hcursor]
      exact (Minds.stuck_iff ⟨⟨rfl, rfl⟩, rfl⟩).trans (and_iff_left (not_not.2 rfl)).symm
    · next place hcursor =>
      rw [hcursor]
      exact iff_of_false (not_stuck_goTo p now _) fun h => h.2 (Nat.succ_ne_zero place)
  | seek place => exact hhalts (.seek place)
  | restart => exact hhalts (.seek 0)
  | setSpeed s => exact hspares ⟨⟨rfl, rfl⟩, rfl⟩
  | cycleSpeed => exact hspares ⟨⟨rfl, rfl⟩, rfl⟩

theorem stuck_cons_iff : p.Stuck (t :: tasks) ↔ t.playEpoch? ≠ some p.epoch ∧ p.Stuck tasks := by
  unfold Stuck
  rw [deserted_cons_iff]
  exact and_left_comm

theorem stuck_cons_of_silent (h : t.playEpoch? = none) : p.Stuck (t :: tasks) ↔ p.Stuck tasks := by
  rw [stuck_cons_iff, h]
  exact and_iff_right (by rintro ⟨⟩)

theorem stuck_cons_of_plays (h : t.playEpoch? = some epoch) :
    p.Stuck (t :: tasks) ↔ p.epoch ≠ epoch ∧ p.Stuck tasks := by
  rw [stuck_cons_iff, h]
  exact and_congr_left' (not_congr ⟨fun h => (Option.some.inj h).symm, fun h => h ▸ rfl⟩)

/-- The epoch of the call is over, but from here on the player says that it is playing. -/
theorem stuck_overrun_iff (h : p.Steady q) (hepoch : p.epoch ≠ epoch) (now ticket : Nat)
    (report : Report) :
    (q.settleWrap now ticket epoch (.over report)).1.Stuck
      (Ensemble.joined machine (q.settleWrap now ticket epoch (.over report)).2 tasks) ↔
      p.Deserted tasks := by
  have hplays := plays_beginPlay (q.leave ticket) epoch now (Report.empty.merge report)
  refine hplays.stuck_iff.trans ⟨?_, fun hdeserted => ⟨?_, rfl, ?_⟩⟩
  · rintro ⟨_, _, hdeserted⟩ t ht
    rw [← h.2]
    exact hdeserted t ht
  · change q.epoch ≠ epoch
    rwa [h.2]
  · intro t ht
    change t.playEpoch? ≠ some q.epoch
    rw [h.2]
    exact hdeserted t ht

/-- Going on makes the player stuck only where a call overruns. -/
theorem stuck_resume_iff (p : Player) (now : Nat) (t : Task) (tasks : List Task) :
    (p.resume now t).1.Stuck (Ensemble.joined machine (p.resume now t).2 tasks) ↔
      t.Overruns p now ∧ p.Deserted (t :: tasks) ∨ p.Stuck (t :: tasks) := by
  -- Most calls cannot overrun. Those that play did not leave the player stuck before.
  have hminds : ∀ {q t'}, ¬t.Overruns p now → t.playEpoch? = none → p.Minds q t' →
      (q.Stuck (Ensemble.joined machine t' tasks) ↔
        t.Overruns p now ∧ p.Deserted (t :: tasks) ∨ p.Stuck (t :: tasks)) := by
    intro q t' hover hsilent h
    rw [stuck_cons_of_silent hsilent, or_iff_right fun h => hover h.1]
    exact h.stuck_iff
  have hplays : ∀ {q t' epoch}, ¬t.Overruns p now → t.playEpoch? = some epoch →
      Plays epoch p q t' → (q.Stuck (Ensemble.joined machine t' tasks) ↔
        t.Overruns p now ∧ p.Deserted (t :: tasks) ∨ p.Stuck (t :: tasks)) := by
    intro q t' epoch hover ht h
    rw [stuck_cons_of_plays ht, or_iff_right fun h => hover h.1]
    exact h.stuck_iff
  cases t with
  | rewinding ticket goal => exact hminds id rfl (minds_rewind p now ticket goal)
  | rebuilding ticket r =>
    exact hminds id rfl (minds_settleRebuild (steady_resumeRebuild p now r) ticket _)
  | wrapping ticket epoch => exact hplays id rfl (plays_wrap p now ticket epoch)
  | rewrapping ticket epoch r =>
    have hsteady := steady_resumeRebuild p now r
    by_cases hepoch : p.epoch = epoch
    · exact hplays (fun h => h.1 hepoch) rfl (plays_settleWrap hsteady hepoch now ticket _)
    · unfold resume
      dsimp only
      cases hr : (p.resumeRebuild now r).2 with
      | performing goal perf rest report =>
        refine hplays ?_ rfl (.under_way hsteady rfl)
        rintro ⟨_, report', hover⟩
        rw [hr] at hover
        cases hover
      | «over» report =>
        refine (stuck_overrun_iff hsteady hepoch now ticket report).trans ?_
        rw [stuck_cons_of_plays rfl]
        constructor
        · refine fun h => .inl ⟨⟨hepoch, report, hr⟩, deserted_cons_iff.2 ⟨?_, h⟩⟩
          exact fun heq => hepoch (Option.some.inj heq).symm
        · rintro (⟨_, h⟩ | ⟨_, _, h⟩)
          · exact (deserted_cons_iff.1 h).2
          · exact h
  | playing epoch report a => exact hplays id rfl (plays_resumePlay p epoch now report a)
  | stepping epoch a =>
    exact hminds id rfl (minds_settleAdvance (steady_advance p epoch now a) epoch _)
  | «over» report => exact hminds id rfl ⟨⟨rfl, rfl⟩, rfl⟩

/-! ### After any events -/

variable {e : Ensemble Player Call Task} {event : Ensemble.Event Call}

/-- The event begins a call that halts the player. -/
def Halts (e : Ensemble Player Call Task) (event : Ensemble.Event Call) : Prop :=
  ∃ call, e.begun? event = some call ∧ call.Halts e.world

/-- With the event a call overruns while nobody plays. -/
def Strays (e : Ensemble Player Call Task) (event : Ensemble.Event Call) : Prop :=
  ∃ t, e.resumed? event = some t ∧ t.Overruns e.world (e.step machine event).now ∧
    e.world.Deserted e.inFlight

/-- A call overran while nobody played, and no call that halts the player began since. -/
def Strayed (e : Ensemble Player Call Task) (events : List (Ensemble.Event Call)) : Prop :=
  ∃ before event later, events = before ++ event :: later ∧
    Strays (e.after machine before) event ∧
    ∀ between next rest, later = between ++ next :: rest →
      ¬Halts (e.after machine (before ++ event :: between)) next

theorem strayed_snoc_iff (events : List (Ensemble.Event Call)) :
    Strayed e (events ++ [event]) ↔ Strays (e.after machine events) event ∨
      Strayed e events ∧ ¬Halts (e.after machine events) event := by
  constructor
  · rintro ⟨before, first, later, heq, hstrays, hquiet⟩
    -- The event that strays is the last one, or the last one came later and halted nothing.
    rcases List.eq_nil_or_concat' later with rfl | ⟨later, last, rfl⟩
    · obtain ⟨rfl, hlast⟩ := List.append_inj' heq rfl
      obtain rfl := List.singleton_inj.1 hlast
      exact .inl hstrays
    · rw [← List.cons_append, ← List.append_assoc] at heq
      obtain ⟨rfl, hlast⟩ := List.append_inj' heq rfl
      obtain rfl := List.singleton_inj.1 hlast
      refine .inr ⟨⟨before, first, later, rfl, hstrays, ?_⟩, hquiet later event [] rfl⟩
      intro between next rest hlater
      exact hquiet between next (rest ++ [event]) (by simp [hlater])
  · rintro (hstrays | ⟨⟨before, first, later, rfl, hstrays, hquiet⟩, hlast⟩)
    · refine ⟨events, event, [], rfl, hstrays, ?_⟩
      intro between next rest hnil
      cases between <;> cases hnil
    · refine ⟨before, first, later ++ [event], by simp, hstrays, ?_⟩
      intro between next rest hlater
      rcases List.eq_nil_or_concat' rest with rfl | ⟨rest, last, rfl⟩
      · obtain ⟨rfl, heq⟩ := List.append_inj' hlater rfl
        obtain rfl := List.singleton_inj.1 heq
        exact hlast
      · rw [← List.cons_append, ← List.append_assoc] at hlater
        exact hquiet between next rest (List.append_inj' hlater rfl).1

/-- An event makes the player stuck if with it a call overruns, and it stays so until it is
    halted. -/
theorem stuck_step_iff (e : Ensemble Player Call Task) (event : Ensemble.Event Call) :
    (e.step machine event).world.Stuck (e.step machine event).inFlight ↔
      Strays e event ∨ e.world.Stuck e.inFlight ∧ ¬Halts e event := by
  cases hbegun : e.begun? event with
  | some call =>
    -- A call begins: nobody overruns, and the player stays stuck unless the call halts it.
    obtain ⟨hworld, hperm⟩ := Ensemble.step_of_begun (m := machine) hbegun
    have hstrays : ¬Strays e event := by
      rintro ⟨t, ht, _⟩
      rw [Ensemble.resumed?_of_begun hbegun] at ht
      cases ht
    have hhalts : Halts e event ↔ call.Halts e.world := by
      unfold Halts
      rw [hbegun]
      exact ⟨fun ⟨c, hc, h⟩ => Option.some.inj hc ▸ h, fun h => ⟨call, rfl, h⟩⟩
    rw [or_iff_right hstrays, hhalts, hworld, ← Stuck.perm_iff hperm]
    exact stuck_start_iff e.world _ call e.inFlight
  | none =>
    -- No call begins, so nothing halts the player; whether one overruns is up to who goes on.
    have hhalts : ¬Halts e event := by
      rintro ⟨call, hcall, _⟩
      rw [hbegun] at hcall
      cases hcall
    rw [and_iff_left hhalts]
    cases hresumed : e.resumed? event with
    | some t =>
      obtain ⟨hworld, ts, hbefore, hafter⟩ := Ensemble.step_of_resumed (m := machine) hresumed
      have hstrays : Strays e event ↔
          t.Overruns e.world (e.step machine event).now ∧ e.world.Deserted (t :: ts) := by
        unfold Strays Deserted
        simp only [hresumed, hbefore.mem_iff]
        exact ⟨fun ⟨u, hu, h⟩ => Option.some.inj hu ▸ h, fun h => ⟨t, rfl, h⟩⟩
      rw [hstrays, hworld, ← Stuck.perm_iff hafter, Stuck.perm_iff hbefore]
      exact stuck_resume_iff e.world _ t ts
    | none =>
      obtain ⟨hworld, hsame⟩ := Ensemble.step_of_idle (m := machine) hbegun hresumed
      have hstrays : ¬Strays e event := by
        rintro ⟨t, ht, _⟩
        rw [hresumed] at ht
        cases ht
      rw [or_iff_right hstrays, hworld, hsame]

/-- When the player is stuck, after any events. -/
theorem stuck_after_iff (narrator : Narrator) (coins : List Bool) (start : Nat)
    (events : List (Ensemble.Event Call)) :
    ((Ensemble.alone start (ofNarrator narrator coins)).after machine events).world.Stuck
      ((Ensemble.alone start (ofNarrator narrator coins)).after machine events).inFlight ↔
      Strayed (Ensemble.alone start (ofNarrator narrator coins)) events := by
  induction events using List.reverseRecOn with
  | nil =>
    refine iff_of_false (not_stuck_of_not_playing rfl) ?_
    rintro ⟨before, event, later, heq, _⟩
    cases before <;> cases heq
  | append_singleton events event ih =>
    rw [strayed_snoc_iff, ← ih, Ensemble.after_append]
    exact stuck_step_iff _ event

/-! ### Playing from rest -/

/-- The cursor is behind the place of a step whose commands are through. -/
theorem cursor_settleStep {x : Stage × Performance} (hover : x.2.isOver = true)
    (p : Player) (epoch now ticket place : Nat) (step : Step) :
    (p.settleStep epoch now ticket place step x).1.cursor = place + 1 := by
  obtain ⟨stage, perf⟩ := x
  unfold settleStep
  dsimp only
  rw [if_pos hover]
  -- What follows the commands concerns the narrator and the coins only.
  obtain ⟨narrator, coins, hfollow⟩ := narrated_follow
    (publish { p with stage, cursor := place + 1 }) epoch now step .ahead
  have hcursor : ∀ (q : Player) (report : Report) (tail : Tail),
      (q.settleTail ticket step report tail).1.cursor = q.cursor := by
    intro q report tail
    cases tail <;> rfl
  rw [hcursor, hfollow]
  rfl

/-- As long as they are not, nothing changed but the stage. -/
theorem settleStep_of_not_over {stage : Stage} {perf : Performance} (hover : perf.isOver = false)
    (p : Player) (epoch now ticket place : Nat) (step : Step) :
    p.settleStep epoch now ticket place step (stage, perf) =
      ({ p with stage }, .performing ticket place step perf) := by
  unfold settleStep
  simp only [hover, Bool.false_eq_true, ↓reduceIte]

theorem cursor_le_settleStep (p : Player) (epoch now ticket : Nat) (step : Step)
    (x : Stage × Performance) :
    p.cursor ≤ (p.settleStep epoch now ticket p.cursor step x).1.cursor := by
  obtain ⟨stage, perf⟩ := x
  cases hover : perf.isOver with
  | true =>
    rw [cursor_settleStep hover]
    exact Nat.le_succ _
  | false =>
    rw [settleStep_of_not_over hover]

theorem cursor_le_beginStep (p : Player) (epoch now : Nat) :
    p.cursor ≤ (p.beginStep epoch now).1.cursor := by
  unfold beginStep advance
  dsimp only
  split
  · split
    · exact cursor_le_settleStep p.enqueue.1 epoch now _ _ _
    · exact Nat.le_refl _
  · exact Nat.le_refl _

theorem cursor_finishPlay (p : Player) (epoch : Nat) (report : Report) :
    (p.finishPlay epoch report).1.cursor = p.cursor := by
  unfold finishPlay
  cases p.isCurrent epoch <;> rfl

/-- Who plays never goes back, neither from where it begins nor from where the first step leads. -/
theorem cursor_le_playSteps (p : Player) (epoch now : Nat) (report : Report) (most : Nat) :
    p.cursor ≤ (p.playSteps epoch now report most).1.cursor ∧
      (0 < most → p.isCurrent epoch = true →
        (p.beginStep epoch now).1.cursor ≤ (p.playSteps epoch now report most).1.cursor) := by
  -- By induction on the number of steps that are left to perform.
  induction most generalizing p report with
  | zero =>
    exact ⟨Nat.le_of_eq (cursor_finishPlay p epoch report).symm,
      fun hpos => absurd hpos (Nat.lt_irrefl 0)⟩
  | succ most ih =>
    unfold playSteps
    cases hcurrent : p.isCurrent epoch with
    | false =>
      rw [if_neg Bool.false_ne_true]
      exact ⟨Nat.le_of_eq (cursor_finishPlay p epoch report).symm,
        fun _ h => absurd h Bool.false_ne_true⟩
    | true =>
      rw [if_pos rfl]
      have hbegun := cursor_le_beginStep p epoch now
      rcases hbegin : p.beginStep epoch now with ⟨p', a⟩
      rw [hbegin] at hbegun
      suffices hle : p'.cursor ≤ _ from ⟨Nat.le_trans hbegun hle, fun _ _ => hle⟩
      cases a with
      | «over» r =>
        cases r with
        | some r => exact (ih p' _).1
        | none => exact Nat.le_of_eq (cursor_finishPlay p' epoch report).symm
      | _ => exact Nat.le_refl _

theorem beginStep_eq (hgate : p.gate.waiting = [])
    (hstep : p.timeline.steps[p.cursor]? = some step) (now : Nat) :
    p.beginStep p.epoch now = p.enqueue.1.settleStep p.epoch now p.enqueue.2 p.cursor step
      (Performance.start now .realtime p.stage step.commands) := by
  have hleads : p.enqueue.1.gate.leads p.enqueue.2 = true := Line.leads_join hgate
  have hcurrent : p.enqueue.1.isCurrent p.epoch = true := beq_self_eq_true p.epoch
  have hstep' : p.enqueue.1.timeline.steps[p.enqueue.1.cursor]? = some step := hstep
  change p.enqueue.1.advance p.epoch now (.queued p.enqueue.2) = _
  unfold advance
  dsimp only
  rw [if_pos hleads, hcurrent, hstep']
  rfl

/-- Where nobody is at the gate and the player does not say that it is playing, to play is to
    perform the step under the cursor. -/
theorem play_performs (hgate : p.gate.waiting = []) (hidle : p.playing = false)
    (hstep : p.timeline.steps[p.cursor]? = some step) (now : Nat) :
    if (Performance.start now .realtime p.stage step.commands).2.isOver then
      p.cursor < (p.play now).1.cursor
    else (p.play now).1.stage = (Performance.start now .realtime p.stage step.commands).1 ∧
      ∃ ticket, (p.play now).2 = .playing (p.play now).1.epoch .empty
        (.performing ticket p.cursor step
          (Performance.start now .realtime p.stage step.commands).2) := by
  have hplace : p.cursor < p.total := (List.getElem?_eq_some_iff.1 hstep).1
  have hunfinished : p.renew.status ≠ .finished := by
    have hplaying : p.renew.playing = false := hidle
    have hopen : ¬(0 < p.renew.total ∧ p.renew.total ≤ p.renew.cursor) :=
      fun h => Nat.not_le.2 hplace h.2
    unfold status
    rw [hplaying, if_neg Bool.false_ne_true, if_neg hopen]
    split <;> simp
  -- Who plays is in the epoch of the player and alone at its gate.
  let q : Player := { p.renew with playing := true }.publish
  have hplay : p.play now = q.playSteps q.epoch now .empty (q.total - q.cursor + 1) := by
    unfold play
    rw [if_neg (by rw [hidle]; exact Bool.false_ne_true)]
    dsimp only
    rw [if_neg hunfinished]
    rfl
  have hcurrent : q.isCurrent q.epoch = true := beq_self_eq_true q.epoch
  have hbegin := beginStep_eq (p := q) hgate hstep now
  rw [hplay]
  rcases hx : Performance.start now .realtime p.stage step.commands with ⟨stage, perf⟩
  rw [show Performance.start now .realtime q.stage step.commands = (stage, perf) from hx] at hbegin
  dsimp only
  cases hover : perf.isOver with
  | true =>
    have hcursor := cursor_settleStep (x := (stage, perf)) hover q.enqueue.1 q.epoch now q.enqueue.2
      q.cursor step
    have hle := (cursor_le_playSteps q q.epoch now .empty (q.total - q.cursor + 1)).2
      (Nat.succ_pos _) hcurrent
    rw [hbegin, hcursor] at hle
    exact hle
  | false =>
    rw [settleStep_of_not_over hover] at hbegin
    have hplaying : q.playSteps q.epoch now .empty (q.total - q.cursor + 1) =
        ({ q.enqueue.1 with stage }, .playing q.epoch .empty
          (.performing q.enqueue.2 q.cursor step perf)) := by
      rw [playSteps, if_pos hcurrent, hbegin]
    rw [hplaying]
    exact ⟨rfl, q.enqueue.2, rfl⟩

/-- Whatever calls were made and however they took turns: the player says that it is playing while
    nobody plays in its epoch exactly where a call overran and no call halted the player since. Once
    every call has returned, to play returns at once where that is so. Where it is not, the player
    does not say that it is playing, and to play performs the step under the cursor, if there is
    one. -/
theorem status_after (narrator : Narrator) (coins : List Bool) (start : Nat)
    (events : List (Ensemble.Event Call)) :
    let alone : Ensemble Player Call Task := Ensemble.alone start (ofNarrator narrator coins)
    let e := alone.after machine events
    (e.world.status = .playing ∧ e.world.Deserted e.inFlight ↔ Strayed alone events) ∧
    (e.inFlight = [] →
      (Strayed alone events → ∀ now,
        machine.start now e.world .play = (e.world, .over (some .empty))) ∧
      (¬Strayed alone events → e.world.status ≠ .playing ∧
        ∀ now step, e.world.timeline.steps[e.world.cursor]? = some step →
          let x := Performance.start now .realtime e.world.stage step.commands
          let y := machine.start now e.world .play
          if x.2.isOver then e.world.cursor < y.1.cursor
          else y.1.stage = x.1 ∧ ∃ ticket, y.2 =
            .playing y.1.epoch .empty (.performing ticket e.world.cursor step x.2))) := by
  intro alone e
  have hstuck : e.world.Stuck e.inFlight ↔ Strayed alone events :=
    stuck_after_iff narrator coins start events
  refine ⟨?_, fun hnone => ⟨fun hstrayed now => ?_, fun hstrayed => ?_⟩⟩
  · rw [status_eq_playing_iff]
    exact hstuck
  · change e.world.play now = _
    unfold play
    rw [if_pos (hstuck.2 hstrayed).1]
  · -- Nobody is under way, so a player that said that it is playing would be stuck.
    have hdeserted : e.world.Deserted e.inFlight := by
      rw [hnone]
      rintro t ⟨⟩
    have hidle : e.world.playing = false := by
      rw [Bool.eq_false_iff]
      exact fun hplaying => hstrayed (hstuck.1 ⟨hplaying, hdeserted⟩)
    refine ⟨?_, fun now step hstep => ?_⟩
    · rw [Ne, status_eq_playing_iff, hidle]
      exact Bool.false_ne_true
    · have hordered : e.world.Ordered (e.inFlight.map Task.standing) :=
        ordered_after narrator coins start events
      rw [hnone] at hordered
      exact play_performs hordered.line.waiting_eq_nil hidle hstep now

/-- A timeline of one step is at its end, and to play it once more is halted while the stage is
    rebuilt. Both calls have returned then, and the player says that it is playing. -/
theorem playing_after_pause :
    let node : Json := .obj [("command", .str "CREATE_NODE"), ("id", .str "a"),
      ("position", .obj [("x", .int 0), ("y", .int 0)])]
    let e := (Ensemble.alone 0 (ofNarrator (.ofEquipment .usual []) [])).after machine
      [.join 0 (.load ⟨[node], [⟨[], none, none⟩]⟩), .turn 0 0, .turn 0 0,
        .join 0 (.seek 1), .turn 1 0, .turn 1 0,
        .join 0 .play, .turn 2 0, .join 0 .pause, .turn 3 0, .turn 2 0]
    e.inFlight.isEmpty ∧ e.world.status = .playing ∧ e.world.cursor < e.world.total := by
  decide +kernel

end Storyboard.Player
