import Storyboard.Proofs.Ensemble.Timing
import Storyboard.Proofs.Playback.Epoch
import Storyboard.Proofs.Playback.Return

/-! # The course of playing

    A step is under way until its commands are through and, as long as its
    epoch lasts, until what follows them is over (`lasts_step`). A call to play
    that nobody interrupts goes on until there are no more steps
    (`plays_after`). With what is known of the reel, this is the course of
    playing whatever calls are made (`course_after`).

    A call to play performs nothing at all where the player only says that it
    is playing, and that need not be so because somebody plays
    (`play_performs_nothing`). -/

namespace Storyboard

open Ensemble

/-! ### What the deeds tell -/

/-- Between two rebuildings, the steps that begin are consecutive, from the place on to which the
    first one led. At first the stage counts as rebuilt before the first step. -/
def Consecutive (deeds : List Deed) : Prop :=
  ∀ before goal mid after, .rebuilt 0 :: deeds = before ++ .rebuilt goal :: (mid ++ after) →
    .clears ∉ mid → ∃ n, mid.filterMap (·.begun?) = List.range' goal n

/-- Of so many steps, those that were to come at some moment have all begun since, one after
    another, unless the stage was cleared since. -/
def Complete (total : Nat) (deeds : List Deed) : Prop :=
  ∀ before more s, deeds = before ++ more → (Stretch.idle 0).reads before = some s →
    s ≠ .rebuilding → .clears ∉ more →
      more.filterMap (·.begun?) = List.range' s.upcoming (total - s.upcoming)

/-! ### How long a step is under way -/

/-- The ticket of a step under way. -/
def Advance.busy? : Advance → Option Nat
  | .performing ticket _ _ _ => some ticket
  | .trailing ticket _ _ _ => some ticket
  | _ => none

/-- The step under way is over at a time: its commands are through, and as long as its epoch lasts,
    what follows them is over, too. -/
def Advance.Ends (p : Player) (epoch now : Nat) : Advance → Prop
  | .performing _ _ step perf => (perf.resume now p.stage).2.isOver = true ∧
      (p.epoch = epoch → (p.resumeTail now step .ahead).2 = .over)
  | .trailing _ step _ tail => p.epoch = epoch → (p.resumeTail now step tail).2 = .over
  | _ => False

namespace Player

/-- The ticket of the step that a call has under way. -/
def Task.busy? : Task → Option Nat
  | .playing _ _ a => a.busy?
  | .stepping _ a => a.busy?
  | _ => none

/-- The step that a call has under way is over at a time. -/
def Task.Ends (p : Player) (now : Nat) : Task → Prop
  | .playing epoch _ a => a.Ends p epoch now
  | .stepping epoch a => a.Ends p epoch now
  | _ => False

variable {p q : Player} {t u : Task} {ts : List Task} {a : Advance} {deeds : List Deed}
  {n now epoch ticket i since time : Nat} {step : Step} {tail : Tail} {report : Report}
  {e : Ensemble Player Call Task} {event : Event Call} {events : List (Event Call)}
  {equipment : Narration.Equipment} {tosses coins : List Bool}

/-- A step lasts as long as the player, its narrator and its speed make it. -/
theorem dwell_congr (h : q.speed = p.speed) (now : Nat) (step : Step) :
    q.dwell now step = p.dwell now step := by
  unfold dwell
  rw [h]

theorem resumeTail_ahead_congr (hnarrator : q.narrator = p.narrator) (hspeed : q.speed = p.speed)
    (now : Nat) (step : Step) :
    (q.resumeTail now step .ahead).2 = (p.resumeTail now step .ahead).2 := by
  unfold resumeTail
  dsimp only
  cases step.spoken? with
  | none => exact dwell_congr hspeed now step
  | some text =>
    dsimp only
    rw [hnarrator]
    rcases p.narrator.speak now text with ⟨narrator, s⟩
    show (if s.isOver then Player.dwell { q with narrator } now step else .speaking s) =
      if s.isOver then Player.dwell { p with narrator } now step else .speaking s
    rw [dwell_congr (q := { q with narrator }) (p := { p with narrator }) hspeed now step]

theorem busy_settleTail (p : Player) (ticket : Nat) (step : Step) (report : Report) (tail : Tail) :
    (p.settleTail ticket step report tail).2.busy? = some ticket ∨ tail = .over := by
  cases tail with
  | «over» => exact .inr rfl
  | _ => exact .inl rfl

/-- A step under way stays so or is over now. -/
theorem busy_advance (p : Player) (epoch now : Nat) (ha : a.busy? = some ticket) :
    (p.advance epoch now a).2.busy? = some ticket ∨ a.Ends p epoch now := by
  cases a with
  | performing ticket' place step perf =>
    obtain rfl := Option.some.inj ha
    show (p.settleStep epoch now ticket' place step (perf.resume now p.stage)).2.busy? = _ ∨
      (perf.resume now p.stage).2.isOver = true ∧ _
    -- Once the commands are through, the tail begins at once, and it may be over as soon.
    rcases perf.resume now p.stage with ⟨stage, perf'⟩
    unfold settleStep
    dsimp only
    cases hover : perf'.isOver with
    | false => exact .inl rfl
    | true =>
      rw [if_pos rfl]
      let q : Player := publish { { p with stage } with cursor := place + 1 }
      rcases busy_settleTail (q.follow epoch now step .ahead).1 ticket' step perf'.report
        (q.follow epoch now step .ahead).2 with hbusy | hdone
      · exact .inl hbusy
      · refine .inr ⟨rfl, fun hcurrent => ?_⟩
        rw [follow_of_current (p := q) hcurrent] at hdone
        rwa [resumeTail_ahead_congr (q := q) (p := p) rfl rfl] at hdone
  | trailing ticket' step report tail =>
    obtain rfl := Option.some.inj ha
    rcases busy_settleTail (p.follow epoch now step tail).1 ticket' step report
      (p.follow epoch now step tail).2 with hbusy | hdone
    · exact .inl hbusy
    · refine .inr fun hcurrent => ?_
      rwa [follow_of_current hcurrent] at hdone
  | _ => cases ha

/-- So it is with a call that has it under way. -/
theorem busy_resume (p : Player) (now : Nat) (ht : t.busy? = some ticket) :
    (p.resume now t).2.isOver = false ∧ (p.resume now t).2.busy? = some ticket ∨ t.Ends p now := by
  cases t with
  | playing epoch report a =>
    -- Playing and stepping are busy with the step of their advance, and with nothing else.
    rcases busy_advance p epoch now (a := a) ht with hbusy | hends
    · refine .inl ?_
      show (p.resumePlay epoch now report a).2.isOver = false ∧
        (p.resumePlay epoch now report a).2.busy? = some ticket
      unfold resumePlay
      rcases hx : p.advance epoch now a with ⟨q, b⟩
      rw [hx] at hbusy
      cases b with
      | «over» report' => cases hbusy
      | queued ticket' => cases hbusy
      | _ => exact ⟨rfl, hbusy⟩
    · exact .inr hends
  | stepping epoch a =>
    rcases busy_advance p epoch now (a := a) ht with hbusy | hends
    · refine .inl ?_
      show ((p.advance epoch now a).1.settleAdvance epoch (p.advance epoch now a).2).2.isOver =
          false ∧
        ((p.advance epoch now a).1.settleAdvance epoch (p.advance epoch now a).2).2.busy? =
          some ticket
      rcases hx : p.advance epoch now a with ⟨q, b⟩
      rw [hx] at hbusy
      cases b with
      | «over» report' => cases hbusy
      | queued ticket' => cases hbusy
      | _ => exact ⟨rfl, hbusy⟩
    · exact .inr hends
  | _ => cases ht

/-- Whatever happens, a step under way stays so or is over now. -/
theorem lasts_step (ht : e.voices[i]? = some (.running since t)) (hbusy : t.busy? = some ticket)
    (event : Event Call) :
    (∃ u, (e.step machine event).voices[i]? = some (.running since u) ∧ u.busy? = some ticket) ∨
      t.Ends e.world (e.step machine event).now := by
  rcases voice_step_of_running (m := machine) ht event with hsame | ⟨hresumed, hv⟩
  · exact .inl ⟨t, hsame, hbusy⟩
  · rcases busy_resume e.world (e.step machine event).now hbusy with ⟨hopen, hbusy'⟩ | hends
    · exact .inl ⟨_, hv.trans (congrArg some (if_neg (Bool.eq_false_iff.1 hopen))), hbusy'⟩
    · exact .inr hends

/-! ### Playing to the end -/

/-- There are no more steps, and nobody is at anything on the stage. -/
def Exhausted (p : Player) (ts : List Task) : Prop :=
  p.cursor = p.total ∧ ∀ t ∈ ts, ∀ cursor, t.stretch? cursor = none

/-- The call plays in an epoch, and once it has found no further step there are no more. -/
def Onward (epoch : Nat) (p : Player) (ts : List Task) : Task → Prop
  | .wrapping _ epoch' => epoch' = epoch
  | .rewrapping _ epoch' _ => epoch' = epoch
  | .playing epoch' _ (.over none) => epoch' = epoch ∧ p.Exhausted ts
  | .playing epoch' _ _ => epoch' = epoch
  | .over _ => p.Exhausted ts
  | _ => False

/-- A call that plays in the epoch of the player goes on until there are no more steps. -/
theorem Move.onward (hmove : Move now p t deeds q u)
    (h : p.Ordered (t.standing :: ts.map Task.standing)) (ht : Onward p.epoch p ts t) :
    Onward p.epoch q ts u := by
  cases hmove with
  | rewind hleads => exact ht.elim
  | rebuild hready hr => exact ht.elim
  | rebuilt => exact ht.elim
  | wrap hleads hcurrent => exact ht
  | unwrap hleads hstale => exact absurd ht.symm hstale
  | rewrap hready hr => exact ht
  | rewrapped => exact ht
  | @play _ epoch report a b deeds hstrides =>
    cases hstrides with
    | @pass ticket hleads hnone =>
      obtain rfl : epoch = p.epoch := ht
      -- Whoever finds no step is at the head, so nobody else is at anything.
      have hplace : p.total ≤ p.cursor := List.getElem?_eq_none_iff.1 (hnone rfl)
      have hcursor := (h.settled_of_leads rfl hleads rfl).cursor
      exact ⟨rfl, Nat.le_antisymm hcursor hplace, h.stretch?_others ⟨ticket, rfl, hleads⟩⟩
    | _ => exact ht
  | next hcurrent => exact ht
  | stop hstale => exact absurd ht.symm hstale
  | @finish epoch report =>
    obtain ⟨_, hplace, hothers⟩ := ht
    obtain ⟨hcursor, htimeline, _⟩ := p.finishPlay_same epoch report
    refine ⟨?_, hothers⟩
    rw [hcursor, total, htimeline]
    exact hplace
  | step hstrides => exact ht.elim
  | stepped => exact ht.elim

theorem onward_of_moves (hmoves : Moves now n p t deeds q u)
    (h : p.Ordered (t.standing :: ts.map Task.standing)) (ht : Onward p.epoch p ts t) :
    Onward p.epoch q ts u := by
  induction hmoves with
  | refl => exact ht
  | head hfirst _ ih =>
    have hmoved := hfirst.onward h ht
    rw [← hfirst.steers.same] at hmoved ⊢
    exact ih (h.move hfirst) hmoved

/-- A call that waits for something plays on, or there are no more steps. -/
theorem Onward.cases (ht : t.Rests) (h : Onward epoch p ts t) :
    t.isOver = false ∧ t.playEpoch? = some epoch ∨ t.isOver = true ∧ p.Exhausted ts := by
  cases t with
  | wrapping ticket epoch' => exact .inl ⟨rfl, congrArg some h⟩
  | rewrapping ticket epoch' r => exact .inl ⟨rfl, congrArg some h⟩
  | playing epoch' report a =>
    cases a with
    | «over» report' => exact ht.elim
    | _ => exact .inl ⟨rfl, congrArg some h⟩
  | «over» report => exact .inr ⟨rfl, h⟩
  | _ => exact h.elim

theorem onward_of_playEpoch? (ht : t.Rests) (h : t.playEpoch? = some epoch) :
    Onward epoch p ts t := by
  cases t with
  | wrapping ticket epoch' => exact Option.some.inj h
  | rewrapping ticket epoch' r => exact Option.some.inj h
  | playing epoch' report a =>
    cases a with
    | «over» report' => exact ht.elim
    | _ => exact Option.some.inj h
  | _ => cases h

/-- The call at a place plays in the epoch of the player, or it has just returned and there are no
    more steps. -/
def PlaysOn (e : Ensemble Player Call Task) (i : Nat) : Prop :=
  (∃ since t, e.voices[i]? = some (.running since t) ∧ t.playEpoch? = some e.world.epoch) ∨
    (∃ since t, e.voices[i]? = some (.done since e.now t e.world)) ∧ e.world.Exhausted e.inFlight

theorem playsOn_of_settle {e' : Ensemble Player Call Task} {start : Nat} {x : Player × Task}
    (hrests : x.2.Rests) (honward : Onward epoch x.1 ts x.2) (hepoch : e'.world.epoch = epoch)
    (hv : e'.voices[i]? = some (Voice.settle machine e'.now start x).2) (hworld : e'.world = x.1)
    (hflight : (joined machine x.2 ts).Perm e'.inFlight) : PlaysOn e' i := by
  obtain ⟨q, u⟩ := x
  obtain rfl : e'.world = q := hworld
  rcases honward.cases hrests with ⟨hopen, hplays⟩ | ⟨hover, hplace, hidle⟩
  · refine .inl ⟨start, u, hv.trans (congrArg some (if_neg ?_)), hepoch ▸ hplays⟩
    exact Bool.eq_false_iff.1 hopen
  · have hsame : joined machine u ts = ts := if_pos hover
    rw [hsame] at hflight
    refine .inr ⟨⟨start, u, hv.trans (congrArg some (if_pos hover))⟩, hplace, fun v hv => ?_⟩
    exact hidle v (hflight.mem_iff.2 hv)

/-- A call that begins to play. -/
theorem playsOn_of_begun (hplayed : Played equipment tosses coins e)
    (hbegun : e.begun? (.turn i time) = some .play) (hidle : e.world.playing = false) :
    PlaysOn (e.step machine (.turn i time)) i := by
  obtain ⟨log, hreeled⟩ := hplayed.reeled
  obtain ⟨hworld, hflight⟩ := step_of_begun (m := machine) hbegun
  obtain ⟨hrests, n, deeds, _, hmoves⟩ :=
    comes_start e.world (e.step machine (.turn i time)).now .play
  have hordered := hreeled.ordered.enter (e.world.entered .play)
  have hstart : Onward (e.world.enter .play).1.epoch (e.world.enter .play).1 e.inFlight
      (e.world.enter .play).2 := by
    show Onward e.world.enterPlay.1.epoch e.world.enterPlay.1 e.inFlight e.world.enterPlay.2
    unfold enterPlay
    rw [if_neg (by rw [hidle]; exact Bool.false_ne_true)]
    split
    · exact rfl
    · exact rfl
  have hsame := (steers_of_moves hmoves).same
  rw [← show _ = (e.world.start (e.step machine (.turn i time)).now .play).1 from hworld] at hsame
  exact playsOn_of_settle hrests (onward_of_moves hmoves hordered hstart) hsame
    (voice_step_of_begun hbegun) hworld hflight

/-- It goes on in the epoch of the player, or there are no more steps when it returns. -/
theorem playsOn_step (hplayed : Played equipment tosses coins e)
    (ht : e.voices[i]? = some (.running since t)) (hplays : t.playEpoch? = some e.world.epoch)
    (hsame : (e.step machine event).world.epoch = e.world.epoch) :
    PlaysOn (e.step machine event) i := by
  obtain ⟨log, hreeled⟩ := hplayed.reeled
  rcases voice_step_of_running (m := machine) ht event with hstays | ⟨hresumed, hv⟩
  · exact .inl ⟨since, t, hstays, hsame ▸ hplays⟩
  · have hopen := (hplayed.rests t (mem_inFlight (List.mem_of_getElem? ht))).2
    obtain ⟨hworld, ts, hbefore, hflight⟩ := step_of_resumed (m := machine) hresumed
    obtain ⟨hrests, n, deeds, _, hmoves⟩ :=
      comes_resume e.world (e.step machine event).now hopen
    have hordered : e.world.Ordered (t.standing :: ts.map Task.standing) :=
      hreeled.ordered.perm (hbefore.map _)
    exact playsOn_of_settle hrests
      (onward_of_moves hmoves hordered (onward_of_playEpoch? hopen hplays)) hsame hv hworld hflight

theorem epoch_le_after (hplayed : Played equipment tosses coins e) (events : List (Event Call)) :
    e.world.epoch ≤ (e.after machine events).world.epoch := by
  induction events using List.reverseRecOn with
  | nil => exact Nat.le_refl _
  | append_singleton events event ih =>
    rw [after_append]
    exact Nat.le_trans ih (world_step (hplayed.after events).rests event).1

/-- Whoever plays in the epoch of the player plays as long as it lasts, until there are no more
    steps. -/
theorem plays_after (hplayed : Played equipment tosses coins e) (hplays : PlaysOn e i)
    (later : List (Event Call)) (hsame : (e.after machine later).world.epoch = e.world.epoch) :
    (∃ since t, (e.after machine later).voices[i]? = some (.running since t) ∧
      t.playEpoch? = some e.world.epoch) ∨
    ∃ first rest since stop t, later = first ++ rest ∧ (e.after machine later).voices[i]? =
        some (.done since stop t (e.after machine first).world) ∧
      (e.after machine first).world.Exhausted (e.after machine first).inFlight := by
  -- By induction on what comes later. The epoch never shrinks, so it was the same all the while.
  induction later using List.reverseRecOn with
  | nil =>
    rcases hplays with hplays | ⟨⟨since, t, ht⟩, hexhausted⟩
    · exact .inl hplays
    · exact .inr ⟨[], [], since, e.now, t, rfl, ht, hexhausted⟩
  | append_singleton later event ih =>
    have hafter : e.after machine (later ++ [event]) = (e.after machine later).step machine event :=
      after_append later [event]
    rw [hafter] at hsame ⊢
    have hbefore := epoch_le_after hplayed later
    have hgrows := (world_step (hplayed.after later).rests event).1
    have hstill : (e.after machine later).world.epoch = e.world.epoch := by omega
    rcases ih hstill with ⟨since, t, ht, hplays⟩ | ⟨first, rest, since, stop, t, rfl, ht, hend⟩
    · rw [← hstill] at hplays
      rcases playsOn_step (hplayed.after later) ht hplays (hsame.trans hstill.symm) with
        ⟨since', u, hu, hplays'⟩ | ⟨⟨since', u, hu⟩, hend⟩
      · exact .inl ⟨since', u, hu, hsame ▸ hplays'⟩
      · rw [← hafter] at hu hend ⊢
        exact .inr ⟨_, [], since', _, u, (List.append_nil _).symm, hu, hend⟩
    · exact .inr ⟨first, rest ++ [event], since, stop, t, List.append_assoc ..,
        step_of_done ht event, hend⟩

/-- Where everyone has begun, turns keep the epoch. -/
theorem epoch_after_turns (hplayed : Played equipment tosses coins e) (hbegun : e.AllBegun)
    (hturns : ∀ event ∈ events, ∃ place time, event = .turn place time) :
    (e.after machine events).world.epoch = e.world.epoch := by
  induction events generalizing e with
  | nil => rfl
  | cons event events ih =>
    obtain ⟨⟨place, time, rfl⟩, hrest⟩ := List.forall_mem_cons.1 hturns
    refine (ih (hplayed.step _) (hbegun.step place time) hrest).trans ?_
    obtain ⟨deeds, htold⟩ := exists_told hplayed.rests (.turn place time)
    cases htold with
    | begun hbegun' hmoves =>
      rw [hbegun.begun?_eq_none] at hbegun'
      cases hbegun'
    | resumed hresumed hmoves =>
      rw [(step_of_resumed (m := machine) hresumed).1]
      exact (steers_of_moves hmoves).same
    | idle hbegun' hresumed => rw [(step_of_idle (m := machine) hbegun' hresumed).1]

/-! ### The course -/

/-- What can be read is consecutive: between two rebuildings, the steps that begin follow one
    another from where the first one led. -/
theorem consecutive_of_reads {s : Stretch} (h : (Stretch.idle 0).reads deeds = some s) :
    Consecutive deeds := by
  intro before goal mid after heq hclears
  have hall : Stretch.rebuilding.reads (.rebuilt 0 :: deeds) = some s := h
  rw [heq] at hall
  obtain ⟨s', _, hrest⟩ := Stretch.exists_reads_of_append hall
  obtain ⟨s'', hrebuilt, hmid⟩ := Option.bind_eq_some_iff.1 hrest
  obtain rfl : s'' = .idle goal := by
    cases s' with
    | rebuilding => exact (Option.some.inj hrebuilt).symm
    | _ => cases hrebuilt
  obtain ⟨last, hreads, _⟩ := Stretch.exists_reads_of_append hmid
  obtain ⟨_, n, hn, _⟩ := Stretch.begun_eq_range' hreads Stretch.noConfusion hclears
  exact ⟨n, hn⟩

/-- Where no step is left, all that were to come have begun. -/
theorem complete_of_reads {total : Nat} (h : (Stretch.idle 0).reads deeds = some (.idle total)) :
    Complete total deeds := by
  intro before more s heq hbefore hs hclears
  rw [heq, Stretch.reads_append hbefore] at h
  obtain ⟨_, n, hn, htotal⟩ := Stretch.begun_eq_range' h hs hclears
  have hleft : n = total - s.upcoming := by
    change total = s.upcoming + n at htotal
    omega
  exact hleft ▸ hn

/-- So it is after any calls that leave no step and nobody who is at anything. -/
theorem complete_of_exhausted {start : Nat}
    (haccount : Account (Ensemble.alone start (fresh equipment tosses coins)) events deeds)
    (hexhausted : e.world.Exhausted e.inFlight)
    (he : (Ensemble.alone start (fresh equipment tosses coins)).after machine events = e) :
    Complete e.world.total deeds := by
  obtain ⟨s, hreads, hshows⟩ : ∃ s, (Stretch.idle 0).reads deeds = some s ∧
      e.world.Shows e.inFlight s := he ▸ reads_account _ coins start haccount
  obtain ⟨hplace, hothers⟩ := hexhausted
  have hs := hshows.idle fun u hu => hothers u hu _
  rw [hs, hplace] at hreads
  exact complete_of_reads hreads

/-- Of any two calls one is at nothing. -/
theorem Ordered.pairwise_idle (h : p.Ordered (ts.map Task.standing)) :
    ts.Pairwise fun t u => t.stretch? p.cursor = none ∨ u.stretch? p.cursor = none := by
  refine List.pairwise_iff_forall_sublist.2 fun {t u} hsub => ?_
  obtain ⟨rest, hperm⟩ := hsub.exists_perm_append
  have hordered : p.Ordered (t.standing :: (u :: rest).map Task.standing) :=
    h.perm (hperm.map _)
  cases ht : t.stretch? p.cursor with
  | none => exact .inl rfl
  | some x =>
    have hheads := heads_of_stretch? (hordered.leads _ List.mem_cons_self) ht
    exact .inr (hordered.stretch?_others hheads u List.mem_cons_self _)

/-- To play returns at once where the player says that it is playing. -/
theorem voice_of_playing (hbegun : e.begun? (.turn i time) = some .play)
    (hplaying : e.world.playing = true) :
    let h := e.step machine (.turn i time)
    h.world = e.world ∧
      h.voices[i]? = some (.done h.now h.now (.over (some .empty)) e.world) := by
  have hstart : ∀ now, machine.start now e.world .play = (e.world, .over (some .empty)) :=
    fun now => if_pos hplaying
  refine ⟨(step_of_begun (m := machine) hbegun).1.trans (congrArg Prod.fst (hstart _)), ?_⟩
  rw [voice_step_of_begun (m := machine) hbegun, hstart]
  rfl

/-- A call to play returns where nobody is still to begin a call, and nobody interrupts it. -/
theorem exists_return (hplayed : Played equipment tosses coins e) (hplays : PlaysOn e i)
    (hbegun : e.AllBegun) : ∃ rounds later since stop t w,
      e.run machine rounds = e.after machine later ∧
      (e.after machine later).world.epoch = e.world.epoch ∧
      (e.after machine later).voices[i]? = some (.done since stop t w) := by
  obtain ⟨rounds, hended⟩ := exists_run_ended hplayed
  obtain ⟨later, hlater, _, hturns⟩ := exists_prompt_run (m := machine) (e := e) rounds
  have hsame := epoch_after_turns hplayed hbegun hturns
  rw [hlater] at hended
  rcases plays_after hplayed hplays later hsame with
    ⟨since, t, ht, _⟩ | ⟨first, rest, since, stop, t, _, ht, _⟩
  · have hdone := hended _ (List.mem_of_getElem? ht)
    cases hdone
  · exact ⟨rounds, later, since, stop, t, _, hlater, hsame, ht⟩

/-- Whatever calls were made and however they took turns: steps and rebuildings come one after
    another, one call at most is at one of them, and a step is under way until it is over. Between
    two rebuildings, the steps are consecutive. A call to play returns at once where the player says
    that it is playing, be it because somebody plays or because a call overran and none halted the
    player since. Everywhere else it returns, if nobody interrupts it, once all the steps that were
    to come are performed. -/
theorem course_after (equipment : Narration.Equipment) (tosses coins : List Bool) (start : Nat)
    (events : List (Event Call)) :
    let alone : Ensemble Player Call Task :=
      Ensemble.alone start (fresh equipment tosses coins)
    let e : Ensemble Player Call Task := alone.after machine events
    (∃ deeds, Account alone events deeds) ∧
    (∀ deeds, Account alone events deeds → Consecutive deeds ∧
      ∃ s, (Stretch.idle 0).reads deeds = some s ∧ e.world.Shows e.inFlight s) ∧
    (e.inFlight.Pairwise fun t u =>
      t.stretch? e.world.cursor = none ∨ u.stretch? e.world.cursor = none) ∧
    (∀ (i since ticket : Nat) (t : Task) (event : Event Call),
      e.voices[i]? = some (.running since t) → t.busy? = some ticket →
        (∃ u, (e.step machine event).voices[i]? = some (.running since u) ∧
          u.busy? = some ticket) ∨ t.Ends e.world (e.step machine event).now) ∧
    ∀ i time, e.begun? (.turn i time) = some .play →
      let h : Ensemble Player Call Task := e.step machine (.turn i time)
      (e.world.status = .playing →
        (h.world = e.world ∧
          h.voices[i]? = some (.done h.now h.now (.over (some .empty)) e.world)) ∧
        (e.world.Deserted e.inFlight → Strayed alone events)) ∧
      (e.world.status ≠ .playing →
        (h.AllBegun → ∃ rounds later since stop t w,
          h.run machine rounds = h.after machine later ∧
          (h.after machine later).world.epoch = h.world.epoch ∧
          (h.after machine later).voices[i]? = some (.done since stop t w)) ∧
        ∀ later, (h.after machine later).world.epoch = h.world.epoch →
          ∀ (since stop : Nat) (t : Task) (w : Player),
            (h.after machine later).voices[i]? = some (.done since stop t w) →
            w.cursor = w.total ∧ ∃ first rest, later = first ++ rest ∧
              w = (h.after machine first).world ∧
              ∀ deeds, Account alone (events ++ .turn i time :: first) deeds →
                Complete w.total deeds) := by
  intro alone e
  have hplayed : Played equipment tosses coins e := ⟨start, events, rfl⟩
  obtain ⟨log, hreeled⟩ := hplayed.reeled
  refine ⟨exists_account _ start events, fun deeds haccount => ?_, hreeled.ordered.pairwise_idle,
    fun i since ticket t event ht hbusy => lasts_step ht hbusy event, fun i time hbegun => ?_⟩
  · obtain ⟨s, hreads, hshows⟩ := reads_account _ coins start haccount
    exact ⟨consecutive_of_reads hreads, s, hreads, hshows⟩
  · intro h
    refine ⟨fun hstatus => ?_, fun hstatus => ?_⟩
    · -- Somebody plays, or a call overran: the turn changes nothing either way.
      have hplaying := status_eq_playing_iff.1 hstatus
      refine ⟨voice_of_playing hbegun hplaying, fun hdeserted => ?_⟩
      exact (stuck_after_iff _ coins start events).1 ⟨hplaying, hdeserted⟩
    · have hidle : e.world.playing = false := by
        rw [Bool.eq_false_iff]
        exact fun hplaying => hstatus (status_eq_playing_iff.2 hplaying)
      have hplayed' : Played equipment tosses coins h := hplayed.step _
      have hplays : PlaysOn h i := playsOn_of_begun hplayed hbegun hidle
      refine ⟨exists_return hplayed' hplays, fun later hsame since stop t w hdone => ?_⟩
      -- The call is known to be done, so it is not at its work any more. It ended where nothing was
      -- left to perform.
      rcases plays_after hplayed' hplays later hsame with
        ⟨since', t', ht', _⟩ | ⟨first, rest, since', stop', t', hlater, ht', hend⟩
      · rw [ht'] at hdone
        cases hdone
      · rw [ht'] at hdone
        cases hdone
        have hafter : alone.after machine (events ++ .turn i time :: first) =
            h.after machine first := after_append events _
        exact ⟨hend.1, first, rest, hlater, rfl,
          fun deeds haccount => complete_of_exhausted haccount hend hafter⟩

/-- A timeline of one step is at its end, and to play it once more is halted while the stage is
    rebuilt. All calls have returned then. One more call to play is the only one, and it returns at
    once without performing the step. -/
theorem play_performs_nothing :
    let node : Json := .obj [("command", .str "CREATE_NODE"), ("id", .str "a"),
      ("position", .obj [("x", .int 0), ("y", .int 0)])]
    let e := (Ensemble.alone 0 (fresh .usual [] [])).after machine
      [.join 0 (.load ⟨[node], [⟨[], none, none⟩]⟩), .turn 0 0, .turn 0 0,
        .join 0 (.seek 1), .turn 1 0, .turn 1 0,
        .join 0 .play, .turn 2 0, .join 0 .pause, .turn 3 0, .turn 2 0]
    let h := e.after machine [.join 5000 .play, .turn 4 5000]
    e.inFlight.isEmpty ∧ h.inFlight.isEmpty ∧ h.voices.length = 5 ∧ h.world.epoch = e.world.epoch ∧
      h.world.cursor < h.world.total := by
  decide +kernel

end Player

end Storyboard
