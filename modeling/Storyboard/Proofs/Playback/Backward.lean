import Storyboard.Proofs.Playback.Halt
import Storyboard.Proofs.Playback.Redrawing

/-! # Going back

    A call that goes to a step waits for the gate, and from then on the timeline
    and the cursor are its own (`step_apart`): it leads to the place that it was
    asked for, or to the end of the timeline that is there by then
    (`Bound.step`). To go back by one step is to go to the place below the
    cursor as it was when the call began. That is the place below the cursor
    that the call finds at the gate exactly where nobody moved it in the
    meantime (`cursor_of_backward`). Of two calls at once the second goes
    nowhere (`backward_of_waiting`). -/

namespace Storyboard.Player

open Ensemble

variable {p q : Player} {t u : Task} {ts : List Task} {deeds : List Deed} {l : List Standing}
  {s : Standing} {n now place i since ticket : Nat} {call : Call} {timeline : Timeline}
  {e : Ensemble Player Call Task} {event : Event Call} {events : List (Event Call)}
  {equipment : Narration.Equipment} {tosses coins : List Bool}

/-! ### Whoever is at the head has the player to itself -/

/-- The others leave it at the head, with the timeline and the cursor as they are. -/
def Apart (p q : Player) (s : Standing) : Prop :=
  q.timeline = p.timeline ∧ q.cursor = p.cursor ∧ q.Heads s

theorem Heads.join (h : p.Heads s) (hgate : q.gate = p.gate.join.1) : q.Heads s := by
  obtain ⟨ticket, hticket, hleads⟩ := h
  exact ⟨ticket, hticket, hgate ▸ Line.leads_join_of_leads hleads⟩

/-- Two cannot be at the head at once. -/
theorem Ordered.not_heads (h : p.Ordered (t.standing :: l)) (hs : s ∈ l) (hheads : p.Heads s) :
    ¬p.Heads t.standing := by
  rintro ⟨ticket, hticket, hleads⟩
  obtain ⟨ticket', hticket', hleads'⟩ := hheads
  have hline := h.line
  rw [List.filterMap_cons_some hticket] at hline
  rw [hline.not_leads hleads ticket' (List.mem_filterMap.2 ⟨s, hs, hticket'⟩)] at hleads'
  cases hleads'

theorem Move.apart (h : p.Ordered (t.standing :: l)) (hs : s ∈ l) (hheads : p.Heads s)
    (hmove : Move now p t deeds q u) : Apart p q s := by
  have hnot : ¬p.Heads t.standing := h.not_heads hs hheads
  have hleads : t.standing.Leads p.gate := h.leads _ List.mem_cons_self
  -- Whoever is not at the head can ask for a next step, or return.
  cases hmove with
  | next hcurrent => exact ⟨rfl, rfl, hheads.join rfl⟩
  | stop hstale => exact ⟨rfl, rfl, hheads⟩
  | @finish epoch report =>
    obtain ⟨hcursor, htimeline, _, hgate, _⟩ := p.finishPlay_same epoch report
    refine ⟨htimeline, hcursor, ?_⟩
    unfold Heads
    rw [hgate]
    exact hheads
  | stepped => exact ⟨rfl, rfl, hheads⟩
  | rewind hhead => exact absurd ⟨_, rfl, hhead⟩ hnot
  | wrap hhead hcurrent => exact absurd ⟨_, rfl, hhead⟩ hnot
  | unwrap hhead hstale => exact absurd ⟨_, rfl, hhead⟩ hnot
  | play hstrides => exact absurd (hstrides.heads hleads) hnot
  | step hstrides => exact absurd (hstrides.heads hleads) hnot
  | _ => exact absurd ⟨_, rfl, hleads⟩ hnot

theorem Apart.trans {r : Player} (h : Apart p q s) (h' : Apart q r s) : Apart p r s :=
  ⟨h'.1.trans h.1, h'.2.1.trans h.2.1, h'.2.2⟩

theorem apart_of_moves (h : p.Ordered (t.standing :: l)) (hs : s ∈ l) (hheads : p.Heads s)
    (hmoves : Moves now n p t deeds q u) : Apart p q s := by
  induction hmoves with
  | refl => exact ⟨rfl, rfl, hheads⟩
  | head hfirst _ ih =>
    have hapart := hfirst.apart h hs hheads
    exact hapart.trans (ih (h.move hfirst) hapart.2.2)

theorem Entered.apart (h : Entered p call q t) (hheads : p.Heads s) : Apart p q s := by
  cases h with
  | rewinds hhalts goal => exact ⟨rfl, rfl, hheads.join rfl⟩
  | wraps hplay => exact ⟨rfl, rfl, hheads.join rfl⟩
  | steps hstep => exact ⟨rfl, rfl, hheads.join rfl⟩
  | _ => exact ⟨rfl, rfl, hheads⟩

/-- As long as a call is at the head of the gate, the timeline and the cursor stay as they are
    except in its own turns. -/
theorem Played.step_apart (h : Played equipment tosses coins e)
    (ht : e.voices[i]? = some (.running since t)) (hheads : e.world.Heads t.standing)
    (hother : ∀ time, event ≠ .turn i time) :
    Apart e.world (e.step machine event).world t.standing := by
  obtain ⟨log, hreeled⟩ := h.reeled
  have hordered := hreeled.ordered
  have hmem : t.standing ∈ e.inFlight.map Task.standing :=
    List.mem_map_of_mem (mem_inFlight (List.mem_of_getElem? ht))
  -- With the event another call begins or goes on, and its moves keep away from what the head of
  -- the gate has in hand.
  cases hbegun : e.begun? event with
  | some call =>
    obtain ⟨_, n, deeds, _, hmoves⟩ := comes_start e.world (e.step machine event).now call
    have henter := e.world.entered call
    rw [(step_of_begun (m := machine) hbegun).1]
    have hapart := henter.apart hheads
    exact hapart.trans (apart_of_moves (hordered.enter henter) hmem hapart.2.2 hmoves)
  | none =>
    cases hresumed : e.resumed? event with
    | some u =>
      obtain ⟨j, time, since', rfl, hu⟩ := running_of_resumed hresumed
      have hne : j ≠ i := by
        rintro rfl
        exact hother time rfl
      obtain ⟨ts, hperm, hts⟩ := exists_inFlight_perm ht hu hne
      have hrests := h.rests u (mem_inFlight (List.mem_of_getElem? hu))
      rw [(step_turn_of_running (m := machine) hu time).1]
      obtain ⟨_, n, deeds, _, hmoves⟩ :=
        comes_resume e.world (e.step machine (.turn j time)).now hrests.2
      exact apart_of_moves (hordered.perm (hperm.map _)) (List.mem_map_of_mem hts) hheads hmoves
    | none =>
      rw [(step_of_idle (m := machine) hbegun hresumed).1]
      exact ⟨rfl, rfl, hheads⟩

/-! ### Going to a place -/

/-- The call has the gate in order to go to a place of a timeline, or it went there. -/
inductive Bound (e : Ensemble Player Call Task) (i since : Nat) (timeline : Timeline)
    (place : Nat) : Prop
  | heading {ticket : Nat} {r : Rebuild}
      (hv : e.voices[i]? = some (.running since (.rebuilding ticket r)))
      (hleads : e.world.gate.leads ticket = true) (htimeline : e.world.timeline = timeline)
      (hbound : r.BoundFor place e.world)
  | gone {stop : Nat} {report : Report} {w : Player}
      (hv : e.voices[i]? = some (.done since stop (.over (some report)) w))
      (htimeline : w.timeline = timeline) (hcursor : w.cursor = place)

theorem Bound.of_settle {r : Rebuild} (hworld : e.world = (p.settleRebuild ticket r).1)
    (hv : e.voices[i]? = some (Voice.settle machine now since (p.settleRebuild ticket r)).2)
    (hleads : p.gate.leads ticket = true) (htimeline : p.timeline = timeline)
    (hbound : r.BoundFor place p) : Bound e i since timeline place := by
  cases r with
  | «over» report => exact .gone hv htimeline hbound
  | performing goal perf rest report =>
    have hworld : e.world = p := hworld
    exact .heading hv (hworld ▸ hleads) (hworld ▸ htimeline) hbound

/-- Whoever goes to a place of a timeline arrives there. -/
theorem Bound.step (h : Bound e i since timeline place) (hplayed : Played equipment tosses coins e)
    (event : Event Call) : Bound (e.step machine event) i since timeline place := by
  cases h with
  | gone hv htimeline hcursor => exact .gone (step_of_done hv event) htimeline hcursor
  | @heading ticket r hv hleads htimeline hbound =>
    -- In its own turn the call rebuilds on. In those of others it stays at the head, so nothing
    -- moves.
    by_cases hown : ∃ time, event = .turn i time
    · obtain ⟨time, rfl⟩ := hown
      obtain ⟨hworld, hvoice⟩ := step_turn_of_running (m := machine) hv time
      generalize (e.step machine (.turn i time)).now = now at hworld hvoice
      obtain ⟨hsame, hgoal⟩ := boundFor_resumeRebuild hbound now
      have hreset : e.world.Reset (e.world.resumeRebuild now r).1 := by
        cases hx : e.world.resumeRebuild now r
        exact reset_resumeRebuild hx
      have hleads' : (e.world.resumeRebuild now r).1.gate.leads ticket = true := by
        rw [hreset.same.2.2]
        exact hleads
      exact .of_settle hworld hvoice hleads' (hsame.trans htimeline) hgoal
    · have hother : ∀ time, event ≠ .turn i time := fun time h => hown ⟨time, h⟩
      have hheads : e.world.Heads (Task.rebuilding ticket r).standing := by
        cases r <;> exact ⟨ticket, rfl, hleads⟩
      obtain ⟨hsame, hcursor, hheads'⟩ := hplayed.step_apart hv hheads hother
      obtain ⟨ticket', hticket', hleads'⟩ := hheads'
      have hticket : ticket' = ticket := by
        cases r <;> exact (Option.some.inj hticket').symm
      refine .heading (voice_step_of_other hv hother) (hticket ▸ hleads')
        (hsame.trans htimeline) ?_
      cases r with
      | «over» report => exact hcursor.trans hbound
      | performing goal perf rest report => exact hbound

/-! ### Waiting for the gate -/

/-- Whether a call has not begun yet or waits for the gate in order to go to a place. -/
def waiting : Voice Player Call Task → Bool
  | .pending .. => true
  | .running _ (.rewinding ..) => true
  | _ => false

/-- The call has not begun yet or waits for the gate in order to go to a place. -/
def Waits (e : Ensemble Player Call Task) (i : Nat) : Prop := e.voices[i]?.any waiting = true

instance (e : Ensemble Player Call Task) (i : Nat) : Decidable (Waits e i) :=
  inferInstanceAs (Decidable (_ = true))

/-- With the event the call obtains the gate in order to go to a place. -/
def Obtains (e : Ensemble Player Call Task) (event : Event Call) (i : Nat) : Prop :=
  Waits e i ∧ ¬Waits (e.step machine event) i

instance (e : Ensemble Player Call Task) (event : Event Call) (i : Nat) :
    Decidable (Obtains e event i) :=
  inferInstanceAs (Decidable (_ ∧ _))

theorem waits_of_voice {v : Voice Player Call Task} (hv : e.voices[i]? = some v)
    (hwaiting : waiting v = true) : Waits e i := by
  unfold Waits
  rw [hv]
  exact hwaiting

theorem Bound.not_waits (h : Bound e i since timeline place) : ¬Waits e i := by
  unfold Waits
  cases h with
  | heading hv =>
    rw [hv]
    exact Bool.false_ne_true
  | gone hv =>
    rw [hv]
    exact Bool.false_ne_true

theorem rewind_of_leads (hleads : p.gate.leads ticket = true) (now : Nat) (goal : Goal) :
    p.rewind now ticket goal =
      (goal.rebuild p now).1.settleRebuild ticket (goal.rebuild p now).2 := by
  unfold rewind
  rw [if_pos hleads]
  cases goal <;> rfl

/-- What comes of the turn in which a call is at the head of the gate. -/
theorem Bound.of_rewind {goal : Goal} (hleads : p.gate.leads ticket = true)
    (hbound : goal.BoundFor timeline place p)
    (hworld : e.world = (p.rewind now ticket goal).1)
    (hv : e.voices[i]? = some (Voice.settle machine now since (p.rewind now ticket goal)).2) :
    Bound e i since timeline place := by
  rw [rewind_of_leads hleads] at hworld hv
  obtain ⟨htimeline, hgoal⟩ := boundFor_rebuild hbound now
  have hleads' : (goal.rebuild p now).1.gate.leads ticket = true := by
    rw [(reset_goal p now goal).same.2.2]
    exact hleads
  exact .of_settle hworld hv hleads' htimeline hgoal

theorem rewind_of_not_leads (hleads : p.gate.leads ticket = false) (now : Nat) (goal : Goal) :
    p.rewind now ticket goal = (p, .rewinding ticket goal) := by
  unfold rewind
  rw [hleads]
  rfl

/-- A call that waits goes on waiting, or it obtains the gate, with the cursor inside the timeline
    that is there. -/
theorem Played.obtains (hplayed : Played equipment tosses coins e)
    (hv : e.voices[i]? = some (.running since (.rewinding ticket (.seek place))))
    (event : Event Call) :
    (e.step machine event).voices[i]? = some (.running since (.rewinding ticket (.seek place))) ∨
      e.world.cursor ≤ e.world.total ∧
        Bound (e.step machine event) i since e.world.timeline (min place e.world.total) := by
  by_cases hown : ∃ time, event = .turn i time
  · obtain ⟨time, rfl⟩ := hown
    obtain ⟨hworld, hvoice⟩ := step_turn_of_running (m := machine) hv time
    cases hleads : e.world.gate.leads ticket with
    | true =>
      obtain ⟨log, hreeled⟩ := hplayed.reeled
      have hmem := List.mem_map_of_mem (f := Task.standing)
        (mem_inFlight (List.mem_of_getElem? hv))
      obtain ⟨before, behind, hsplit⟩ := List.append_of_mem hmem
      have hordered := hreeled.ordered.perm (hsplit ▸ List.perm_middle)
      -- At the head of the gate the player is settled, so its cursor is within the timeline.
      have hsettled := hordered.settled_of_leads rfl hleads rfl
      have hgoal : (Goal.seek place).BoundFor e.world.timeline (min place e.world.total) e.world :=
        ⟨rfl, rfl⟩
      exact .inr ⟨hsettled.cursor, .of_rewind hleads hgoal hworld hvoice⟩
    | false =>
      have hsame : ∀ now, machine.resume now e.world (.rewinding ticket (.seek place)) =
          (e.world, .rewinding ticket (.seek place)) :=
        fun now => rewind_of_not_leads hleads now (.seek place)
      rw [hsame] at hvoice
      exact .inl hvoice
  · exact .inl (voice_step_of_other hv fun time h => hown ⟨time, h⟩)

/-! ### Going back by one step -/

/-- The first turn of a call to go back. -/
theorem start_stepBackward (hcursor : p.cursor = place + 1) (now : Nat) :
    machine.start now p .stepBackward =
      p.halt.enqueue.1.rewind now p.halt.enqueue.2 (.seek place) := by
  change p.stepBackward now = _
  unfold stepBackward
  rw [hcursor]
  rfl

/-- A call to go back begins to wait, or it obtains the gate at once. -/
theorem Played.begins_backward (hplayed : Played equipment tosses coins e)
    (hbegun : e.begun? (.turn i now) = some .stepBackward) (hcursor : e.world.cursor = place + 1) :
    let since := (e.step machine (.turn i now)).now
    (∃ ticket, (e.step machine (.turn i now)).voices[i]? =
      some (.running since (.rewinding ticket (.seek place)))) ∨
      e.world.cursor ≤ e.world.total ∧
        Bound (e.step machine (.turn i now)) i since e.world.timeline
          (min place e.world.total) := by
  intro since
  have hworld := (step_of_begun (m := machine) hbegun).1
  have hv := voice_step_of_begun (m := machine) hbegun
  dsimp only at hv
  rw [start_stepBackward hcursor] at hworld hv
  -- Whoever was in line before decides whether the call is let in at once.
  cases hleads : e.world.halt.enqueue.1.gate.leads e.world.halt.enqueue.2 with
  | true =>
    obtain ⟨log, hreeled⟩ := hplayed.reeled
    have hhalt : e.world.halt.Ordered _ := hreeled.ordered.congr rfl rfl rfl rfl
    have hsettled := hhalt.enqueue.settled_of_leads rfl hleads rfl
    have hgoal : (Goal.seek place).BoundFor e.world.timeline (min place e.world.total)
      e.world.halt.enqueue.1 := ⟨rfl, rfl⟩
    exact .inr ⟨hsettled.cursor, .of_rewind hleads hgoal hworld hv⟩
  | false =>
    rw [rewind_of_not_leads hleads] at hv
    exact .inl ⟨_, hv⟩

/-- With one of some events the call obtained the gate in order to go to a place, or to the end of
    the timeline that was there then. -/
def SetsOut (e : Ensemble Player Call Task) (events : List (Event Call)) (i since place : Nat) :
    Prop :=
  ∃ before event after, events = before ++ event :: after ∧
    Obtains (e.after machine before) event i ∧
    let g := (e.after machine before).world
    g.cursor ≤ g.total ∧ Bound (e.after machine events) i since g.timeline (min place g.total)

/-- A call to go back waits for the gate until it sets out from there. -/
theorem Played.waits_or_setsOut (hplayed : Played equipment tosses coins e)
    (hbegun : e.begun? (.turn i now) = some .stepBackward) (hcursor : e.world.cursor = place + 1)
    (later : List (Event Call)) :
    let since := (e.step machine (.turn i now)).now
    (∃ ticket, (e.after machine (.turn i now :: later)).voices[i]? =
      some (.running since (.rewinding ticket (.seek place)))) ∨
      SetsOut e (.turn i now :: later) i since place := by
  intro since
  induction later using List.reverseRecOn with
  | nil =>
    -- The call may obtain the gate in the very turn it begins in.
    refine (hplayed.begins_backward hbegun hcursor).imp_right fun ⟨hwithin, hbound⟩ => ?_
    have hpending : Waits e i := by
      unfold begun? at hbegun
      dsimp only at hbegun
      split at hbegun
      · next hv => exact waits_of_voice hv rfl
      · cases hbegun
    exact ⟨[], .turn i now, [], rfl, ⟨hpending, hbound.not_waits⟩, hwithin, hbound⟩
  | append_singleton later event ih =>
    have hafter : e.after machine (.turn i now :: (later ++ [event])) =
        (e.after machine (.turn i now :: later)).step machine event :=
      after_append (.turn i now :: later) [event]
    have hplayed' := hplayed.after (.turn i now :: later)
    rcases ih with ⟨ticket, hv⟩ | ⟨before, first, after, hsplit, hobtains, hwithin, hbound⟩
    · rw [hafter]
      refine (hplayed'.obtains hv event).imp (fun hv => ⟨ticket, hv⟩) fun ⟨hwithin, hbound⟩ => ?_
      have hwaits : Waits (e.after machine (.turn i now :: later)) i := waits_of_voice hv rfl
      exact ⟨.turn i now :: later, event, [], rfl, ⟨hwaits, hbound.not_waits⟩, hwithin,
        hafter ▸ hbound⟩
    · refine .inr ⟨before, first, after ++ [event], ?_, hobtains, hwithin, ?_⟩
      · rw [← List.cons_append, hsplit, List.append_assoc, List.cons_append]
      · rw [hafter]
        exact hbound.step hplayed' event

/-- Whatever calls were made and however they took turns, and whatever comes after a call to go back
    by one step begins. At the start of the timeline it returns at once, and nothing happened. Else
    it is under way, or it returned with a report. Then it left the timeline that was there when it
    obtained the gate, with the cursor at the place below the one of its beginning, or at the end.
    So it went back by one exactly where the cursor was then as at its beginning, and it did not go
    on exactly where the cursor was no further back, or at the end. It does return in the end. -/
theorem cursor_of_backward (equipment : Narration.Equipment) (tosses coins : List Bool)
    (start : Nat) (first later : List (Event Call)) (i time : Nat)
    (hbegun : ((alone start (fresh equipment tosses coins)).after machine first).begun?
      (.turn i time) = some .stepBackward) :
    let e := (alone start (fresh equipment tosses coins)).after machine first
    let since := (e.step machine (.turn i time)).now
    let events := .turn i time :: later
    let f := e.after machine events
    (e.world.cursor = 0 → (e.step machine (.turn i time)).world = e.world ∧
      f.voices[i]? = some (.done since since (.over none) e.world)) ∧
    (∀ place, e.world.cursor = place + 1 →
      (∃ t, f.voices[i]? = some (.running since t)) ∨
      ∃ before event after stop report w, events = before ++ event :: after ∧
        Obtains (e.after machine before) event i ∧
        f.voices[i]? = some (.done since stop (.over (some report)) w) ∧
        let g := (e.after machine before).world
        w.timeline = g.timeline ∧ w.cursor = min place g.total ∧
        (w.cursor + 1 = g.cursor ↔ g.cursor = e.world.cursor) ∧
        (w.cursor ≤ g.cursor ↔ place ≤ g.cursor ∨ g.cursor = g.total)) ∧
    ∃ more, (f.after machine more).Ended := by
  intro e since events f
  have hplayed : Played equipment tosses coins e := ⟨start, first, rfl⟩
  refine ⟨fun hzero => ?_, fun place hcursor => ?_, ?_⟩
  · -- At the start the call is over in the turn it begins in, so its voice never changes again.
    have hstart : ∀ now, machine.start now e.world .stepBackward = (e.world, .over none) := by
      intro now
      change e.world.stepBackward now = _
      unfold stepBackward
      rw [hzero]
    have hworld := (step_of_begun (m := machine) hbegun).1
    have hv := voice_step_of_begun (m := machine) hbegun
    dsimp only at hv
    rw [hstart] at hworld hv
    refine ⟨hworld, ?_⟩
    have hdone : (e.step machine (.turn i time)).voices[i]? =
      some (.done since since (.over none) e.world) := hv
    exact after_induction (P := fun f => f.voices[i]? = some (.done since since _ e.world)) hdone
      (fun _ event h => step_of_done h event) later
  · -- Otherwise the call waits for the gate, or it obtained it. From there on only the place it
    -- heads for and the timeline of that moment count.
    rcases hplayed.waits_or_setsOut hbegun hcursor later with ⟨ticket, hv⟩ |
      ⟨before, event, after, hsplit, hobtains, hwithin, hbound⟩
    · exact .inl ⟨_, hv⟩
    · cases hbound with
      | heading hv => exact .inl ⟨_, hv⟩
      | @gone stop report w hv htimeline hplace =>
        refine .inr ⟨before, event, after, stop, report, w, hsplit, hobtains, hv, htimeline,
          hplace, ?_, ?_⟩
        · omega
        · omega
  · obtain ⟨rounds, hended⟩ := exists_run_ended (hplayed.after events)
    obtain ⟨more, hmore⟩ := exists_events_run (m := machine) (e := f) rounds
    exact ⟨more, hmore ▸ hended⟩

/-- A call to go back from the end of a timeline of two steps, with nobody else there. -/
theorem cursor_of_backward_alone :
    let node : Json := .obj [("command", .str "CREATE_NODE"), ("id", .str "a"),
      ("position", .obj [("x", .int 0), ("y", .int 0)])]
    let e : Ensemble Player Call Task := (alone 0 (fresh .usual [] [])).after machine
      [.join 0 (.load ⟨[node], [⟨[], none, none⟩, ⟨[], none, none⟩]⟩), .turn 0 0, .turn 0 0,
        .join 0 (.seek 2), .turn 1 0, .turn 1 0, .join 0 .stepBackward]
    e.begun? (.turn 2 0) = some .stepBackward ∧
      ∀ later, let f := e.after machine (.turn 2 0 :: later)
        (∃ t, f.voices[2]? = some (.running 0 t)) ∨
          ∃ stop report w, f.voices[2]? = some (.done 0 stop (.over (some report)) w) ∧
            w.cursor = min 1 w.total := by
  intro node e
  let events : List (Event Call) :=
    [.join 0 (.load ⟨[node], [⟨[], none, none⟩, ⟨[], none, none⟩]⟩), .turn 0 0, .turn 0 0,
      .join 0 (.seek 2), .turn 1 0, .turn 1 0]
  have hplace : ((alone 0 (fresh .usual [] [])).after machine events).voices.length = 2 := by
    decide +kernel
  have hbegun : e.begun? (.turn 2 0) = some .stepBackward :=
    begun?_join _ events hplace (Nat.le_refl _)
  have hcursor : e.world.cursor = 1 + 1 := by decide +kernel
  have hsince : (e.step machine (.turn 2 0)).now = 0 := by decide +kernel
  refine ⟨hbegun, fun later => ?_⟩
  have hafter := (cursor_of_backward .usual [] [] 0 _ later 2 0 hbegun).2.1 1 hcursor
  dsimp only at hafter
  rw [hsince] at hafter
  -- The call leaves the timeline it found, so the end of it is the end that the cursor keeps to.
  refine hafter.imp id fun ⟨_, _, _, stop, report, w, _, _, hv, htimeline, hplace, _⟩ => ?_
  refine ⟨stop, report, w, hv, hplace.trans ?_⟩
  rw [total, total, htimeline]

/-- Two calls to go back from the end of a timeline of two steps, the second while the first one
    rebuilds the stage: it finds the cursor at the first step, and leaves it there. -/
theorem backward_of_waiting :
    let node : Json := .obj [("command", .str "CREATE_NODE"), ("id", .str "a"),
      ("position", .obj [("x", .int 0), ("y", .int 0)])]
    let g : Ensemble Player Call Task := (alone 0 (fresh .usual [] [])).after machine
      [.join 0 (.load ⟨[node], [⟨[], none, none⟩, ⟨[], none, none⟩]⟩), .turn 0 0, .turn 0 0,
        .join 0 (.seek 2), .turn 1 0, .turn 1 0, .join 0 .stepBackward, .turn 2 0,
        .join 0 .stepBackward, .turn 3 0, .turn 2 0]
    let f := g.after machine [.turn 3 0, .turn 3 0]
    Obtains g (.turn 3 0) 3 ∧ g.world.cursor = 1 ∧
      (match f.voices[3]? with
        | some (Voice.done _ _ (Task.over report) w) => report.isSome && w.cursor == 1
        | _ => false) = true := by
  decide +kernel

end Storyboard.Player
