import Storyboard.Proofs.Ensemble.Timing
import Storyboard.Proofs.Playback.Epoch
import Storyboard.Proofs.Playback.Return

/-! # Halting

    To halt is to begin a new epoch. A call that was under way before is in an
    older one: it begins no step any more, it takes no new place at the gate,
    and what follows a step that it performed is cut short. So once the
    commands of that step are through, all such calls can go on, one after
    another, and return before time passes (`halts_after`). -/

namespace Storyboard.Player

open Ensemble

variable {p q : Player} {t u : Task} {ts : List Task} {deeds : List Deed} {l : List Standing}
  {n now epoch ticket i since : Nat} {e h : Ensemble Player Call Task} {event : Event Call}
  {events more : List (Event Call)} {v : Voice Player Call Task} {call : Call}
  {equipment : Narration.Equipment} {tosses coins : List Bool}

/-! ### What becomes of a call with an event -/

theorem eq_of_settle {start : Nat} {x : Player × Task}
    (h : (Voice.settle machine now start x).2 = .running since t) : since = start ∧ x.2 = t := by
  obtain ⟨q, u⟩ := x
  cases u with
  | «over» report => cases h
  | _ =>
    cases h
    exact ⟨rfl, rfl⟩

/-- A call is under way after an event: it was before, or it went on, or it has just begun. -/
theorem running_step (hrests : AllRest e.inFlight)
    (hu : (e.step machine event).voices[i]? = some (.running since u)) :
    e.voices[i]? = some (.running since u) ∨
    (∃ t n deeds, e.voices[i]? = some (.running since t) ∧ e.resumed? event = some t ∧
      Moves (e.step machine event).now n e.world t deeds (e.step machine event).world u) ∨
    ∃ call n deeds time, event = .turn i time ∧ e.begun? event = some call ∧
      Moves (e.step machine event).now n (e.world.enter call).1 (e.world.enter call).2 deeds
        (e.step machine event).world u := by
  generalize hv : (Voice.running since u : Voice Player Call Task) = v at hu
  -- By what became of its voice with the event.
  cases turned_step hu with
  | same hsame => exact .inl (hv ▸ hsame)
  | joined hevent hnone => cases hv
  | @begun time start call hevent hpending hbegun =>
    obtain ⟨_, rfl⟩ := eq_of_settle hv.symm
    obtain ⟨_, n, deeds, _, hmoves⟩ := comes_start e.world (e.step machine event).now call
    obtain ⟨hworld, _⟩ := step_of_begun (m := machine) hbegun
    rw [← show _ = (e.world.start (e.step machine event).now call).1 from hworld] at hmoves
    exact .inr (.inr ⟨call, n, deeds, time, hevent, hbegun, hmoves⟩)
  | @resumed time start t hevent hrunning hresumed =>
    obtain ⟨rfl, rfl⟩ := eq_of_settle hv.symm
    have ht : t ∈ e.inFlight := mem_inFlight (List.mem_of_getElem? hrunning)
    obtain ⟨_, n, deeds, _, hmoves⟩ :=
      comes_resume e.world (e.step machine event).now (hrests t ht).2
    obtain ⟨hworld, _⟩ := step_of_resumed (m := machine) hresumed
    rw [← show _ = (e.world.resume (e.step machine event).now t).1 from hworld] at hmoves
    exact .inr (.inl ⟨t, n, deeds, hrunning, hresumed, hmoves⟩)

/-- A call that is under way stays so in its epoch, or returns now. -/
theorem step_of_running (hrests : AllRest e.inFlight)
    (ht : e.voices[i]? = some (.running since t)) (event : Event Call) :
    (∃ u, (e.step machine event).voices[i]? = some (.running since u) ∧ u.epoch? = t.epoch?) ∨
      ∃ u w, (e.step machine event).voices[i]? =
        some (.done since (e.step machine event).now u w) := by
  rcases voice_step_of_running (m := machine) ht event with hsame | ⟨hresumed, hv⟩
  · exact .inl ⟨t, hsame, rfl⟩
  · have hmem : t ∈ e.inFlight := mem_inFlight (List.mem_of_getElem? ht)
    obtain ⟨_, n, deeds, _, hmoves⟩ :=
      comes_resume e.world (e.step machine event).now (hrests t hmem).2
    have hepoch := (steers_of_moves hmoves).epoch
    cases hover : (e.world.resume (e.step machine event).now t).2.isOver with
    | true => exact .inr ⟨_, _, hv.trans (congrArg some (if_pos hover))⟩
    | false =>
      rw [hover] at hepoch
      have hsame := hepoch.resolve_left Bool.noConfusion
      exact .inl ⟨_, hv.trans (congrArg some (if_neg (Bool.eq_false_iff.1 hover))), hsame⟩

/-! ### Since some moment -/

/-- The call at a place began with one of some events. -/
def Began (h : Ensemble Player Call Task) (events : List (Event Call)) (i : Nat) (call : Call) :
    Prop :=
  ∃ before time after, events = before ++ .turn i time :: after ∧
    (h.after machine before).begun? (.turn i time) = some call

theorem Began.append (hbegan : Began h events i call) (more : List (Event Call)) :
    Began h (events ++ more) i call := by
  obtain ⟨before, time, after, rfl, hbegun⟩ := hbegan
  exact ⟨before, time, after ++ more, by simp, hbegun⟩

/-- The call was under way in an epoch then, and it has taken no other place at the gate and begun
    no step since. -/
structure Old (h : Ensemble Player Call Task) (i since : Nat) (t : Task) (epoch : Nat) : Prop where
  past   : epoch < h.world.epoch
  ticket : ∀ ticket, t.standing.ticket? = some ticket → ticket < h.world.gate.next
  before : ∃ t₀, h.voices[i]? = some (.running since t₀) ∧ t₀.epoch? = some epoch ∧
    (t.Performs → t₀.Performs)

/-- The call began since, in a later epoch, to play or to step. -/
structure Young (h : Ensemble Player Call Task) (events : List (Event Call)) (i : Nat) (t : Task)
    (epoch : Nat) : Prop where
  recent : h.world.epoch ≤ epoch
  ticket : ∀ ticket, t.standing.ticket? = some ticket → h.world.gate.next ≤ ticket
  began  : ∃ call, Began h events i call ∧ (call = .play ∨ call = .stepForward)

/-- What came of some events since a moment at which everybody was in an epoch that is over. -/
structure Since (h : Ensemble Player Call Task) (events : List (Event Call)) : Prop where
  epoch : h.world.epoch ≤ (h.after machine events).world.epoch
  next  : h.world.gate.next ≤ (h.after machine events).world.gate.next
  calls : ∀ {i since t epoch}, (h.after machine events).voices[i]? = some (.running since t) →
    t.epoch? = some epoch → Old h i since t epoch ∨ Young h events i t epoch

theorem Since.step (hs : Since h events)
    (hrests : AllRest (h.after machine events).inFlight)
    (event : Event Call) : Since h (events ++ [event]) := by
  obtain ⟨hepoch, hnext⟩ := world_step hrests event
  have hafter : h.after machine (events ++ [event]) = (h.after machine events).step machine event :=
    after_append events [event]
  refine ⟨?_, ?_, ?_⟩
  · rw [hafter]
    exact Nat.le_trans hs.epoch hepoch
  · rw [hafter]
    exact Nat.le_trans hs.next hnext
  intro i since u epoch hu hin
  rw [hafter] at hu
  -- The call did nothing, or it went on, or it began with the event.
  rcases running_step hrests hu with hsame | ⟨t, n, deeds, ht, _, hmoves⟩ |
    ⟨call, n, deeds, time, rfl, hbegun, hmoves⟩
  · rcases hs.calls hsame hin with hold | ⟨hlater, hticket, call, hbegan, hcall⟩
    · exact .inl hold
    · exact .inr ⟨hlater, hticket, call, hbegan.append [event], hcall⟩
  · have hsteers := steers_of_moves hmoves
    rcases hs.calls ht (hsteers.origin hin) with
      ⟨hearlier, hticket, t₀, ht₀, hin₀, hperforms⟩ | ⟨hlater, hticket, call, hbegan, hcall⟩
    · -- Its epoch is over, so it only goes on with what it was at.
      have hstale : t.epoch? ≠ some (h.after machine events).world.epoch := by
        rw [hsteers.origin hin]
        intro heq
        have hsame : epoch = (h.after machine events).world.epoch := Option.some.inj heq
        have hle := hs.epoch
        omega
      refine .inl ⟨hearlier, fun ticket hk => ?_, t₀, ht₀, hin₀, fun hu => ?_⟩
      · exact hticket ticket ((hsteers.ticket ticket hk).resolve_right fun h => hstale h.2)
      · exact hperforms ((hsteers.performs hu).resolve_right hstale)
    · refine .inr ⟨hlater, fun ticket hk => ?_, call, hbegan.append [event], hcall⟩
      rcases hsteers.ticket ticket hk with hk | ⟨hk, _⟩
      · exact hticket ticket hk
      · exact Nat.le_trans hs.next hk
  · have hsteers := steers_of_moves hmoves
    obtain ⟨hgrows, hnext', henter, hjoined⟩ := ((h.after machine events).world.entered call).epochs
    obtain ⟨rfl, hcall⟩ := henter epoch (hsteers.origin hin)
    refine .inr ⟨Nat.le_trans hs.epoch hgrows, fun ticket hk => ?_, call,
      ⟨events, time, [], rfl, hbegun⟩, hcall⟩
    rcases hsteers.ticket ticket hk with hk | ⟨hk, _⟩
    · exact Nat.le_trans hs.next (hjoined ticket hk)
    · exact Nat.le_trans hs.next (Nat.le_trans hnext' hk)

/-- Whatever happens after a halt. -/
theorem since_halt (hplayed : Played equipment tosses coins e) (hhalts : Halts e event)
    (events : List (Event Call)) : Since (e.step machine event) events := by
  induction events using List.reverseRecOn with
  | nil =>
    obtain ⟨call, hbegun, hcall⟩ := hhalts
    obtain ⟨hnew, hnone⟩ := (e.world.entered call).epoch_of_halts hcall
    obtain ⟨log, hreeled⟩ := (hplayed.step event).reeled
    -- The new epoch is later than that of anybody who was under way.
    have hepoch : (e.step machine event).world.epoch = e.world.epoch + 1 := by
      obtain ⟨_, n, deeds, _, hmoves⟩ := comes_start e.world (e.step machine event).now call
      have hsame := (steers_of_moves hmoves).same
      rw [hnew] at hsame
      rw [(step_of_begun (m := machine) hbegun).1]
      exact hsame
    refine ⟨Nat.le_refl _, Nat.le_refl _, ?_⟩
    intro i since t epoch ht hin
    refine .inl ⟨?_, ?_, t, ht, hin, id⟩
    · rcases running_step hplayed.rests ht with hsame | ⟨t', n, deeds, _, hresumed, _⟩ |
        ⟨call', n, deeds, time, _, hbegun', hmoves⟩
      · obtain ⟨start, before, rfl⟩ := hplayed
        have hle : epoch ≤ _ := after_of_kept kept_epochs (List.forall_mem_nil _) start before t
          (mem_inFlight (List.mem_of_getElem? hsame)) epoch hin
        omega
      · rw [resumed?_of_begun hbegun] at hresumed
        cases hresumed
      · obtain rfl := Option.some.inj (hbegun.symm.trans hbegun')
        have horigin := (steers_of_moves hmoves).origin hin
        rw [hnone] at horigin
        cases horigin
    · intro ticket hticket
      have hmem : t.standing ∈ ((e.step machine event).inFlight).map Task.standing :=
        List.mem_map_of_mem (mem_inFlight (List.mem_of_getElem? ht))
      have hline := hreeled.ordered.line
      exact hline.below ticket (hline.perm.mem_iff.1 (List.mem_filterMap.2 ⟨_, hmem, hticket⟩))
  | append_singleton events event' ih =>
    exact ih.step ((hplayed.step event).after events).rests event'

/-! ### Whoever was under way -/

/-- A call that was under way stays so in its epoch, or it has returned by now. -/
theorem voice_after (hplayed : Played equipment tosses coins h)
    (ht : h.voices[i]? = some (.running since t)) (events : List (Event Call)) :
    (∃ u, (h.after machine events).voices[i]? = some (.running since u) ∧ u.epoch? = t.epoch?) ∨
      ∃ stop u w, (h.after machine events).voices[i]? = some (.done since stop u w) ∧
        stop ≤ (h.after machine events).now := by
  induction events using List.reverseRecOn with
  | nil => exact .inl ⟨t, ht, rfl⟩
  | append_singleton events event ih =>
    have hafter : h.after machine (events ++ [event]) =
        (h.after machine events).step machine event := after_append events [event]
    rw [hafter]
    rcases ih with ⟨u, hu, hsame⟩ | ⟨stop, u, w, hdone, hstop⟩
    · rcases step_of_running (hplayed.after events).rests hu event with
        ⟨u', hu', hsame'⟩ | ⟨u', w, hdone⟩
      · exact .inl ⟨u', hu', hsame'.trans hsame⟩
      · exact .inr ⟨_, u', w, hdone, Nat.le_refl _⟩
    · exact .inr ⟨stop, u, w, step_of_done hdone event, Nat.le_trans hstop (now_le_step _ _)⟩

/-- Whoever began since was not under way before. -/
theorem not_running_of_began (hplayed : Played equipment tosses coins h)
    (hbegan : Began h events i call) (since : Nat) (t : Task) :
    h.voices[i]? ≠ some (.running since t) := by
  intro ht
  obtain ⟨before, time, after, _, hbegun⟩ := hbegan
  have hvoice := voice_after hplayed ht before
  unfold begun? at hbegun
  dsimp only at hbegun
  split at hbegun
  · next start action hpending =>
    rw [hpending] at hvoice
    rcases hvoice with ⟨u, hu, _⟩ | ⟨stop, u, w, hu, _⟩ <;> cases hu
  · cases hbegun

/-- Nobody whose epoch is over performs the commands of a step. -/
def Quiet (h e : Ensemble Player Call Task) : Prop :=
  ∀ (i since : Nat) (t : Task) (epoch : Nat), e.voices[i]? = some (.running since t) →
    t.epoch? = some epoch → epoch < h.world.epoch → ¬t.Performs

theorem Quiet.step (hquiet : Quiet h e) (hrests : AllRest e.inFlight)
    (hepoch : h.world.epoch ≤ e.world.epoch) (event : Event Call) :
    Quiet h (e.step machine event) := by
  intro i since u epoch hu hin hpast hperforms
  rcases running_step hrests hu with hsame | ⟨t, n, deeds, ht, _, hmoves⟩ |
    ⟨call, n, deeds, time, _, _, hmoves⟩
  · exact hquiet i since u epoch hsame hin hpast hperforms
  · have hsteers := steers_of_moves hmoves
    have horigin := hsteers.origin hin
    rcases hsteers.performs hperforms with hbefore | hcurrent
    · exact hquiet i since t epoch ht horigin hpast hbefore
    · rw [horigin] at hcurrent
      have hsame : epoch = e.world.epoch := Option.some.inj hcurrent
      omega
  · obtain ⟨hgrows, _, henter, _⟩ := (e.world.entered call).epochs
    have hsame := (henter epoch ((steers_of_moves hmoves).origin hin)).1
    omega

/-- Whoever performs a step is in an epoch. -/
theorem Task.Performs.exists_epoch (h : t.Performs) : ∃ epoch, t.epoch? = some epoch := by
  obtain ⟨place, hplace⟩ := h
  have hrebuild : ∀ r : Rebuild, r.stretch? ≠ some (.performing place) := by
    intro r hr
    cases r <;> cases hr
  cases t with
  | rebuilding ticket r => exact absurd hplace (hrebuild r)
  | rewrapping ticket epoch r => exact absurd hplace (hrebuild r)
  | playing epoch report a => exact ⟨epoch, rfl⟩
  | stepping epoch a => exact ⟨epoch, rfl⟩
  | _ => cases hplace

/-- A step at the head of the gate whose epoch is over can go on at once, unless it is performed. -/
theorem advance_isReady_of_stale {a : Advance} (ha : a.Rests)
    (hticket : a.standing.ticket? = some ticket) (hleads : p.gate.leads ticket = true)
    (hstale : epoch ≠ p.epoch) (hquiet : ∀ place, a.stretch? 0 ≠ some (.performing place))
    (now : Nat) : a.isReady epoch now p = true := by
  cases a with
  | queued ticket' =>
    obtain rfl := Option.some.inj hticket
    exact hleads
  | performing ticket' place step perf => exact absurd rfl (hquiet place)
  | trailing ticket' step report tail =>
    have hlapsed : p.isCurrent epoch = false := beq_eq_false_iff_ne.2 hstale.symm
    show (!p.isCurrent epoch || _) = true
    rw [hlapsed]
    rfl
  | «over» report => exact ha.elim

/-- So can any call. -/
theorem isReady_of_stale (ht : t.Rests) (hticket : t.standing.ticket? = some ticket)
    (hleads : p.gate.leads ticket = true) (hstale : t.epoch? ≠ some p.epoch)
    (hquiet : ¬t.Performs) (now : Nat) : t.isReady now p = true := by
  have hne : ∀ {epoch}, t.epoch? = some epoch → epoch ≠ p.epoch := by
    intro epoch hin hsame
    exact hstale (hsame ▸ hin)
  cases t with
  | rewinding ticket' goal =>
    obtain rfl := Option.some.inj hticket
    exact hleads
  | rebuilding ticket' r => exact isReady_of_rests ht now
  | wrapping ticket' epoch =>
    obtain rfl := Option.some.inj hticket
    exact hleads
  | rewrapping ticket' epoch r => exact isReady_of_rests ht now
  | playing epoch report a =>
    exact advance_isReady_of_stale ht hticket hleads (hne rfl)
      (fun place hx => hquiet ⟨place, hx⟩) now
  | stepping epoch a =>
    exact advance_isReady_of_stale ht hticket hleads (hne rfl)
      (fun place hx => hquiet ⟨place, hx⟩) now
  | «over» report => cases hticket

theorem Played.queued (h : Played equipment tosses coins e) :
    e.world.Queued (e.inFlight.map Task.standing) := by
  obtain ⟨start, before, rfl⟩ := h
  exact after_of_kept kept_queued ⟨ordered_ofNarrator _ coins, List.Pairwise.nil⟩ start before

/-- As long as a call of an earlier epoch is under way, whoever is at the head of the gate is in no
    later one: it has a ticket from before. -/
theorem Since.exists_head (hs : Since h events)
    (hplayed : Played equipment tosses coins (h.after machine events))
    (ht : (h.after machine events).voices[i]? = some (.running since t))
    (hin : t.epoch? = some epoch) (hpast : epoch < h.world.epoch) :
    ∃ (j since' first : Nat) (u : Task),
      (h.after machine events).voices[j]? = some (.running since' u) ∧
      u.standing.ticket? = some first ∧ (h.after machine events).world.gate.leads first = true ∧
      ∀ epoch', u.epoch? = some epoch' → epoch' < h.world.epoch := by
  have hqueued := hplayed.queued
  have hold : ∀ ticket, t.standing.ticket? = some ticket → ticket < h.world.gate.next := by
    rcases hs.calls ht hin with hold | hyoung
    · exact hold.ticket
    · exact absurd hyoung.recent (Nat.not_le.2 hpast)
  have hmem := mem_inFlight (List.mem_of_getElem? ht)
  obtain ⟨hopen, hrests⟩ := hplayed.rests t hmem
  obtain ⟨ticket, hticket⟩ := exists_ticket hopen hrests
  have hstanding := List.mem_map_of_mem (f := Task.standing) hmem
  obtain ⟨s, hs', first, hfirst, hleads⟩ := hqueued.1.exists_heads hstanding hticket
  -- The head joined the line before this call did.
  have hwaiting : ticket ∈ (h.after machine events).world.gate.waiting :=
    hqueued.1.line.perm.mem_iff.1 (List.mem_filterMap.2 ⟨_, hstanding, hticket⟩)
  have hbefore : first < h.world.gate.next :=
    Nat.lt_of_le_of_lt (hqueued.le_of_leads hleads hwaiting) (hold ticket hticket)
  obtain ⟨u, hu, rfl⟩ := List.mem_map.1 hs'
  obtain ⟨v, hv, hflight⟩ := List.mem_filterMap.1 hu
  cases v with
  | running since' u' =>
    obtain rfl := Option.some.inj hflight
    obtain ⟨j, hj⟩ := List.mem_iff_getElem?.1 hv
    refine ⟨j, since', first, u', hj, hfirst, hleads, fun epoch' hin' => ?_⟩
    rcases hs.calls hj hin' with hold | hyoung
    · exact hold.past
    · exact absurd (hyoung.ticket first hfirst) (Nat.not_le.2 hbefore)
  | _ => cases hflight

/-- As long as a call of an earlier epoch is under way and none performs a step, someone can go on
    without time passing. -/
theorem Since.isAwake (hs : Since h events)
    (hplayed : Played equipment tosses coins (h.after machine events))
    (hquiet : Quiet h (h.after machine events))
    (ht : (h.after machine events).voices[i]? = some (.running since t))
    (hin : t.epoch? = some epoch) (hpast : epoch < h.world.epoch) :
    (h.after machine events).isAwake machine = true := by
  obtain ⟨j, since', first, u, hj, hfirst, hleads, hpast'⟩ := hs.exists_head hplayed ht hin hpast
  have hmem := List.mem_of_getElem? hj
  obtain ⟨_, hrests⟩ := hplayed.rests u (mem_inFlight hmem)
  have hstale : u.epoch? ≠ some (h.after machine events).world.epoch :=
    fun hcurrent => Nat.not_le.2 (hpast' _ hcurrent) hs.epoch
  have hidle : ¬u.Performs := by
    intro hperforms
    obtain ⟨epoch', hin'⟩ := hperforms.exists_epoch
    exact hquiet j since' u epoch' hj hin' (hpast' epoch' hin') hperforms
  exact List.any_eq_true.2 ⟨_, hmem, isReady_of_stale hrests hfirst hleads hstale hidle _⟩

/-! ### After a halt -/

/-- The commands that were performed at a moment are through at another one. -/
def Through (h e : Ensemble Player Call Task) : Prop :=
  ∀ (i since : Nat) (t u : Task), h.voices[i]? = some (.running since t) → t.Performs →
    e.voices[i]? = some (.running since u) → ¬u.Performs

theorem Since.quiet (hs : Since h events) (hthrough : Through h (h.after machine events)) :
    Quiet h (h.after machine events) := by
  intro i since u epoch hu hin hpast hperforms
  rcases hs.calls hu hin with hold | hyoung
  · obtain ⟨t, ht, _, hbefore⟩ := hold.before
    exact hthrough i since t u ht (hbefore hperforms) hu hperforms
  · exact Nat.not_le.2 hpast hyoung.recent

/-- Once no call of an earlier epoch performs a step, such a call is under way only as long as time
    does not pass. -/
theorem returned_before (hplayed : Played equipment tosses coins h)
    (hsince : ∀ events, Since h events) (ht : h.voices[i]? = some (.running since t))
    (hin : t.epoch? = some epoch) (hpast : epoch < h.world.epoch) {later : List (Event Call)}
    (hquiet : Quiet h (h.after machine later)) {next : List (Event Call)}
    (hprompt : Prompt machine (h.after machine later) next) :
    let now := (h.after machine later).now
    let e := (h.after machine later).after machine next
    Quiet h e ∧
      ((∃ u, e.voices[i]? = some (.running since u) ∧ u.epoch? = some epoch ∧ e.now = now) ∨
        ∃ stop u w, e.voices[i]? = some (.done since stop u w) ∧ stop ≤ now) := by
  dsimp only
  -- By induction on the prompt events. As long as nobody of an earlier epoch performs a step, who
  -- is of one can go on.
  induction next using List.reverseRecOn with
  | nil =>
    refine ⟨hquiet, ?_⟩
    rcases voice_after hplayed ht later with ⟨u, hu, hsame⟩ | ⟨stop, u, w, hdone, hstop⟩
    · exact .inl ⟨u, hu, hsame.trans hin, rfl⟩
    · exact .inr ⟨stop, u, w, hdone, hstop⟩
  | append_singleton next event ih =>
    obtain ⟨hprompt, hlast, _⟩ := prompt_append.1 hprompt
    obtain ⟨hquiet, hvoice⟩ := ih hprompt
    have hafter : (h.after machine later).after machine (next ++ [event]) =
        (h.after machine (later ++ next)).step machine event := by
      rw [after_append, ← after_append later next]
      rfl
    have hplayed' := hplayed.after (later ++ next)
    have hs := hsince (later ++ next)
    rw [← after_append] at hquiet hvoice hlast
    rw [hafter]
    refine ⟨hquiet.step hplayed'.rests hs.epoch event, ?_⟩
    rcases hvoice with ⟨u, hu, hin', hnow⟩ | ⟨stop, u, w, hdone, hstop⟩
    · -- Someone can go on as long as this call is under way, so the clock stands still.
      have hawake := hs.isAwake hplayed' hquiet hu hin' hpast
      rw [hawake] at hlast
      have hstill := hlast.resolve_right Bool.noConfusion
      rcases step_of_running hplayed'.rests hu event with ⟨u', hu', hsame⟩ | ⟨u', w, hdone⟩
      · exact .inl ⟨u', hu', hsame.trans hin', hstill.trans hnow⟩
      · exact .inr ⟨_, u', w, hdone, Nat.le_of_eq (hstill.trans hnow)⟩
    · exact .inr ⟨stop, u, w, step_of_done hdone event, hstop⟩

/-- A step that begins after a halt is one that a call performs which began after it, to play or to
    step. -/
theorem began_of_begins (hs : Since h events) {last : Event Call}
    (htold : Told (h.after machine events) last deeds) {place : Nat}
    (hplace : .begins place ∈ deeds) : ∃ i time call, last = .turn i time ∧
      Began h (events ++ [last]) i call ∧ (call = .play ∨ call = .stepForward) := by
  cases htold with
  | @begun call n deeds hbegun hmoves =>
    have hepoch := (steers_of_moves hmoves).begins place hplace
    have hcall := (((h.after machine events).world.entered call).epochs.2.2.1 _ hepoch).2
    cases last with
    | join time action => cases hbegun
    | turn i time => exact ⟨i, time, call, rfl, ⟨events, time, [], rfl, hbegun⟩, hcall⟩
  | @resumed t n deeds hresumed hmoves =>
    have hepoch := (steers_of_moves hmoves).begins place hplace
    obtain ⟨i, time, since, rfl, hv⟩ := running_of_resumed hresumed
    rcases hs.calls hv hepoch with hold | hyoung
    · exact absurd hs.epoch (Nat.not_le.2 hold.past)
    · obtain ⟨call, hbegan, hcall⟩ := hyoung.began
      exact ⟨i, time, call, rfl, hbegan.append _, hcall⟩
  | idle hbegun hresumed => cases hplace

/-- Whatever calls were made and however they took turns, and whatever comes after a call that halts
    the player. With that call no step begins. Later one begins only in the turn of a call to play
    or to step that began after the halt and was not under way then. And whoever was playing or
    stepping then, or waited for it, returns, and once the commands that were performed then are
    through, it returns before any time passes. -/
theorem halts_after (equipment : Narration.Equipment) (tosses coins : List Bool) (start : Nat)
    (before : List (Event Call)) (event : Event Call)
    (hhalts : Halts ((alone start (fresh equipment tosses coins)).after machine before) event) :
    let e : Ensemble Player Call Task :=
      (alone start (fresh equipment tosses coins)).after machine before
    let h := e.step machine event
    (∀ deeds place, Told e event deeds → .begins place ∉ deeds) ∧
    (∀ later last deeds place, Told (h.after machine later) last deeds → .begins place ∈ deeds →
      ∃ i time call, last = .turn i time ∧ Began h (later ++ [last]) i call ∧
        (call = .play ∨ call = .stepForward) ∧
        ∀ (since : Nat) (t : Task), h.voices[i]? ≠ some (.running since t)) ∧
    (∀ (i since : Nat) (t : Task), h.voices[i]? = some (.running since t) →
      t.epoch?.isSome = true → ∀ later next, Through h (h.after machine later) →
        Prompt machine (h.after machine later) next →
        let now := (h.after machine later).now
        let e' : Ensemble Player Call Task := (h.after machine later).after machine next
        (∃ u, e'.voices[i]? = some (.running since u) ∧ e'.now = now) ∨
          ∃ stop u w, e'.voices[i]? = some (.done since stop u w) ∧ stop ≤ now) ∧
    ∀ later, ∃ next, Prompt machine (h.after machine later) next ∧
      ((h.after machine later).after machine next).Ended := by
  intro e h
  have hplayed : Played equipment tosses coins e := ⟨start, before, rfl⟩
  have hplayed' : Played equipment tosses coins h := hplayed.step event
  have hsince : ∀ events, Since h events := since_halt hplayed hhalts
  refine ⟨?_, ?_, ?_, ?_⟩
  · intro deeds place htold hplace
    -- The call that halts is in no epoch afterwards, so no step begins with it.
    obtain ⟨call, hbegun, hcall⟩ := hhalts
    cases htold with
    | @begun call' n deeds hbegun' hmoves =>
      obtain rfl := Option.some.inj (hbegun.symm.trans hbegun')
      have hepoch := (steers_of_moves hmoves).begins place hplace
      rw [((e.world.entered call).epoch_of_halts hcall).2] at hepoch
      cases hepoch
    | resumed hresumed hmoves =>
      rw [resumed?_of_begun hbegun] at hresumed
      cases hresumed
    | idle hbegun' hresumed => cases hplace
  · intro later last deeds place htold hplace
    -- A step begins only in the epoch of the moment, and those who were under way at the halt are
    -- in an earlier one.
    obtain ⟨i, time, call, hlast, hbegan, hcall⟩ :=
      began_of_begins (hsince later) htold hplace
    exact ⟨i, time, call, hlast, hbegan, hcall, not_running_of_began hplayed' hbegan⟩
  · intro i since t ht hin later next hthrough hprompt
    -- Whoever is under way now belongs to an epoch that the halt ended, or else began after it.
    obtain ⟨epoch, hepoch⟩ := Option.isSome_iff_exists.1 hin
    have hpast : epoch < h.world.epoch := by
      rcases (hsince []).calls ht hepoch with hold | hyoung
      · exact hold.past
      · obtain ⟨call, hbegan, _⟩ := hyoung.began
        exact absurd ht (not_running_of_began hplayed' hbegan since t)
    rcases (returned_before hplayed' hsince ht hepoch hpast ((hsince later).quiet hthrough)
      hprompt).2 with ⟨u, hu, _, hnow⟩ | hdone
    · exact .inl ⟨u, hu, hnow⟩
    · exact .inr hdone
  · intro later
    obtain ⟨rounds, hended⟩ := exists_run_ended (hplayed'.after later)
    obtain ⟨next, hnext, hprompt, _⟩ :=
      exists_prompt_run (m := machine) (e := h.after machine later) rounds
    exact ⟨next, hprompt, hnext ▸ hended⟩

/-- A call to step waits for a call to play when the player is halted. Once the commands of the
    first step are through, it returns at that time without performing the second one. -/
theorem halts_after_pause :
    let node : Json := .obj [("command", .str "CREATE_NODE"), ("id", .str "a"),
      ("position", .obj [("x", .int 0), ("y", .int 0)])]
    let e : Ensemble Player Call Task := (alone 0 (fresh .usual [] [])).after machine
      [.join 0 (.load ⟨[], [⟨[node], none, none⟩, ⟨[node], none, none⟩]⟩), .turn 0 0, .turn 0 0,
        .join 0 .play, .turn 1 0, .join 0 .stepForward, .turn 2 0, .join 0 .pause]
    let h : Ensemble Player Call Task := e.step machine (.turn 3 10)
    let settled : Ensemble Player Call Task := h.after machine [.turn 1 1000]
    Halts e (.turn 3 10) ∧ Through h settled ∧
      (∃ t, h.voices[2]? = some (.running 0 t) ∧ t.epoch?.isSome = true) ∧
      ∀ next, Prompt machine settled next → let e' := settled.after machine next
        (∃ u, e'.voices[2]? = some (.running 0 u) ∧ e'.now = 1000) ∨
          ∃ stop u w, e'.voices[2]? = some (.done 0 stop u w) ∧ stop ≤ 1000 := by
  intro node e h settled
  let events : List (Event Call) :=
    [.join 0 (.load ⟨[], [⟨[node], none, none⟩, ⟨[node], none, none⟩]⟩), .turn 0 0, .turn 0 0,
      .join 0 .play, .turn 1 0, .join 0 .stepForward, .turn 2 0]
  have hplace : ((alone 0 (fresh .usual [] [])).after machine events).voices.length = 3 := by
    decide +kernel
  have hhalts : Halts e (.turn 3 10) :=
    ⟨.pause, begun?_join _ events hplace (Nat.zero_le _), trivial⟩
  have hquiet : (settled.inFlight.all fun u => (u.stretch? 0).isNone) = true := by decide +kernel
  -- After the turn at one second nobody performs a step any more.
  have hthrough : Through h settled := by
    intro i since t u _ _ hu hperforms
    obtain ⟨place, hplace⟩ := hperforms
    have hnone := List.all_eq_true.1 hquiet u (mem_inFlight (List.mem_of_getElem? hu))
    rw [hplace] at hnone
    cases hnone
  have hnow : settled.now = 1000 := by decide +kernel
  obtain ⟨t, ht, hin⟩ : ∃ t, h.voices[2]? = some (.running 0 t) ∧ t.epoch?.isSome = true := by
    decide +kernel
  refine ⟨hhalts, hthrough, ⟨t, ht, hin⟩, fun next hprompt => ?_⟩
  have hafter := (halts_after .usual [] [] 0 _ (.turn 3 10) hhalts).2.2.1 2 0 t ht hin
    [.turn 1 1000] next hthrough hprompt
  rw [← hnow]
  exact hafter

end Storyboard.Player
