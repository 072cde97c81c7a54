import Storyboard.Proofs.Playback.Halt
import Storyboard.Proofs.Playback.Handover

/-! # Silence after a halt

    To halt is to begin a new epoch and a new generation of the narrator. A
    call that was under way before does not go on speaking in either, but
    when the end of its epoch and the end of a wait come at once, a coin may
    let it go on first. Then it hands over one more text, and nothing after
    that (`Hears.escapes`): the text of a step whose commands get through just
    then, or the one that the voice service fails at this moment.

    Nothing else is heard after a halt before another call begins, to play or
    to step, and a step begins with it (`heard_after`). -/

namespace Storyboard.Player

open Ensemble

variable {p q : Player} {t u : Task} {a b : Advance} {deeds : List Deed} {log : List Handover}
  {now epoch ticket i since : Nat} {report : Report} {tail : Tail}
  {e h : Ensemble Player Call Task} {event : Event Call} {events : List (Event Call)}
  {equipment : Narration.Equipment} {tosses coins : List Bool}

/-! ### A step whose epoch is over -/

/-- What a step hands over whose epoch is over, where a coin lets it. -/
inductive Escapes (now : Nat) (p : Player) : Advance → List Handover → Prop
  /-- The commands get through, and what is to be spoken follows. -/
  | performing {ticket place : Nat} {step : Step} {perf : Performance} {text : String}
      (hspoken : step.spoken? = some text) :
      Escapes now p (.performing ticket place step perf) (p.narrator.speakHands now text)
  | ahead {ticket : Nat} {step : Step} {report : Report} {text : String}
      (hspoken : step.spoken? = some text) :
      Escapes now p (.trailing ticket step report .ahead) (p.narrator.speakHands now text)
  /-- The voice service is done with the text, to no avail. -/
  | speaking {ticket due : Nat} {step : Step} {report : Report} {turn : Turn} (hdue : due ≤ now)
      (htoss : p.narrator.toss.2 = true) :
      Escapes now p (.trailing ticket step report (.speaking (.delivering turn (.synthesizing due))))
        (p.narrator.readHands turn.text)

theorem escapes_follow {step : Step} (hstale : p.isCurrent epoch = false)
    (hturn : ∀ turn, tail.said?.bind Speech.turn? = some turn →
      turn.generation ≠ p.narrator.generation)
    (hheard : p.followHands epoch now step tail ≠ []) : p.toss.2 = true ∧
      Escapes now p (.trailing ticket step report tail) (p.followHands epoch now step tail) := by
  unfold followHands at hheard ⊢
  rw [hstale, Bool.false_or] at hheard ⊢
  -- In an epoch that is over the tail is polled only if the coin says so. Then it can hand over the
  -- text of the step, or one piece of a speech that was begun.
  cases htoss : p.toss.2 with
  | false =>
    rw [htoss] at hheard
    exact absurd rfl hheard
  | true =>
    rw [htoss, if_pos rfl] at hheard
    rw [if_pos rfl]
    refine ⟨rfl, ?_⟩
    cases tail with
    | ahead =>
      unfold tailHands at hheard ⊢
      dsimp only at hheard ⊢
      cases hspoken : step.spoken? with
      | none =>
        rw [hspoken] at hheard
        exact absurd rfl hheard
      | some text => exact .ahead hspoken
    | speaking s =>
      cases hs : s.turn? with
      | none =>
        cases s with
        | «over» outcome => exact absurd rfl hheard
        | _ => cases hs
      | some turn =>
        have hsame : p.tailHands now step (.speaking s) = p.narrator.resumeHands now s := rfl
        obtain ⟨due, rfl, hdue, hcoin, hhands⟩ :=
          Narrator.resumeHands_of_stale hs (hturn turn hs) hheard
        rw [hsame, hhands]
        exact .speaking hdue hcoin
    | _ => exact absurd rfl hheard

/-- A move of a step whose epoch is over ends what follows the commands, with a text perhaps, or
    leads on to that. -/
theorem Strides.lapses (h : Strides epoch now p a deeds q b) (hstale : p.epoch ≠ epoch)
    (hturn : ∀ turn, a.said?.bind Speech.turn? = some turn →
      turn.generation ≠ p.narrator.generation) :
    b.step? = none ∧ (p.advanceHands epoch now a ≠ [] →
      p.toss.2 = true ∧ Escapes now p a (p.advanceHands epoch now a)) ∨
    p.advanceHands epoch now a = [] ∧ b.said? = none ∧ q.coins = p.coins ∧
      ∀ log, Escapes now q b log → Escapes now p a log := by
  have hlapsed : p.isCurrent epoch = false := beq_eq_false_iff_ne.2 hstale
  -- No step begins in an epoch that is over, so the stride ends the tail or leads on to it.
  cases h with
  | begin hleads hcurrent hstep => exact absurd hcurrent hstale
  | pass hleads hnone => exact .inl ⟨rfl, fun hheard => absurd rfl hheard⟩
  | perform hready =>
    refine .inr ⟨rfl, rfl, rfl, fun log hescapes => ?_⟩
    cases hescapes with
    | performing hspoken => exact .performing hspoken
  | proceed hover =>
    refine .inr ⟨rfl, rfl, rfl, fun log hescapes => ?_⟩
    cases hescapes with
    | ahead hspoken => exact .performing hspoken
  | @follow ticket step report tail htail hready =>
    refine .inl ⟨?_, fun hheard => escapes_follow hlapsed hturn hheard⟩
    rw [follow_of_stale hlapsed]
    split <;> rfl
  | finish =>
    refine .inl ⟨rfl, fun hheard => absurd (followHands_over ..) hheard⟩

/-- A call that performs a step goes on with the step. -/
theorem Move.exists_strides (h : Move now p t deeds q u) (hstep : t.step?.isSome = true) :
    ∃ epoch a b, t.epoch? = some epoch ∧ t.advance? = some (epoch, a) ∧
      u.advance? = some (epoch, b) ∧ Strides epoch now p a deeds q b := by
  cases h with
  | play h => exact ⟨_, _, _, rfl, rfl, rfl, h⟩
  | step h => exact ⟨_, _, _, rfl, rfl, rfl, h⟩
  | _ => cases hstep

/-- A call whose epoch is over begins no step. -/
theorem Steers.not_begins (h : Steers p t deeds q u) (hstale : t.epoch? ≠ some p.epoch)
    (place : Nat) : .begins place ∉ deeds := fun hplace => hstale (h.begins place hplace)

/-- What a call hands over whose epoch is over, where a coin lets it. -/
def Task.Escapes (now : Nat) (p : Player) (t : Task) (log : List Handover) : Prop :=
  ∃ epoch a, t.advance? = some (epoch, a) ∧ Player.Escapes now p a log

/-- So it is with a call that performs a step and whose epoch and generation are over. -/
theorem Move.lapses (h : Move now p t deeds q u) (hstep : t.step?.isSome = true)
    (hstale : t.epoch? ≠ some p.epoch)
    (hturn : ∀ turn, t.turn? = some turn → turn.generation ≠ p.narrator.generation) :
    u.step? = none ∧ (t.hands now p ≠ [] → p.toss.2 = true ∧ t.Escapes now p (t.hands now p)) ∨
    t.hands now p = [] ∧ u.turn? = none ∧ q.toss.2 = p.toss.2 ∧
      ∀ log, u.Escapes now q log → t.Escapes now p log := by
  -- The call performs a step, so its move is a stride and all is said of its advance.
  obtain ⟨epoch, a, b, hepoch, ha, hb, hstrides⟩ := h.exists_strides hstep
  have hhands : t.hands now p = p.advanceHands epoch now a := by
    unfold Task.hands
    rw [ha]
  have hstepped : u.step? = b.step? := by
    unfold Task.step?
    rw [hb]
    rfl
  have hsaid : ∀ {v : Task} {c : Advance}, v.advance? = some (epoch, c) →
      v.turn? = c.said?.bind Speech.turn? := by
    intro v c hv
    unfold Task.turn? Task.said?
    rw [hv]
    rfl
  have hne : p.epoch ≠ epoch := fun heq => hstale (heq ▸ hepoch)
  rw [hsaid ha] at hturn
  rw [hhands, hstepped, hsaid hb]
  refine (hstrides.lapses hne hturn).imp ?_ ?_
  · rintro ⟨hnone, hheard⟩
    exact ⟨hnone, fun hlog => (hheard hlog).imp_right fun hescapes => ⟨epoch, a, ha, hescapes⟩⟩
  · rintro ⟨hnil, hsilent, hcoins, hback⟩
    refine ⟨hnil, by rw [hsilent]; rfl, by unfold toss; rw [hcoins], ?_⟩
    rintro log ⟨epoch', b', hb', hescapes⟩
    obtain ⟨rfl, rfl⟩ := Prod.mk.inj (Option.some.inj (hb.symm.trans hb'))
    exact ⟨epoch, a, ha, hback log hescapes⟩

/-- A call whose epoch is over and that performs no step is not heard. -/
theorem Hears.quiet (h : Hears now p t deeds log q u) (hstale : t.epoch? ≠ some p.epoch)
    (hstep : t.step? = none) : log = [] ∧ u.step? = none := by
  have hbegins := h.steers.not_begins hstale
  constructor
  · by_contra hlog
    rcases h.voices.heard hlog with hsome | ⟨place, hplace⟩
    · rw [hstep] at hsome
      cases hsome
    · exact hbegins place hplace
  · rw [← Option.not_isSome_iff_eq_none]
    intro hsome
    rcases h.voices.step hsome with hsome | ⟨place, hplace⟩
    · rw [hstep] at hsome
      cases hsome
    · exact hbegins place hplace

/-- A call whose epoch and generation are over is heard once at most, and only if a coin lets it go
    on first. Afterwards nothing is left of its step. -/
theorem Hears.escapes (h : Hears now p t deeds log q u) (hstale : t.epoch? ≠ some p.epoch)
    (hturn : ∀ turn, t.turn? = some turn → turn.generation ≠ p.narrator.generation)
    (hlog : log ≠ []) : u.step? = none ∧ p.toss.2 = true ∧ t.Escapes now p log := by
  induction h with
  | refl => exact absurd rfl hlog
  | @head p p' r t t' v deeds more log hmove hs ih =>
    have hstep : t.step?.isSome = true := by
      by_contra hnone
      exact hlog ((Hears.head hmove hs).quiet hstale (Option.not_isSome_iff_eq_none.1 hnone)).1
    have hstale' : t'.epoch? ≠ some p'.epoch := fun hcurrent => hstale (by
      rw [hmove.steers.same] at hcurrent
      exact hmove.steers.origin hcurrent)
    rcases hmove.lapses hstep hstale hturn with ⟨hnone, hheard⟩ | ⟨hnil, hsilent, htoss, hback⟩
    · -- Nothing is left of the step, so nothing more is heard.
      obtain ⟨hmore, hv⟩ := hs.quiet hstale' hnone
      rw [hmore, List.append_nil] at hlog ⊢
      exact ⟨hv, hheard hlog⟩
    · rw [hnil, List.nil_append] at hlog ⊢
      have hturn' : ∀ turn, t'.turn? = some turn → turn.generation ≠ p'.narrator.generation := by
        intro turn hturn'
        rw [hsilent] at hturn'
        cases hturn'
      obtain ⟨hv, hcoin, hescapes⟩ := ih hstale' hturn' hlog
      exact ⟨hv, htoss.symm.trans hcoin, hback log hescapes⟩

/-! ### Who is under way -/

/-- A call is under way after an event: it was before, in the turn of somebody else, or this is its
    own turn, its first one perhaps. -/
theorem running_turn (hu : (e.step machine event).voices[i]? = some (.running since u)) :
    e.voices[i]? = some (.running since u) ∧ (∀ time, event ≠ .turn i time) ∨
    (∃ t time, event = .turn i time ∧ e.voices[i]? = some (.running since t) ∧
      e.resumed? event = some t ∧ (e.world.resume (e.step machine event).now t).2 = u) ∨
    ∃ call time, event = .turn i time ∧ e.begun? event = some call ∧
      (e.world.start (e.step machine event).now call).2 = u := by
  -- Only a turn of its own makes a call go on. All other events leave its voice as it is.
  by_cases hother : ∀ time, event ≠ .turn i time
  · refine .inl ⟨?_, hother⟩
    generalize hv : (Voice.running since u : Voice Player Call Task) = v at hu ⊢
    cases turned_step hu with
    | same hsame => exact hsame
    | joined hevent hnone => cases hv
    | begun hevent hpending hbegun => exact absurd hevent (hother _)
    | resumed hevent hrunning hresumed => exact absurd hevent (hother _)
  · obtain ⟨time, hevent⟩ := not_forall_not.1 hother
    subst hevent
    generalize hv : (Voice.running since u : Voice Player Call Task) = v at hu
    cases turned_step hu with
    | same hsame =>
      subst hv
      have hsettled := (step_turn_of_running (m := machine) hsame time).2.symm.trans hu
      obtain ⟨_, hresume⟩ := eq_of_settle (Option.some.inj hsettled)
      refine .inr (.inl ⟨u, time, rfl, hsame, ?_, hresume⟩)
      unfold resumed?
      dsimp only
      rw [hsame]
    | joined hevent hnone => cases hv
    | @begun time' start call hevent hpending hbegun =>
      obtain ⟨_, hstart⟩ := eq_of_settle hv.symm
      exact .inr (.inr ⟨call, time, rfl, hbegun, hstart⟩)
    | @resumed time' start t hevent hrunning hresumed =>
      obtain ⟨rfl, hresume⟩ := eq_of_settle hv.symm
      exact .inr (.inl ⟨t, time, rfl, hrunning, hresumed, hresume⟩)

/-- Who waits for the voice service waited for it before, or the text was handed to it now. -/
theorem Heard.asked (h : Heard e event deeds log) {text : String}
    (hu : (e.step machine event).voices[i]? = some (.running since u))
    (hasked : u.asked? = some text) :
    (∃ t, e.voices[i]? = some (.running since t) ∧ t.asked? = some text) ∨ .voice text ∈ log := by
  -- Somebody else had the turn, or the call went on, or it began. A call begins without a voice.
  rcases running_turn hu with ⟨hsame, _⟩ | ⟨t, time, _, ht, hresumed, rfl⟩ |
    ⟨call, time, _, hbegun, rfl⟩
  · exact .inl ⟨u, hsame, hasked⟩
  · cases h with
    | begun hbegun _ =>
      rw [resumed?_of_begun hbegun] at hresumed
      cases hresumed
    | resumed hresumed' hhears =>
      obtain rfl := Option.some.inj (hresumed.symm.trans hresumed')
      exact (hhears.voices.asked text hasked).imp_left fun hbefore => ⟨t, ht, hbefore⟩
    | idle _ hresumed' =>
      rw [hresumed] at hresumed'
      cases hresumed'
  · cases h with
    | begun hbegun' hhears =>
      obtain rfl := Option.some.inj (hbegun.symm.trans hbegun')
      refine .inr ((hhears.voices.asked text hasked).resolve_left fun hbefore => ?_)
      unfold Task.asked? at hbefore
      rw [(e.world.entered call).voices.2.1] at hbefore
      cases hbefore
    | resumed hresumed _ =>
      rw [resumed?_of_begun hbegun] at hresumed
      cases hresumed
    | idle hbegun' _ =>
      rw [hbegun] at hbegun'
      cases hbegun'

/-! ### Since a halt -/

/-- In the turns at a place nothing was handed over. -/
def Silent (h : Ensemble Player Call Task) (events : List (Event Call)) (i : Nat) : Prop :=
  ∀ before time after deeds log, events = before ++ .turn i time :: after →
    Heard (h.after machine before) (.turn i time) deeds log → log = []

/-- In a turn at a place a step began. -/
def Stepped (h : Ensemble Player Call Task) (events : List (Event Call)) (i : Nat) : Prop :=
  ∃ before time after deeds place, events = before ++ .turn i time :: after ∧
    Told (h.after machine before) (.turn i time) deeds ∧ .begins place ∈ deeds

theorem Silent.append (hsilent : Silent h events i) (hlast : ∀ time deeds log,
    event = .turn i time → Heard (h.after machine events) event deeds log → log = []) :
    Silent h (events ++ [event]) i := by
  intro before time after deeds log hsplit hheard
  rcases List.eq_nil_or_concat after with rfl | ⟨after, last, rfl⟩
  · obtain ⟨rfl, hsame⟩ := List.append_inj' hsplit rfl
    obtain rfl := List.singleton_inj.1 hsame
    exact hlast time deeds log rfl hheard
  · rw [List.concat_eq_append, ← List.cons_append, ← List.append_assoc] at hsplit
    obtain ⟨hevents, _⟩ := List.append_inj' hsplit rfl
    exact hsilent before time after deeds log hevents hheard

theorem Stepped.append (hstepped : Stepped h events i) (more : List (Event Call)) :
    Stepped h (events ++ more) i := by
  obtain ⟨before, time, after, deeds, place, rfl, htold, hplace⟩ := hstepped
  exact ⟨before, time, after ++ more, deeds, place, by simp, htold, hplace⟩

/-- What the calls under way may still be heard with. Whoever is in an epoch that was over speaks in
    no generation since, and if its step is not over, that was under way then and nothing was heard
    of it. Whoever is in a later one began its step since. -/
structure Hushed (h : Ensemble Player Call Task) (events : List (Event Call)) : Prop where
  generation : h.world.narrator.generation ≤ (h.after machine events).world.narrator.generation
  past  : ∀ {i since epoch : Nat} {t : Task},
    (h.after machine events).voices[i]? = some (.running since t) → t.epoch? = some epoch →
    epoch < h.world.epoch →
    (∀ turn, t.turn? = some turn → turn.generation < h.world.narrator.generation) ∧
    (t.step?.isSome = true → Silent h events i ∧
      ∃ t₀, h.voices[i]? = some (.running since t₀) ∧ t₀.step?.isSome = true)
  begun : ∀ {i since epoch : Nat} {t : Task},
    (h.after machine events).voices[i]? = some (.running since t) → t.epoch? = some epoch →
    h.world.epoch ≤ epoch → t.step?.isSome = true → Stepped h events i

/-- A call that goes on is heard in some moves. -/
theorem exists_hears_resume (hrests : AllRest e.inFlight)
    (ht : e.voices[i]? = some (.running since t)) (now : Nat) : ∃ n deeds log,
      Moves now n e.world t deeds (e.world.resume now t).1 (e.world.resume now t).2 ∧
        Hears now e.world t deeds log (e.world.resume now t).1 (e.world.resume now t).2 := by
  have hmem := mem_inFlight (List.mem_of_getElem? ht)
  obtain ⟨_, n, deeds, _, hmoves⟩ := comes_resume e.world now (hrests t hmem).2
  obtain ⟨log, hhears⟩ := exists_hears hmoves
  exact ⟨n, deeds, log, hmoves, hhears⟩

/-- Whoever is in an epoch that was over at the halt is in none of now. -/
theorem Since.stale (hs : Since h events) {epoch : Nat} (hin : t.epoch? = some epoch)
    (hpast : epoch < h.world.epoch) : t.epoch? ≠ some (h.after machine events).world.epoch := by
  intro hcurrent
  have hsame : epoch = (h.after machine events).world.epoch :=
    Option.some.inj (hin.symm.trans hcurrent)
  exact Nat.not_le.2 hpast (hsame ▸ hs.epoch)

/-- Nobody who is in an epoch that was over speaks in a generation of now. -/
theorem Hushed.turn_ne (hhushed : Hushed h events) {epoch : Nat}
    (ht : (h.after machine events).voices[i]? = some (.running since t))
    (hin : t.epoch? = some epoch) (hpast : epoch < h.world.epoch) {turn : Turn}
    (hturn : t.turn? = some turn) :
    turn.generation ≠ (h.after machine events).world.narrator.generation :=
  Nat.ne_of_lt (Nat.lt_of_lt_of_le ((hhushed.past ht hin hpast).1 turn hturn) hhushed.generation)

/-- A call of an epoch that was over goes on. It takes no other turn to speak, and if its step is not
    over then, it was not heard. -/
theorem Hushed.resumes (hhushed : Hushed h events) (hs : Since h events) {epoch : Nat}
    (ht : (h.after machine events).voices[i]? = some (.running since t))
    (hhears : Hears now (h.after machine events).world t deeds log q u)
    (hin : u.epoch? = some epoch) (hpast : epoch < h.world.epoch) :
    (∀ turn, u.turn? = some turn → turn.generation < h.world.narrator.generation) ∧
    (u.step?.isSome = true → log = [] ∧ Silent h events i ∧
      ∃ t₀, h.voices[i]? = some (.running since t₀) ∧ t₀.step?.isSome = true) := by
  have hin' := hhears.steers.origin hin
  have hstale := hs.stale hin' hpast
  obtain ⟨hturn, hstep⟩ := hhushed.past ht hin' hpast
  refine ⟨fun turn hu => ?_, fun hsome => ⟨?_, ?_⟩⟩
  · exact hturn turn ((hhears.voices.turn turn hu).resolve_right fun h => hstale h.1)
  · by_contra hlog
    rw [(hhears.escapes hstale (fun _ => hhushed.turn_ne ht hin' hpast) hlog).1] at hsome
    cases hsome
  · exact hstep ((hhears.voices.step hsome).resolve_right fun ⟨place, hplace⟩ =>
      hhears.steers.not_begins hstale place hplace)

theorem Hushed.step (hhushed : Hushed h events) (hs : Since h events)
    (hrests : AllRest (h.after machine events).inFlight) (event : Event Call) :
    Hushed h (events ++ [event]) := by
  have hafter : h.after machine (events ++ [event]) =
      (h.after machine events).step machine event := after_append events [event]
  -- A call that is under way after the event was so before, went on with the event or began with
  -- it. Only one that went on can have been heard in between.
  refine ⟨?_, ?_, ?_⟩
  · rw [hafter]
    exact Nat.le_trans hhushed.generation (generation_step hrests event)
  · intro i since epoch u hu hin hpast
    rw [hafter] at hu
    rcases running_turn hu with ⟨hsame, hother⟩ | ⟨t, time, rfl, ht, hresumed, rfl⟩ |
      ⟨call, time, rfl, hbegun, rfl⟩
    · obtain ⟨hturn, hstep⟩ := hhushed.past hsame hin hpast
      refine ⟨hturn, fun hsome => ?_⟩
      obtain ⟨hsilent, hbefore⟩ := hstep hsome
      exact ⟨hsilent.append fun time _ _ hevent => absurd hevent (hother time), hbefore⟩
    · obtain ⟨n, deeds, log, _, hhears⟩ := exists_hears_resume hrests ht
        ((h.after machine events).step machine (.turn i time)).now
      obtain ⟨hturn, hstep⟩ := hhushed.resumes hs ht hhears hin hpast
      refine ⟨hturn, fun hsome => ?_⟩
      obtain ⟨_, hsilent, hbefore⟩ := hstep hsome
      refine ⟨hsilent.append fun time' deeds' log' _ hheard => ?_, hbefore⟩
      cases hheard with
      | begun hbegun _ =>
        rw [resumed?_of_begun hbegun] at hresumed
        cases hresumed
      | resumed hresumed' hhears' =>
        obtain rfl := Option.some.inj (hresumed.symm.trans hresumed')
        exact ((hhushed.resumes hs ht hhears' hin hpast).2 hsome).1
      | idle hbegun hresumed' => rfl
    · -- Who begins now is in no epoch that was over.
      obtain ⟨_, n, deeds, _, hmoves⟩ := comes_start (h.after machine events).world
        ((h.after machine events).step machine (.turn i time)).now call
      obtain ⟨hgrows, _, henter, _⟩ := ((h.after machine events).world.entered call).epochs
      have hsame := (henter epoch ((steers_of_moves hmoves).origin hin)).1
      have hle := hs.epoch
      omega
  · intro i since epoch u hu hin hle hsome
    rw [hafter] at hu
    rcases running_turn hu with ⟨hsame, _⟩ | ⟨t, time, rfl, ht, hresumed, rfl⟩ |
      ⟨call, time, rfl, hbegun, rfl⟩
    · exact (hhushed.begun hsame hin hle hsome).append [event]
    · obtain ⟨n, deeds, log, hmoves, hhears⟩ := exists_hears_resume hrests ht
        ((h.after machine events).step machine (.turn i time)).now
      rcases hhears.voices.step hsome with hbefore | ⟨place, hplace⟩
      · exact (hhushed.begun ht (hhears.steers.origin hin) hle hbefore).append _
      · exact ⟨events, time, [], deeds, place, rfl, .resumed hresumed hmoves, hplace⟩
    · obtain ⟨_, n, deeds, _, hmoves⟩ := comes_start (h.after machine events).world
        ((h.after machine events).step machine (.turn i time)).now call
      obtain ⟨log, hhears⟩ := exists_hears hmoves
      rcases hhears.voices.step hsome with hbefore | ⟨place, hplace⟩
      · rw [((h.after machine events).world.entered call).voices.1] at hbefore
        cases hbefore
      · exact ⟨events, time, [], deeds, place, rfl, .begun hbegun hmoves, hplace⟩

/-- Whatever happens after a halt. -/
theorem hushed_halt (hplayed : Played equipment tosses coins e) (hhalts : Halts e event)
    (events : List (Event Call)) : Hushed (e.step machine event) events := by
  have hsince := since_halt hplayed hhalts
  -- By induction on what comes after the halt, from its beginning on.
  induction events using List.reverseRecOn with
  | nil =>
    obtain ⟨call, hbegun, hcall⟩ := hhalts
    obtain ⟨_, n, deeds, _, hmoves⟩ := comes_start e.world (e.step machine event).now call
    obtain ⟨log, hhears⟩ := exists_hears hmoves
    obtain ⟨_, hnone⟩ := (e.world.entered call).epoch_of_halts hcall
    -- The halt stops the narrator, and with that every turn taken before is out of date.
    have hstop : e.world.narrator.generation < (e.step machine event).world.narrator.generation := by
      have hstopped : (e.world.enter call).1.narrator = e.world.narrator.stop := by
        rcases (e.world.entered call).voices.2.2 with ⟨_, hgoes⟩ | ⟨hstopped, _⟩
        · exact absurd hcall hgoes
        · exact hstopped
      have hgrows := hhears.voices.generation
      rw [hstopped] at hgrows
      rw [(step_of_begun (m := machine) hbegun).1]
      exact hgrows
    refine ⟨Nat.le_refl _, ?_, ?_⟩
    · intro i since epoch t ht hin hpast
      refine ⟨fun turn hturn => ?_, fun hsome => ⟨?_, t, ht, hsome⟩⟩
      · rcases running_turn ht with ⟨hsame, _⟩ | ⟨t', time, _, _, hresumed, _⟩ |
          ⟨call', time, _, hbegun', rfl⟩
        · obtain ⟨start, before, rfl⟩ := hplayed
          have hle : turn.generation ≤ _ := after_of_kept kept_turns (List.forall_mem_nil _) start
            before t (mem_inFlight (List.mem_of_getElem? hsame)) turn hturn
          exact Nat.lt_of_le_of_lt hle hstop
        · rw [resumed?_of_begun hbegun] at hresumed
          cases hresumed
        · -- The call that halts the player is in no epoch.
          obtain rfl := Option.some.inj (hbegun.symm.trans hbegun')
          have horigin := hhears.steers.origin hin
          rw [hnone] at horigin
          cases horigin
      · intro before time after deeds log hsplit
        cases before <;> cases hsplit
    · intro i since epoch t ht hin hle
      rcases (hsince []).calls ht hin with hold | hyoung
      · exact absurd hle (Nat.not_le.2 hold.past)
      · obtain ⟨call, ⟨before, time, after, hsplit, _⟩, _⟩ := hyoung.began
        cases before <;> cases hsplit
  | append_singleton events event' ih =>
    exact ih.step (hsince events) ((hplayed.step event).after events).rests event'

/-- One call at a time has begun a step and is not through with it. -/
theorem eq_of_step {j since' : Nat} (hplayed : Played equipment tosses coins e)
    (ht : e.voices[i]? = some (.running since t)) (hu : e.voices[j]? = some (.running since' u))
    (htstep : t.step?.isSome = true) (hustep : u.step?.isSome = true) : i = j := by
  by_contra hne
  -- Whoever has begun a step is at the head of the gate, and nobody shares it.
  have hheads : ∀ {t : Task}, t.step?.isSome = true → t.standing.Leads e.world.gate →
      ∃ ticket, t.standing.ticket? = some ticket ∧ e.world.gate.leads ticket = true := by
    intro t hstep hleads
    have hadvance : ∀ a : Advance, a.step?.isSome = true → a.standing.Leads e.world.gate →
        ∃ ticket, a.standing.ticket? = some ticket ∧ e.world.gate.leads ticket = true := by
      intro a ha hleads
      cases a with
      | performing ticket place step perf => exact ⟨ticket, rfl, hleads⟩
      | trailing ticket step report tail => exact ⟨ticket, rfl, hleads⟩
      | _ => cases ha
    cases t with
    | playing epoch report a => exact hadvance a hstep hleads
    | stepping epoch a => exact hadvance a hstep hleads
    | _ => cases hstep
  obtain ⟨ts, hperm, hmem⟩ := exists_inFlight_perm ht hu (Ne.symm hne)
  have hordered := hplayed.queued.1.perm (hperm.map Task.standing)
  have hmem := List.mem_map_of_mem (f := Task.standing) hmem
  obtain ⟨first, hfirst, hleads⟩ := hheads hustep (hordered.leads _ List.mem_cons_self)
  obtain ⟨second, hsecond, hleads'⟩ :=
    hheads htstep (hordered.leads _ (List.mem_cons_of_mem _ hmem))
  have hline := hordered.line
  rw [List.map_cons, List.filterMap_cons_some hfirst] at hline
  rw [hline.not_leads hleads second (List.mem_filterMap.2 ⟨_, hmem, hsecond⟩)] at hleads'
  cases hleads'

/-! ### What is heard after a halt -/

/-- The call at a place began with one of some events, to play or to step, and a step began in one
    of its turns. -/
def StepsAnew (h : Ensemble Player Call Task) (events : List (Event Call)) (i : Nat) : Prop :=
  ∃ call, Began h events i call ∧ (call = .play ∨ call = .stepForward) ∧ Stepped h events i

/-- The step of the call at a place was under way, and nothing was heard of it with some events. Now
    a coin lets the call go on first, and it hands over a text for the one time that is left. -/
def Lingers (h : Ensemble Player Call Task) (events : List (Event Call)) (last : Event Call)
    (i : Nat) (log : List Handover) : Prop :=
  ∃ since t₀ t, h.voices[i]? = some (.running since t₀) ∧ t₀.step?.isSome = true ∧
    Silent h events i ∧ (h.after machine events).voices[i]? = some (.running since t) ∧
    (h.after machine events).world.toss.2 = true ∧
    t.Escapes ((h.after machine events).step machine last).now (h.after machine events).world log

theorem Task.exists_epoch (h : t.step?.isSome = true) : ∃ epoch, t.epoch? = some epoch := by
  cases t with
  | playing epoch report a => exact ⟨epoch, rfl⟩
  | stepping epoch a => exact ⟨epoch, rfl⟩
  | _ => cases h

theorem heard_since (hs : Since h events) (hhushed : Hushed h events) {last : Event Call}
    (hheard : Heard (h.after machine events) last deeds log) (hlog : log ≠ []) :
    ∃ i time, last = .turn i time ∧ (StepsAnew h (events ++ [last]) i ∨ Lingers h events last i log) := by
  have htold := hheard.told
  -- Whoever begins a step with this event began since.
  have hbegins : ∀ place, .begins place ∈ deeds → ∃ i time, last = .turn i time ∧
      (StepsAnew h (events ++ [last]) i ∨ Lingers h events last i log) := by
    intro place hplace
    obtain ⟨i, time, call, rfl, hbegan, hcall⟩ := began_of_begins hs htold hplace
    exact ⟨i, time, rfl, .inl ⟨call, hbegan, hcall, events, time, [], deeds, place, rfl, htold,
      hplace⟩⟩
  cases hheard with
  | @begun call deeds log hbegun hhears =>
    rcases hhears.voices.heard hlog with hsome | ⟨place, hplace⟩
    · rw [((h.after machine events).world.entered call).voices.1] at hsome
      cases hsome
    · exact hbegins place hplace
  | @resumed t deeds log hresumed hhears =>
    rcases hhears.voices.heard hlog with hsome | ⟨place, hplace⟩
    · obtain ⟨epoch, hin⟩ := Task.exists_epoch hsome
      obtain ⟨i, time, since, rfl, ht⟩ := running_of_resumed hresumed
      refine ⟨i, time, rfl, ?_⟩
      rcases hs.calls ht hin with hold | hyoung
      · obtain ⟨hsilent, t₀, ht₀, hstep₀⟩ := (hhushed.past ht hin hold.past).2 hsome
        obtain ⟨_, htoss, hescapes⟩ := hhears.escapes (hs.stale hin hold.past)
          (fun _ => hhushed.turn_ne ht hin hold.past) hlog
        exact .inr ⟨since, t₀, t, ht₀, hstep₀, hsilent, ht, htoss, hescapes⟩
      · obtain ⟨call, hbegan, hcall⟩ := hyoung.began
        exact .inl ⟨call, hbegan.append _, hcall,
          (hhushed.begun ht hin hyoung.recent hsome).append _⟩
    · exact hbegins place hplace
  | idle hbegun hresumed => exact absurd rfl hlog

/-- With a call that halts the player nothing is handed over. -/
theorem heard_halt (hhalts : Halts e event) (hheard : Heard e event deeds log) : log = [] := by
  obtain ⟨call, hbegun, hcall⟩ := hhalts
  have hentered := e.world.entered call
  cases hheard with
  | @begun call' deeds log hbegun' hhears =>
    obtain rfl := Option.some.inj (hbegun.symm.trans hbegun')
    by_contra hlog
    rcases hhears.voices.heard hlog with hsome | ⟨place, hplace⟩
    · rw [hentered.voices.1] at hsome
      cases hsome
    · have hepoch := hhears.steers.begins place hplace
      rw [(hentered.epoch_of_halts hcall).2] at hepoch
      cases hepoch
  | resumed hresumed hhears =>
    rw [resumed?_of_begun hbegun] at hresumed
    cases hresumed
  | idle hbegun' hresumed => rfl

/-- Whatever calls were made and however they took turns, and whatever comes after a call that halts
    the player. With that call nothing is handed over. Later it is in the turn of a call to play or
    to step that began after the halt and has begun a step since. Or it is in the turn of the one
    call whose step was under way at the halt, and then a coin let this call go on first as the end
    of its epoch and the end of a wait came at once; of its step nothing was heard before. All of
    that can be told of every event, and the transcript tells the same, as do those who wait for the
    voice service. -/
theorem heard_after (equipment : Narration.Equipment) (tosses coins : List Bool) (start : Nat)
    (before : List (Event Call)) (event : Event Call)
    (hhalts : Halts ((alone start (fresh equipment tosses coins)).after machine before) event) :
    let e : Ensemble Player Call Task :=
      (alone start (fresh equipment tosses coins)).after machine before
    let h := e.step machine event
    (∀ deeds log, Heard e event deeds log → log = []) ∧
    (∀ later last deeds log, Heard (h.after machine later) last deeds log → log ≠ [] →
      ∃ i time, last = .turn i time ∧ (StepsAnew h (later ++ [last]) i ∨ Lingers h later last i log)) ∧
    (∀ (i j since since' : Nat) (t u : Task), h.voices[i]? = some (.running since t) →
      h.voices[j]? = some (.running since' u) → t.step?.isSome = true → u.step?.isSome = true →
      i = j) ∧
    ∀ later last, let f := h.after machine later
      (∃ deeds log, Heard f last deeds log) ∧
      ∀ deeds log, Heard f last deeds log →
        (f.step machine last).world.narrator.transcript =
          f.world.narrator.transcript ++ log.filterMap Handover.read? ∧
        ∀ (i since : Nat) (u : Task) (text : String),
          (f.step machine last).voices[i]? = some (.running since u) → u.asked? = some text →
          (∃ t : Task, f.voices[i]? = some (.running since t) ∧ t.asked? = some text) ∨
            .voice text ∈ log := by
  intro e h
  have hplayed : Played equipment tosses coins e := ⟨start, before, rfl⟩
  have hplayed' : Played equipment tosses coins h := hplayed.step event
  refine ⟨fun deeds log => heard_halt hhalts, ?_, fun i j since since' t u => eq_of_step hplayed',
    fun later last => ⟨?_, fun deeds log hheard =>
      ⟨hheard.transcript, fun i since u text => hheard.asked⟩⟩⟩
  · intro later last deeds log hheard hlog
    exact heard_since (since_halt hplayed hhalts later) (hushed_halt hplayed hhalts later) hheard hlog
  · exact exists_heard (hplayed'.after later).rests last

/-- A call to play is halted while it performs the commands of a step, and the coin says that the end
    of its epoch is seen first. When they get through, nothing is heard. -/
theorem heard_after_pause :
    let node : Json := .obj [("command", .str "CREATE_NODE"), ("id", .str "a"),
      ("position", .obj [("x", .int 0), ("y", .int 0)])]
    let e : Ensemble Player Call Task := (alone 0 (fresh .usual [] [false])).after machine
      [.join 0 (.load ⟨[], [⟨[node], some "one two three", none⟩]⟩), .turn 0 0, .join 0 .play,
        .turn 1 0, .join 0 .pause]
    let h : Ensemble Player Call Task := e.step machine (.turn 2 10)
    Halts e (.turn 2 10) ∧ ∀ deeds log, Heard h (.turn 1 1000) deeds log → log = [] := by
  intro node e h
  let events : List (Event Call) :=
    [.join 0 (.load ⟨[], [⟨[node], some "one two three", none⟩]⟩), .turn 0 0, .join 0 .play,
      .turn 1 0]
  have hplace : ((alone 0 (fresh .usual [] [false])).after machine events).voices.length = 2 := by
    decide +kernel
  have hhalts : Halts e (.turn 2 10) :=
    ⟨.pause, begun?_join _ events hplace (Nat.zero_le _), trivial⟩
  have hrunning : (h.begun? (.turn 1 1000)).isNone = true := by decide +kernel
  have hcoin : h.world.toss.2 = false := by decide +kernel
  refine ⟨hhalts, fun deeds log hheard => ?_⟩
  by_contra hlog
  have hafter : ∃ i time, (.turn 1 1000 : Event Call) = .turn i time ∧
      (StepsAnew h [.turn 1 1000] i ∨ Lingers h [] (.turn 1 1000) i log) :=
    (heard_after .usual [] [false] 0 _ (.turn 2 10) hhalts).2.1 [] (.turn 1 1000) deeds log hheard
      hlog
  clear_value h
  obtain ⟨i, time, hlast, ⟨call, ⟨first, time', after, hsplit, hbegun⟩, _⟩ | hlingers⟩ := hafter
  · -- The call to play did not begin since.
    cases first with
    | nil =>
      obtain ⟨hsame, _⟩ := List.cons.inj hsplit
      rw [← hsame] at hbegun
      rw [show h.begun? (.turn 1 1000) = some call from hbegun] at hrunning
      cases hrunning
    | cons _ first => cases first <;> cases hsplit
  · -- It is the call of before, and for that one the coin would have to fall the other way.
    obtain ⟨_, _, _, _, _, _, _, htoss, _⟩ := hlingers
    rw [show h.world.toss.2 = true from htoss] at hcoin
    cases hcoin

/-- The same call, and the coin says that what follows the commands goes on first. When they get
    through, the text of the step is handed to the local voice, long after the call that halted the
    player returned, and nobody began to play or to step since. -/
theorem heard_of_through :
    let node : Json := .obj [("command", .str "CREATE_NODE"), ("id", .str "a"),
      ("position", .obj [("x", .int 0), ("y", .int 0)])]
    let e : Ensemble Player Call Task := (alone 0 (fresh .usual [] [true])).after machine
      [.join 0 (.load ⟨[], [⟨[node], some "one two three", none⟩]⟩), .turn 0 0, .join 0 .play,
        .turn 1 0, .join 0 .pause]
    let h : Ensemble Player Call Task := e.step machine (.turn 2 10)
    let f : Ensemble Player Call Task := h.step machine (.turn 1 1000)
    (match e.begun? (.turn 2 10) with
      | some .pause => true
      | _ => false) = true ∧
    (match h.voices[2]? with
      | some (Voice.done _ stop _ _) => stop == 10
      | _ => false) = true ∧
    h.voices.length = 3 ∧ (h.begun? (.turn 1 1000)).isNone = true ∧
    h.world.narrator.transcript = [] ∧ f.world.narrator.transcript.length = 1 := by
  decide +kernel

end Storyboard.Player
