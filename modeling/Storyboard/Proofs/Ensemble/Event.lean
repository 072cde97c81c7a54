import Mathlib.Data.List.Basic
import Storyboard.Ensemble

/-! # Events of an ensemble

    The rounds of an ensemble are one of the orders in which its voices can
    take their turns. Here they may take them in any order and at any time,
    and others may join whenever they like: a list of events says how it goes.

    What every event keeps, holds after every list of events
    (`after_induction`), and an event begins an action, goes on with one or
    does neither (`step_of_begun`, `step_of_resumed`, `step_of_idle`).
    Whatever comes of rounds comes of events (`exists_events_run`). -/

namespace Storyboard

variable {World Action Task : Type}

namespace Voice

/-- What the voice is at. -/
def inFlight? : Voice World Action Task → Option Task
  | .running _ task => some task
  | _ => none

variable {m : Machine World Action Task} {now start : Nat} {x : World × Task}

@[simp] theorem settle_world : (settle m now start x).1 = x.1 := rfl

@[simp] theorem inFlight?_settle :
    (settle m now start x).2.inFlight? = if m.isDone x.2 then none else some x.2 := by
  obtain ⟨w, t⟩ := x
  cases h : m.isDone t <;> simp [settle, inFlight?, h]

end Voice

namespace Ensemble

/-- What can happen in an ensemble. -/
inductive Event (Action : Type) where
  /-- Someone joins who is to begin an action at a time. -/
  | join (time : Nat) (action : Action)
  /-- The voice at a place takes a turn at a time, or now if that has passed. -/
  | turn (place time : Nat)

/-- The ensemble after an event. The clock never goes back. -/
def step (m : Machine World Action Task) (e : Ensemble World Action Task) :
    Event Action → Ensemble World Action Task
  | .join time action => { e with voices := e.voices ++ [.pending time action] }
  | .turn place time =>
    let now := max e.now time
    match e.voices[place]? with
    | none => { e with now }
    | some v =>
      let (world, v) := v.turn m now e.world
      ⟨now, world, e.voices.set place v⟩

/-- The ensemble after some events. -/
def after (m : Machine World Action Task) (e : Ensemble World Action Task)
    (events : List (Event Action)) : Ensemble World Action Task :=
  events.foldl (step m) e

/-- An ensemble in which nobody takes part yet. -/
def alone (now : Nat) (w : World) : Ensemble World Action Task := ⟨now, w, []⟩

/-- What is under way. -/
def inFlight (e : Ensemble World Action Task) : List Task := e.voices.filterMap (·.inFlight?)

variable {m : Machine World Action Task} {e : Ensemble World Action Task}

/-! ### After any events -/

@[simp] theorem after_nil : e.after m [] = e := rfl

theorem after_append (as bs : List (Event Action)) :
    e.after m (as ++ bs) = (e.after m as).after m bs := List.foldl_append

/-- What holds at first and is kept by every event holds after all events. -/
theorem after_induction {P : Ensemble World Action Task → Prop} (h₀ : P e)
    (hstep : ∀ e event, P e → P (e.step m event)) (events : List (Event Action)) :
    P (e.after m events) := by
  induction events generalizing e with
  | nil => exact h₀
  | cons event events ih => exact ih (hstep e event h₀)

/-- A turn at a place that somebody has. -/
theorem step_turn_of_some {place time : Nat} {v : Voice World Action Task}
    (h : e.voices[place]? = some v) :
    e.step m (.turn place time) =
      ⟨max e.now time, (v.turn m (max e.now time) e.world).1,
        e.voices.set place (v.turn m (max e.now time) e.world).2⟩ := by
  simp only [step, h]

/-- What is taken from the voices, with a place picked out. -/
theorem filterMap_voices {β : Type} {voices : List (Voice World Action Task)} {place : Nat}
    {v : Voice World Action Task} (h : voices[place]? = some v)
    (f : Voice World Action Task → Option β) :
    ∃ before behind : List β,
      voices.filterMap f = before ++ (f v).toList ++ behind ∧
      ∀ v', (voices.set place v').filterMap f = before ++ (f v').toList ++ behind := by
  obtain ⟨hlt, hv⟩ := List.getElem?_eq_some_iff.1 h
  refine ⟨(voices.take place).filterMap f, (voices.drop (place + 1)).filterMap f, ?_, ?_⟩
  · have hsplit : voices = voices.take place ++ v :: voices.drop (place + 1) := by
      rw [← hv, ← List.drop_eq_getElem_cons hlt, List.take_append_drop]
    conv_lhs => rw [hsplit]
    rw [List.filterMap_append, List.filterMap_cons, List.append_assoc]
    cases f v <;> rfl
  · intro v'
    rw [List.set_eq_take_append_cons_drop, if_pos hlt, List.filterMap_append,
      List.filterMap_cons, List.append_assoc]
    cases f v' <;> rfl

/-- What is under way, with a place picked out. -/
theorem inFlight_eq_of_voices {place : Nat} {v : Voice World Action Task}
    (h : e.voices[place]? = some v) :
    ∃ before behind : List Task,
      e.inFlight = before ++ v.inFlight?.toList ++ behind ∧
      ∀ now w v', ({ now, world := w, voices := e.voices.set place v' } :
        Ensemble World Action Task).inFlight = before ++ v'.inFlight?.toList ++ behind :=
  have ⟨before, behind, hbefore, hafter⟩ := filterMap_voices h (·.inFlight?)
  ⟨before, behind, hbefore, fun _ _ => hafter⟩

/-! ### What an event does -/

/-- The action that an event begins. -/
def begun? (e : Ensemble World Action Task) : Event Action → Option Action
  | .join .. => none
  | .turn place time =>
    match e.voices[place]? with
    | some (.pending start action) => if start ≤ max e.now time then some action else none
    | _ => none

/-- The task that an event goes on with. -/
def resumed? (e : Ensemble World Action Task) : Event Action → Option Task
  | .join .. => none
  | .turn place _ =>
    match e.voices[place]? with
    | some (.running _ task) => some task
    | _ => none

/-- Whoever joins begins with a turn at the last place. -/
theorem begun?_join (e : Ensemble World Action Task) (events : List (Event Action))
    {action : Action} {start place time : Nat} (hplace : (e.after m events).voices.length = place)
    (h : start ≤ time) :
    (e.after m (events ++ [.join start action])).begun? (.turn place time) = some action := by
  rw [after_append]
  show ((e.after m events).step m (.join start action)).begun? (.turn place time) = some action
  unfold begun? step
  simp [← hplace, Nat.le_trans h (Nat.le_max_right _ _)]

/-- Whether somebody is under way, and how far, is seen by looking. -/
instance {P : Task → Prop} [DecidablePred P] (v? : Option (Voice World Action Task)) (start : Nat) :
    Decidable (∃ t, v? = some (.running start t) ∧ P t) :=
  match v? with
  | none => .isFalse (by simp)
  | some (.pending ..) => .isFalse (by simp)
  | some (.done ..) => .isFalse (by simp)
  | some (.running since t) =>
    decidable_of_iff (since = start ∧ P t)
      ⟨fun ⟨hs, ht⟩ => ⟨t, hs ▸ rfl, ht⟩, fun ⟨_, hv, hu⟩ => by cases hv; exact ⟨rfl, hu⟩⟩

/-- An event that begins an action does not go on with another one. -/
theorem resumed?_of_begun {e : Ensemble World Action Task} {event : Event Action} {action : Action}
    (h : e.begun? event = some action) : e.resumed? event = none := by
  cases event with
  | join time action => rfl
  | turn place time =>
    unfold begun? at h
    unfold resumed?
    dsimp only at h ⊢
    split at h
    · next hv => rw [hv]
    · cases h

/-- What is under way besides, once a task came this far. -/
def joined (m : Machine World Action Task) (t : Task) (ts : List Task) : List Task :=
  if m.isDone t then ts else t :: ts

/-- Whatever comes of the turn of a voice, it may stand at the head of what is under way. -/
theorem perm_joined (before behind : List Task) (t : Task) :
    (joined m t (before ++ behind)).Perm
      (before ++ (if m.isDone t then none else some t).toList ++ behind) := by
  unfold joined
  cases m.isDone t with
  | true => simp
  | false => simpa using List.perm_middle.symm

variable {event : Event Action}

/-- An action whose time has not come is not begun by a turn. -/
theorem turn_of_not_begun {place time start : Nat} {action : Action}
    (hv : e.voices[place]? = some (.pending start action))
    (hbegun : e.begun? (.turn place time) = none) :
    Voice.turn m (max e.now time) e.world (.pending start action) =
      (e.world, .pending start action) := by
  have hlater : ¬start ≤ max e.now time := by
    intro hdue
    simp only [begun?, hv, if_pos hdue] at hbegun
    cases hbegun
  exact if_neg hlater

/-- An event that begins nothing and goes on with nothing moves only the clock and the voices that
    are not under way. -/
theorem step_of_idle (hbegun : e.begun? event = none) (hresumed : e.resumed? event = none) :
    (e.step m event).world = e.world ∧ (e.step m event).inFlight = e.inFlight := by
  cases event with
  | join time action => exact ⟨rfl, by simp [step, inFlight, Voice.inFlight?]⟩
  | turn place time =>
    cases hv : e.voices[place]? with
    | none =>
      have hsame : e.step m (.turn place time) = { e with now := max e.now time } := by
        simp only [step, hv]
      rw [hsame]
      exact ⟨rfl, rfl⟩
    | some v =>
      obtain ⟨before, behind, hbefore, hafter⟩ := inFlight_eq_of_voices hv
      rw [step_turn_of_some hv, hafter, hbefore]
      cases v with
      | pending start action =>
        rw [turn_of_not_begun hv hbegun]
        exact ⟨rfl, rfl⟩
      | running start task =>
        simp only [resumed?, hv] at hresumed
        cases hresumed
      | done start stop task world => exact ⟨rfl, rfl⟩

/-- An event that begins an action. -/
theorem step_of_begun {action : Action} (h : e.begun? event = some action) :
    (e.step m event).world = (m.start (e.step m event).now e.world action).1 ∧
    (joined m (m.start (e.step m event).now e.world action).2 e.inFlight).Perm
      (e.step m event).inFlight := by
  -- Only the turn of somebody whose time has come begins an action.
  cases event with
  | join time action => cases h
  | turn place time =>
    unfold begun? at h
    dsimp only at h
    split at h
    · next start action' hv =>
      split at h
      · next hdue =>
        obtain rfl := Option.some.inj h
        obtain ⟨before, behind, hbefore, hafter⟩ := inFlight_eq_of_voices hv
        have hturn : Voice.turn m (max e.now time) e.world (.pending start action') =
          Voice.settle m (max e.now time) (max e.now time)
            (m.start (max e.now time) e.world action') := if_pos hdue
        rw [step_turn_of_some hv, hafter, hbefore, hturn, Voice.inFlight?_settle]
        refine ⟨rfl, ?_⟩
        simpa [Voice.inFlight?] using perm_joined (m := m) before behind _
      · cases h
    · cases h

/-- An event goes on with a task in the turn of a voice that is at it. -/
theorem running_of_resumed {t : Task} (h : e.resumed? event = some t) :
    ∃ place time start, event = .turn place time ∧ e.voices[place]? = some (.running start t) := by
  cases event with
  | join time action => cases h
  | turn place time =>
    unfold resumed? at h
    dsimp only at h
    split at h
    · next start task hv => exact ⟨place, time, start, rfl, Option.some.inj h ▸ hv⟩
    · cases h

/-- An event that goes on with a task. -/
theorem step_of_resumed {t : Task} (h : e.resumed? event = some t) :
    (e.step m event).world = (m.resume (e.step m event).now e.world t).1 ∧
    ∃ ts, e.inFlight.Perm (t :: ts) ∧
      (joined m (m.resume (e.step m event).now e.world t).2 ts).Perm
        (e.step m event).inFlight := by
  obtain ⟨place, time, start, rfl, hv⟩ := running_of_resumed h
  obtain ⟨before, behind, hbefore, hafter⟩ := inFlight_eq_of_voices hv
  have hturn : Voice.turn m (max e.now time) e.world (.running start t) =
    Voice.settle m (max e.now time) start (m.resume (max e.now time) e.world t) := rfl
  rw [step_turn_of_some hv, hafter, hbefore, hturn, Voice.inFlight?_settle]
  refine ⟨rfl, before ++ behind, ?_, perm_joined before behind _⟩
  simp [Voice.inFlight?]

/-! ### Rounds are events -/

/-- The turns of a round, from some place on. -/
theorem turns_eq_after (now : Nat) (w : World) (before voices : List (Voice World Action Task)) :
    ∃ events : List (Event Action),
      (⟨now, w, before ++ voices⟩ : Ensemble World Action Task).after m events =
        ⟨now, (turns m now w voices).1, before ++ (turns m now w voices).2⟩ := by
  induction voices generalizing w before with
  | nil => exact ⟨[], rfl⟩
  | cons v rest ih =>
    obtain ⟨events, hevents⟩ := ih (v.turn m now w).1 (before ++ [(v.turn m now w).2])
    refine ⟨.turn before.length now :: events, ?_⟩
    have hv : (before ++ v :: rest)[before.length]? = some v := by simp
    change (step m _ (.turn before.length now)).after m events = _
    rw [step_turn_of_some hv]
    simp only [Nat.max_self, List.set_append_right _ _ (Nat.le_refl _), Nat.sub_self,
      List.set_cons_zero]
    rw [← List.append_cons] at hevents
    rw [hevents]
    simp [turns]

theorem exists_events_round {now : Nat} (h : e.now ≤ now) :
    ∃ events, e.round m now = e.after m events := by
  obtain ⟨events, hevents⟩ := turns_eq_after (m := m) now e.world [] e.voices
  -- A turn at a place that nobody has moves nothing but the clock.
  refine ⟨.turn e.voices.length now :: events, ?_⟩
  have hclock : e.step m (.turn e.voices.length now) = { e with now } := by
    simp [step, Nat.max_eq_right h]
  change _ = (e.step m _).after m events
  rw [hclock]
  exact hevents.symm

/-- Whatever comes of rounds comes of events. -/
theorem exists_events_run (rounds : Nat) : ∃ events, e.run m rounds = e.after m events := by
  induction rounds generalizing e with
  | zero => exact ⟨[], rfl⟩
  | succ rounds ih =>
    have hnext : ∀ e', e.next? m = some e' → ∃ events, e' = e.after m events := by
      intro e' h
      unfold next? at h
      split at h
      · rw [← Option.some.inj h]
        exact exists_events_round (Nat.le_refl _)
      · obtain ⟨t, _, rfl⟩ := Option.map_eq_some_iff.1 h
        exact exists_events_round (Nat.le_max_left _ _)
    unfold run
    cases h : e.next? m with
    | none => exact ⟨[], rfl⟩
    | some e' =>
      obtain ⟨first, rfl⟩ := hnext e' h
      obtain ⟨events, hevents⟩ := ih (e := e.after m first)
      exact ⟨first ++ events, by rw [after_append, ← hevents]⟩

end Ensemble

end Storyboard
