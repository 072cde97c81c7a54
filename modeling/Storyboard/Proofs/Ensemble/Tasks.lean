import Mathlib.Data.List.Induction
import Storyboard.Proofs.Ensemble.Event

/-! # Everything that was begun

    Like what is under way, with what is done: nobody who has begun is ever
    forgotten. What every action keeps when it begins and whenever it goes on
    is kept by every event (`tasks_induction`), and so is what is said of what is
    under way, with the actions that were begun and their order
    (`history_induction`) or without (`inFlight_induction`). -/

namespace Storyboard

variable {World Action Task : Type} {m : Machine World Action Task}

@[simp] theorem Voice.task?_settle {now start : Nat} {x : World × Task} :
    (Voice.settle m now start x).2.task? = some x.2 := by
  obtain ⟨w, t⟩ := x
  cases h : m.isDone t <;> simp [Voice.settle, Voice.task?, h]

namespace Ensemble

variable {e : Ensemble World Action Task} {event : Event Action}

/-- What was begun, with a place picked out. -/
theorem tasks_eq_of_voices {place : Nat} {v : Voice World Action Task}
    (h : e.voices[place]? = some v) :
    ∃ before behind : List Task,
      e.tasks = before ++ v.task?.toList ++ behind ∧
      ∀ now w v', ({ now, world := w, voices := e.voices.set place v' } :
        Ensemble World Action Task).tasks = before ++ v'.task?.toList ++ behind :=
  have ⟨before, behind, hbefore, hafter⟩ := filterMap_voices h (·.task?)
  ⟨before, behind, hbefore, fun _ _ => hafter⟩

/-- An event that begins nothing and goes on with nothing. -/
theorem tasks_step_of_idle (hbegun : e.begun? event = none) (hresumed : e.resumed? event = none) :
    (e.step m event).tasks = e.tasks := by
  cases event with
  | join time action => simp [step, tasks, Voice.task?]
  | turn place time =>
    cases hv : e.voices[place]? with
    | none =>
      have hsame : e.step m (.turn place time) = { e with now := max e.now time } := by
        simp only [step, hv]
      rw [hsame]
      rfl
    | some v =>
      obtain ⟨before, behind, hbefore, hafter⟩ := tasks_eq_of_voices hv
      rw [step_turn_of_some hv, hafter, hbefore]
      cases v with
      | pending start action =>
        rw [turn_of_not_begun hv hbegun]
      | running start task =>
        simp only [resumed?, hv] at hresumed
        cases hresumed
      | done start stop task world => rfl

/-- An event that begins an action. -/
theorem tasks_step_of_begun {action : Action} (h : e.begun? event = some action) :
    ((m.start (e.step m event).now e.world action).2 :: e.tasks).Perm (e.step m event).tasks := by
  cases event with
  | join time action => cases h
  | turn place time =>
    unfold begun? at h
    dsimp only at h
    split at h
    · next start action' hv =>
      split at h
      · next hdue =>
        obtain rfl := Option.some.inj h
        obtain ⟨before, behind, hbefore, hafter⟩ := tasks_eq_of_voices hv
        have hturn : Voice.turn m (max e.now time) e.world (.pending start action') =
          Voice.settle m (max e.now time) (max e.now time)
            (m.start (max e.now time) e.world action') := if_pos hdue
        rw [step_turn_of_some hv, hafter, hbefore, hturn, Voice.task?_settle]
        simpa [Voice.task?] using List.perm_middle.symm
      · cases h
    · cases h

/-- An event that goes on with a task. -/
theorem tasks_step_of_resumed {t : Task} (h : e.resumed? event = some t) :
    ∃ ts, e.tasks.Perm (t :: ts) ∧
      ((m.resume (e.step m event).now e.world t).2 :: ts).Perm (e.step m event).tasks := by
  obtain ⟨place, time, start, rfl, hv⟩ := running_of_resumed h
  obtain ⟨before, behind, hbefore, hafter⟩ := tasks_eq_of_voices hv
  have hturn : Voice.turn m (max e.now time) e.world (.running start t) =
    Voice.settle m (max e.now time) start (m.resume (max e.now time) e.world t) := rfl
  rw [step_turn_of_some hv, hafter, hbefore, hturn, Voice.task?_settle]
  refine ⟨before ++ behind, ?_, ?_⟩
  · simp [Voice.task?]
  · simpa using List.perm_middle.symm

/-- What every action keeps when it begins and when it goes on, in terms of the world and of
    everything that was begun. The order must not matter. -/
theorem tasks_induction {I : World → List Task → Prop} {now : Nat} {w : World} (h₀ : I w [])
    (hperm : ∀ {w ts ts'}, ts.Perm ts' → I w ts → I w ts')
    (hstart : ∀ now w ts action, I w ts →
      I (m.start now w action).1 ((m.start now w action).2 :: ts))
    (hresume : ∀ now w t ts, I w (t :: ts) →
      I (m.resume now w t).1 ((m.resume now w t).2 :: ts))
    (events : List (Event Action)) :
    I ((alone now w).after m events).world ((alone now w).after m events).tasks := by
  apply after_induction (P := fun e => I e.world e.tasks) h₀
  intro e event hI
  cases hbegun : e.begun? event with
  | some action =>
    rw [(step_of_begun (m := m) hbegun).1]
    exact hperm (tasks_step_of_begun hbegun) (hstart _ _ _ _ hI)
  | none =>
    cases hresumed : e.resumed? event with
    | some t =>
      obtain ⟨ts, hbefore, hafter⟩ := tasks_step_of_resumed (m := m) hresumed
      rw [(step_of_resumed (m := m) hresumed).1]
      exact hperm hafter (hresume _ _ _ _ (hperm hbefore hI))
    | none =>
      rw [(step_of_idle (m := m) hbegun hresumed).1, tasks_step_of_idle hbegun hresumed]
      exact hI

/-! ### The order of beginnings -/

/-- The actions that some events begin, one after another. -/
def beginnings (m : Machine World Action Task) (e : Ensemble World Action Task) :
    List (Event Action) → List Action
  | [] => []
  | event :: events => (e.begun? event).toList ++ (e.step m event).beginnings m events

theorem beginnings_append (as bs : List (Event Action)) :
    e.beginnings m (as ++ bs) = e.beginnings m as ++ (e.after m as).beginnings m bs := by
  induction as generalizing e with
  | nil => rfl
  | cons event as ih =>
    show _ ++ (e.step m event).beginnings m (as ++ bs) = _
    rw [ih, ← List.append_assoc]
    rfl

/-- Whoever joins begins with a turn at the last place. -/
theorem beginnings_join (e : Ensemble World Action Task) (events : List (Event Action))
    {action : Action} {start place time : Nat} (hplace : (e.after m events).voices.length = place)
    (h : start ≤ time) :
    e.beginnings m (events ++ [.join start action, .turn place time]) =
      e.beginnings m events ++ [action] := by
  have hbegun : (e.after m (events ++ [.join start action])).begun? (.turn place time) =
      some action := begun?_join e events hplace h
  rw [after_append] at hbegun
  have hturn : (((e.after m events).step m (.join start action)).begun? (.turn place time)).toList =
      [action] := congrArg Option.toList hbegun
  rw [beginnings_append]
  exact congrArg (fun l => e.beginnings m events ++ ([] ++ (l ++ []))) hturn

/-- What every event keeps, in terms of the actions that were begun so far, the world and what is
    under way. -/
theorem history_induction {I : List Action → World → List Task → Prop} {now : Nat} {w : World}
    (h₀ : I [] w []) (hperm : ∀ {as w ts ts'}, ts.Perm ts' → I as w ts → I as w ts')
    (hstart : ∀ now w ts as a, I as w ts →
      I (as ++ [a]) (m.start now w a).1 (joined m (m.start now w a).2 ts))
    (hresume : ∀ now w t ts as, I as w (t :: ts) →
      I as (m.resume now w t).1 (joined m (m.resume now w t).2 ts))
    (events : List (Event Action)) :
    I ((alone now w).beginnings m events) ((alone now w).after m events).world
      ((alone now w).after m events).inFlight := by
  induction events using List.reverseRecOn with
  | nil => exact h₀
  | append_singleton events event ih =>
    have hbegins : (alone now w).beginnings m (events ++ [event]) =
        (alone now w).beginnings m events ++
          (((alone now w).after m events).begun? event).toList := by
      rw [beginnings_append]
      exact congrArg (_ ++ ·) (List.append_nil _)
    rw [hbegins, after_append]
    show I _ (((alone now w).after m events).step m event).world
      (((alone now w).after m events).step m event).inFlight
    generalize (alone now w).after m events = e at ih ⊢
    -- An event begins an action, resumes a task or is idle; each joins what is under way once.
    cases hbegun : e.begun? event with
    | some action =>
      obtain ⟨hworld, hts⟩ := step_of_begun (m := m) hbegun
      rw [hworld]
      exact hperm hts (hstart _ _ _ _ _ ih)
    | none =>
      simp only [Option.toList_none, List.append_nil]
      cases hresumed : e.resumed? event with
      | some t =>
        obtain ⟨hworld, ts, hbefore, hafter⟩ := step_of_resumed (m := m) hresumed
        rw [hworld]
        exact hperm hafter (hresume _ _ _ _ _ (hperm hbefore ih))
      | none =>
        obtain ⟨hworld, hts⟩ := step_of_idle (m := m) hbegun hresumed
        rw [hworld, hts]
        exact ih

/-- What every event keeps, in terms of the world and of what is under way: it has to be kept when
    an action begins and when it goes on. The order of what is under way must not matter. -/
theorem inFlight_induction {I : World → List Task → Prop} {now : Nat} {w : World} (h₀ : I w [])
    (hperm : ∀ {w ts ts'}, ts.Perm ts' → I w ts → I w ts')
    (hstart : ∀ now w ts action, I w ts →
      I (m.start now w action).1 (joined m (m.start now w action).2 ts))
    (hresume : ∀ now w t ts, I w (t :: ts) →
      I (m.resume now w t).1 (joined m (m.resume now w t).2 ts))
    (events : List (Event Action)) :
    I ((alone now w).after m events).world ((alone now w).after m events).inFlight :=
  history_induction (I := fun _ w ts => I w ts) h₀ hperm
    (fun now w ts _ action h => hstart now w ts action h)
    (fun now w t ts _ h => hresume now w t ts h) events

/-- Nothing that is done is under way. -/
theorem isDone_of_mem_inFlight {now : Nat} {w : World} {events : List (Event Action)} {t : Task}
    (ht : t ∈ ((alone now w).after m events).inFlight) : m.isDone t = false := by
  have hjoined : ∀ {t : Task} {ts : List Task}, (∀ u ∈ ts, m.isDone u = false) →
      ∀ u ∈ joined m t ts, m.isDone u = false := by
    intro t ts hts
    unfold joined
    split
    · exact hts
    · next hopen => exact List.forall_mem_cons.2 ⟨Bool.eq_false_iff.2 hopen, hts⟩
  refine inFlight_induction (m := m) (I := fun _ ts => ∀ u ∈ ts, m.isDone u = false)
    (List.forall_mem_nil _) ?_ ?_ ?_ events t ht
  · exact fun hperm h u hu => h u (hperm.mem_iff.2 hu)
  · exact fun now w ts action h => hjoined h
  · exact fun now w t ts h => hjoined (List.forall_mem_cons.1 h).2

end Ensemble

end Storyboard
