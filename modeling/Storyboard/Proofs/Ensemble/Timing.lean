import Storyboard.Proofs.Ensemble.Event

/-! # Voices and the clock

    What becomes of the voice at a place with an event: nothing, unless it is
    the one that joins or takes its turn (`Turned`). Events are prompt if the
    clock does not move while somebody can go on. Rounds are
    (`exists_prompt_run`), so whatever can go on does so before time passes. -/

namespace Storyboard.Ensemble

variable {World Action Task : Type} {m : Machine World Action Task}
  {e : Ensemble World Action Task} {event : Event Action} {events more : List (Event Action)}
  {v v' : Voice World Action Task} {i : Nat}

/-! ### One voice -/

/-- What becomes of the voice at a place with an event. -/
inductive Turned (m : Machine World Action Task) (e : Ensemble World Action Task)
    (event : Event Action) (i : Nat) : Voice World Action Task → Prop
  /-- It has nothing to do with the event. -/
  | same {v : Voice World Action Task} (hv : e.voices[i]? = some v) : Turned m e event i v
  /-- It joins. -/
  | joined {time : Nat} {action : Action} (hevent : event = .join time action)
      (hnone : e.voices[i]? = none) : Turned m e event i (.pending time action)
  /-- It begins. -/
  | begun {time start : Nat} {action : Action} (hevent : event = .turn i time)
      (hv : e.voices[i]? = some (.pending start action))
      (hbegun : e.begun? event = some action) :
      Turned m e event i (Voice.settle m (e.step m event).now (e.step m event).now
        (m.start (e.step m event).now e.world action)).2
  /-- It goes on. -/
  | resumed {time start : Nat} {t : Task} (hevent : event = .turn i time)
      (hv : e.voices[i]? = some (.running start t))
      (hresumed : e.resumed? event = some t) :
      Turned m e event i (Voice.settle m (e.step m event).now start
        (m.resume (e.step m event).now e.world t)).2

/-- What becomes of the voice that takes its turn. -/
theorem turned_turn {time : Nat} (hv : e.voices[i]? = some v) :
    Turned m e (.turn i time) i (v.turn m (max e.now time) e.world).2 := by
  have hnow : (e.step m (.turn i time)).now = max e.now time := by
    rw [step_turn_of_some hv]
  cases v with
  | pending start action =>
    -- An action begins with the first turn of its voice that is not before its time.
    by_cases hdue : start ≤ max e.now time
    · have hbegun : e.begun? (.turn i time) = some action := by
        simp only [begun?, hv, if_pos hdue]
      have hturn := Turned.begun (m := m) rfl hv hbegun
      rw [hnow] at hturn
      rw [show Voice.turn m (max e.now time) e.world (.pending start action) =
        Voice.settle m (max e.now time) (max e.now time)
          (m.start (max e.now time) e.world action) from if_pos hdue]
      exact hturn
    · rw [show Voice.turn m (max e.now time) e.world (.pending start action) =
        (e.world, .pending start action) from if_neg hdue]
      exact .same hv
  | running start t =>
    have hresumed : e.resumed? (.turn i time) = some t := by
      simp only [resumed?, hv]
    have hturn := Turned.resumed (m := m) rfl hv hresumed
    rw [hnow] at hturn
    exact hturn
  | done start stop t w => exact .same hv

theorem turned_step (h : (e.step m event).voices[i]? = some v) : Turned m e event i v := by
  cases event with
  | join time action =>
    have hvoices : (e.voices ++ [.pending time action])[i]? = some v := h
    -- Who joins is the last one, and nobody else's voice changes.
    rcases Nat.lt_or_ge i e.voices.length with hlt | hge
    · rw [List.getElem?_append_left hlt] at hvoices
      exact .same hvoices
    · rw [List.getElem?_append_right hge] at hvoices
      have hv := List.mem_of_getElem? hvoices
      rw [List.mem_singleton] at hv
      rw [hv]
      exact .joined rfl (List.getElem?_eq_none hge)
  | turn place time =>
    cases hplace : e.voices[place]? with
    | none =>
      have hsame : (e.step m (.turn place time)).voices = e.voices := by simp only [step, hplace]
      rw [hsame] at h
      exact .same h
    | some u =>
      rw [step_turn_of_some hplace] at h
      by_cases hi : place = i
      · subst hi
        have hlt : place < e.voices.length := (List.getElem?_eq_some_iff.1 hplace).1
        have hv : (u.turn m (max e.now time) e.world).2 = v := by
          simpa [List.getElem?_set, hlt] using h
        exact hv ▸ turned_turn hplace
      · rw [List.getElem?_set_ne hi] at h
        exact .same h

/-- The voice that begins with an event. -/
theorem voice_step_of_begun {time : Nat} {action : Action}
    (h : e.begun? (.turn i time) = some action) :
    let now := (e.step m (.turn i time)).now
    (e.step m (.turn i time)).voices[i]? =
      some (Voice.settle m now now (m.start now e.world action)).2 := by
  unfold begun? at h
  dsimp only at h ⊢
  split at h
  · next start action' hv =>
    split at h
    · next hdue =>
      obtain rfl := Option.some.inj h
      have hlt : i < e.voices.length := (List.getElem?_eq_some_iff.1 hv).1
      have hturn : Voice.turn m (max e.now time) e.world (.pending start action') =
        Voice.settle m (max e.now time) (max e.now time)
          (m.start (max e.now time) e.world action') := if_pos hdue
      rw [step_turn_of_some hv, hturn]
      exact List.getElem?_set_self hlt
    · cases h
  · cases h

/-- Nobody leaves. -/
theorem exists_voice_step (h : e.voices[i]? = some v) (event : Event Action) :
    ∃ v', (e.step m event).voices[i]? = some v' := by
  have hlt : i < e.voices.length := (List.getElem?_eq_some_iff.1 h).1
  have hle : e.voices.length ≤ (e.step m event).voices.length := by
    cases event with
    | join time action => simp [step]
    | turn place time =>
      unfold step
      dsimp only
      split
      · exact Nat.le_refl _
      · exact Nat.le_of_eq (List.length_set).symm
  exact ⟨_, List.getElem?_eq_getElem (Nat.lt_of_lt_of_le hlt hle)⟩

/-- A voice stays as it is in the turn of another one. -/
theorem voice_step_of_other (hv : e.voices[i]? = some v) (hother : ∀ time, event ≠ .turn i time) :
    (e.step m event).voices[i]? = some v := by
  obtain ⟨v', hv'⟩ := exists_voice_step (m := m) hv event
  rw [hv']
  cases turned_step hv' with
  | same hsame => exact hsame.symm.trans hv
  | joined hevent hnone =>
    rw [hnone] at hv
    cases hv
  | begun hevent hpending hbegun => exact absurd hevent (hother _)
  | resumed hevent hrunning hresumed => exact absurd hevent (hother _)

/-- A voice that is under way goes on in its own turn. -/
theorem step_turn_of_running {start : Nat} {t : Task} (h : e.voices[i]? = some (.running start t))
    (time : Nat) :
    let now := (e.step m (.turn i time)).now
    (e.step m (.turn i time)).world = (m.resume now e.world t).1 ∧
      (e.step m (.turn i time)).voices[i]? =
        some (Voice.settle m now start (m.resume now e.world t)).2 := by
  have hlt : i < e.voices.length := (List.getElem?_eq_some_iff.1 h).1
  rw [step_turn_of_some h]
  exact ⟨rfl, List.getElem?_set_self hlt⟩

/-- What is under way, with two that are apart picked out. -/
theorem exists_inFlight_perm {j start start' : Nat} {t t' : Task}
    (ht : e.voices[i]? = some (.running start t)) (ht' : e.voices[j]? = some (.running start' t'))
    (hne : j ≠ i) : ∃ ts, e.inFlight.Perm (t' :: ts) ∧ t ∈ ts := by
  obtain ⟨before, behind, hbefore, hafter⟩ := inFlight_eq_of_voices ht'
  refine ⟨before ++ behind, ?_, ?_⟩
  · rw [hbefore, List.append_assoc]
    exact List.perm_middle
  · -- Without the one the other is still there.
    have hmem : t ∈ inFlight ⟨e.now, e.world, e.voices.set j (.done 0 0 t' e.world)⟩ :=
      List.mem_filterMap.2 ⟨_, List.mem_of_getElem? ((List.getElem?_set_ne hne).trans ht), rfl⟩
    rw [hafter] at hmem
    simpa [Voice.inFlight?] using hmem

/-- A voice that is under way goes on with the event or has nothing to do with it. -/
theorem voice_step_of_running {start : Nat} {t : Task}
    (h : e.voices[i]? = some (.running start t)) (event : Event Action) :
    (e.step m event).voices[i]? = some (.running start t) ∨
    e.resumed? event = some t ∧ (e.step m event).voices[i]? = some
      (Voice.settle m (e.step m event).now start (m.resume (e.step m event).now e.world t)).2 := by
  obtain ⟨v, hv⟩ := exists_voice_step (m := m) h event
  cases turned_step hv with
  | same hsame => exact .inl (hv.trans (hsame.symm.trans h))
  | joined hevent hnone =>
    rw [hnone] at h
    cases h
  | begun hevent hpending hbegun =>
    rw [hpending] at h
    cases h
  | resumed hevent hrunning hresumed =>
    cases h.symm.trans hrunning
    exact .inr ⟨hresumed, hv⟩

/-- A voice that is done stays as it was then. -/
theorem step_of_done {start stop : Nat} {t : Task} {w : World}
    (h : e.voices[i]? = some (.done start stop t w)) (event : Event Action) :
    (e.step m event).voices[i]? = some (.done start stop t w) := by
  obtain ⟨v, hv⟩ := exists_voice_step (m := m) h event
  rw [hv]
  cases turned_step hv with
  | same hsame => exact hsame.symm.trans h
  | joined hevent hnone =>
    rw [hnone] at h
    cases h
  | begun hevent hpending hbegun =>
    rw [hpending] at h
    cases h
  | resumed hevent hrunning hresumed =>
    rw [hrunning] at h
    cases h

/-- Whoever is under way when an action was done at once was so before. -/
theorem running_of_begun {start : Nat} {t : Task} {action : Action}
    (hbegun : e.begun? event = some action)
    (hdone : m.isDone (m.start (e.step m event).now e.world action).2 = true)
    (hv : (e.step m event).voices[i]? = some (.running start t)) :
    e.voices[i]? = some (.running start t) := by
  generalize hrunning : (.running start t : Voice World Action Task) = v at hv ⊢
  cases turned_step hv with
  | same hsame => exact hsame
  | joined hevent hnone => cases hrunning
  | begun hevent hpending hbegun' =>
    obtain rfl := Option.some.inj (hbegun'.symm.trans hbegun)
    unfold Voice.settle at hrunning
    dsimp only at hrunning
    rw [if_pos hdone] at hrunning
    cases hrunning
  | resumed hevent hsame hresumed =>
    rw [resumed?_of_begun hbegun] at hresumed
    cases hresumed

/-- The clock never goes back. -/
theorem now_le_step (e : Ensemble World Action Task) (event : Event Action) :
    e.now ≤ (e.step m event).now := by
  cases event with
  | join time action => exact Nat.le_refl _
  | turn place time =>
    unfold step
    dsimp only
    split
    · exact Nat.le_max_left _ _
    · exact Nat.le_max_left _ _

/-! ### Rounds -/

/-- In a round everybody takes a turn, in a world as those before leave it. -/
theorem exists_turn_of_turns {P : World → Prop} {now : Nat} {w : World}
    {voices : List (Voice World Action Task)}
    (hP : ∀ (w : World) (v : Voice World Action Task), P w → P (v.turn m now w).1) (hw : P w)
    (hv : voices[i]? = some v) :
    ∃ w', P w' ∧ (turns m now w voices).2[i]? = some (v.turn m now w').2 := by
  induction voices generalizing w i with
  | nil => cases hv
  | cons u rest ih =>
    cases i with
    | zero =>
      obtain rfl := Option.some.inj hv
      exact ⟨w, hw, rfl⟩
    | succ i =>
      obtain ⟨w', hw', hturn⟩ := ih (hP w u hw) hv
      exact ⟨w', hw', hturn⟩

/-! ### Where everyone has begun -/

/-- Nobody is still to begin. -/
def AllBegun (e : Ensemble World Action Task) : Prop :=
  ∀ v ∈ e.voices, ∀ time action, v ≠ .pending time action

/-- Turns begin nothing then. -/
theorem AllBegun.begun?_eq_none (h : e.AllBegun) (event : Event Action) :
    e.begun? event = none := by
  cases event with
  | join time action => rfl
  | turn place time =>
    unfold begun?
    dsimp only
    split
    · next start action hv => exact absurd rfl (h _ (List.mem_of_getElem? hv) start action)
    · rfl

theorem AllBegun.step (h : e.AllBegun) (place time : Nat) :
    (e.step m (.turn place time)).AllBegun := by
  intro v hv start action hpending
  obtain ⟨i, hi⟩ := List.mem_iff_getElem?.1 hv
  rw [hpending] at hi
  generalize hu : (Voice.pending start action : Voice World Action Task) = u at hi
  cases turned_step hi with
  | same hsame => exact h u (List.mem_of_getElem? hsame) start action hu.symm
  | joined hevent hnone => cases hevent
  | begun hevent hv hbegun =>
    rw [h.begun?_eq_none] at hbegun
    cases hbegun
  | @resumed _ start' t hevent hv hresumed =>
    unfold Voice.settle at hu
    dsimp only at hu
    split at hu <;> cases hu

/-! ### Prompt events -/

/-- The clock does not move while somebody can go on. -/
def Prompt (m : Machine World Action Task) (e : Ensemble World Action Task) :
    List (Event Action) → Prop
  | [] => True
  | event :: events => ((e.step m event).now = e.now ∨ e.isAwake m = false) ∧
      Prompt m (e.step m event) events

theorem prompt_append :
    Prompt m e (events ++ more) ↔ Prompt m e events ∧ Prompt m (e.after m events) more := by
  induction events generalizing e with
  | nil => exact (and_iff_right trivial).symm
  | cons event events ih =>
    show _ ∧ Prompt m (e.step m event) (events ++ more) ↔ (_ ∧ _) ∧ _
    rw [ih, and_assoc]
    exact Iff.rfl

/-- The turns of a round take no time. -/
theorem exists_prompt_turns (now : Nat) (w : World)
    (before voices : List (Voice World Action Task)) : ∃ events : List (Event Action),
      (⟨now, w, before ++ voices⟩ : Ensemble World Action Task).after m events =
        ⟨now, (turns m now w voices).1, before ++ (turns m now w voices).2⟩ ∧
      Prompt m ⟨now, w, before ++ voices⟩ events ∧
      ∀ event ∈ events, ∃ place time, event = .turn place time := by
  -- By induction on the voices that are still to take their turn.
  induction voices generalizing w before with
  | nil => exact ⟨[], rfl, trivial, List.forall_mem_nil _⟩
  | cons v rest ih =>
    obtain ⟨events, hevents, hprompt, hturns⟩ :=
      ih (v.turn m now w).1 (before ++ [(v.turn m now w).2])
    have hv : (before ++ v :: rest)[before.length]? = some v := by simp
    have hstep : (⟨now, w, before ++ v :: rest⟩ : Ensemble World Action Task).step m
        (.turn before.length now) =
          ⟨now, (v.turn m now w).1, before ++ (v.turn m now w).2 :: rest⟩ := by
      rw [step_turn_of_some hv]
      simp [List.set_append_right]
    rw [← List.append_cons] at hevents hprompt
    refine ⟨.turn before.length now :: events, ?_, ⟨?_, ?_⟩,
      List.forall_mem_cons.2 ⟨⟨_, _, rfl⟩, hturns⟩⟩
    · show (step m _ (.turn before.length now)).after m events = _
      rw [hstep, hevents]
      simp [turns]
    · rw [hstep]
      exact .inl rfl
    · rw [hstep]
      exact hprompt

/-- Whatever comes of a round comes of prompt turns, if time does not pass in vain. -/
theorem exists_prompt_round {now : Nat} (hnow : e.now ≤ now)
    (hawake : now = e.now ∨ e.isAwake m = false) :
    ∃ events, e.round m now = e.after m events ∧ Prompt m e events ∧
      ∀ event ∈ events, ∃ place time, event = .turn place time := by
  obtain ⟨events, hevents, hprompt, hturns⟩ :=
    exists_prompt_turns (m := m) now e.world [] e.voices
  -- First the clock moves, with a turn at a place that nobody has.
  have hclock : e.step m (.turn e.voices.length now) = { e with now } := by
    simp [step, Nat.max_eq_right hnow]
  refine ⟨.turn e.voices.length now :: events, ?_, ⟨?_, ?_⟩,
    List.forall_mem_cons.2 ⟨⟨_, _, rfl⟩, hturns⟩⟩
  · show _ = (e.step m _).after m events
    rw [hclock]
    exact hevents.symm
  · rw [hclock]
    exact hawake
  · rw [hclock]
    exact hprompt

theorem exists_prompt_next {e' : Ensemble World Action Task} (h : e.next? m = some e') :
    ∃ events, e' = e.after m events ∧ Prompt m e events ∧
      ∀ event ∈ events, ∃ place time, event = .turn place time := by
  unfold next? at h
  split at h
  · rw [← Option.some.inj h]
    exact exists_prompt_round (Nat.le_refl _) (.inl rfl)
  · next hasleep =>
    obtain ⟨t, _, rfl⟩ := Option.map_eq_some_iff.1 h
    exact exists_prompt_round (Nat.le_max_left _ _) (.inr (Bool.eq_false_iff.2 hasleep))

/-- Whatever comes of rounds comes of prompt turns. -/
theorem exists_prompt_run (rounds : Nat) :
    ∃ events, e.run m rounds = e.after m events ∧ Prompt m e events ∧
      ∀ event ∈ events, ∃ place time, event = .turn place time := by
  induction rounds generalizing e with
  | zero => exact ⟨[], rfl, trivial, List.forall_mem_nil _⟩
  | succ rounds ih =>
    unfold run
    cases h : e.next? m with
    | none => exact ⟨[], rfl, trivial, List.forall_mem_nil _⟩
    | some e' =>
      obtain ⟨first, rfl, hfirst, hturns⟩ := exists_prompt_next h
      obtain ⟨events, hevents, hprompt, hturns'⟩ := ih (e := e.after m first)
      exact ⟨first ++ events, by rw [after_append, ← hevents], prompt_append.2 ⟨hfirst, hprompt⟩,
        List.forall_mem_append.2 ⟨hturns, hturns'⟩⟩

end Storyboard.Ensemble
