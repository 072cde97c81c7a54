import Storyboard.Proofs.Ensemble.Event

/-! # One voice alone

    A voice that nobody shares the world with is done after finitely many
    rounds, if something becomes less in every round in which it can go on,
    and if it always can, now or at the time that it names (`run_solo`). What
    every step keeps, holds in the end. -/

namespace Storyboard.Ensemble

variable {World Action Task : Type} {m : Machine World Action Task} {now start stop time : Nat}
  {w : World} {t : Task} {action : Action}

/-! ### Rounds of one voice -/

theorem settle_of_done {x : World × Task} (h : m.isDone x.2 = true) :
    (Voice.settle m now start x).2 = .done start now x.2 x.1 := by
  simp [Voice.settle, h]

theorem settle_of_not_done {x : World × Task} (h : m.isDone x.2 = false) :
    (Voice.settle m now start x).2 = .running start x.2 := by
  simp [Voice.settle, h]

/-- Where one voice is done, there are no more rounds. -/
theorem run_done (rounds : Nat) :
    (⟨now, w, [.done start stop t w]⟩ : Ensemble World Action Task).run m rounds =
      ⟨now, w, [.done start stop t w]⟩ := by
  cases rounds <;> rfl

theorem next?_pending :
    (ofActions now w [(now, action)] : Ensemble World Action Task).next? m =
      some ⟨now, (m.start now w action).1,
        [(Voice.settle m now now (m.start now w action)).2]⟩ := by
  simp [next?, ofActions, isAwake, Voice.isReady, round, turns, Voice.turn]

/-- A task that is under way goes on now if it can, and else at the time that it names, if there is
    one. -/
theorem next?_running_eq :
    (⟨now, w, [.running start t]⟩ : Ensemble World Action Task).next? m =
      (if m.isReady now w t then some now else (m.due? t).map (max now)).map fun time =>
        ⟨time, (m.resume time w t).1, [(Voice.settle m time start (m.resume time w t)).2]⟩ := by
  unfold next?
  simp only [isAwake, List.any_cons, List.any_nil, Bool.or_false, Voice.isReady]
  split
  · rfl
  · have hdue : (⟨now, w, [.running start t]⟩ : Ensemble World Action Task).due? m = m.due? t := by
      simp [due?, Voice.due?, earlier?]
    rw [hdue, Option.map_map]
    rfl

theorem next?_running (h : m.isReady now w t = true ∧ time = now ∨
    m.isReady now w t = false ∧ ∃ due, m.due? t = some due ∧ time = max now due) :
    (⟨now, w, [.running start t]⟩ : Ensemble World Action Task).next? m =
      some ⟨time, (m.resume time w t).1,
        [(Voice.settle m time start (m.resume time w t)).2]⟩ := by
  rw [next?_running_eq]
  rcases h with ⟨hready, rfl⟩ | ⟨hready, due, hdue, rfl⟩
  · rw [hready, if_pos rfl, Option.map_some]
  · rw [hready, if_neg Bool.false_ne_true, hdue, Option.map_some, Option.map_some]

/-! ### To the end -/

/-- What a voice alone in its world needs in order to come to its end. -/
structure Advances (m : Machine World Action Task) (I : World → Task → Prop)
    (left : World → Task → Nat) : Prop where
  /-- Going on keeps the invariant, and something becomes less when there is a reason to. -/
  step : ∀ now w t, I w t → m.isDone t = false →
    I (m.resume now w t).1 (m.resume now w t).2 ∧
    left (m.resume now w t).1 (m.resume now w t).2 + (if m.isReady now w t then 1 else 0) ≤
      left w t
  /-- There is a reason to go on, now or later. -/
  wake : ∀ now w t, I w t → m.isDone t = false → m.isReady now w t = false →
    ∃ due, m.due? t = some due ∧ m.isReady (max now due) w t = true

variable {I : World → Task → Prop} {left : World → Task → Nat}

theorem run_running (h : Advances m I left) (hI : I w t) (ht : m.isDone t = false) {rounds : Nat}
    (hrounds : left w t ≤ rounds) :
    ∃ stop w' t', (⟨now, w, [.running start t]⟩ : Ensemble World Action Task).run m rounds =
        ⟨stop, w', [.done start stop t' w']⟩ ∧ I w' t' ∧ m.isDone t' = true := by
  induction rounds generalizing now w t with
  | zero =>
    -- Nothing is left to become less, but the next step would make it less.
    obtain ⟨time, hready⟩ : ∃ time, m.isReady time w t = true := by
      cases hready : m.isReady now w t with
      | true => exact ⟨now, hready⟩
      | false =>
        obtain ⟨due, _, hdue⟩ := h.wake now w t hI ht hready
        exact ⟨_, hdue⟩
    have hless := (h.step time w t hI ht).2
    rw [hready, if_pos rfl] at hless
    omega
  | succ rounds ih =>
    obtain ⟨time, htime, hready⟩ : ∃ time, (m.isReady now w t = true ∧ time = now ∨
        m.isReady now w t = false ∧ ∃ due, m.due? t = some due ∧ time = max now due) ∧
        m.isReady time w t = true := by
      cases hready : m.isReady now w t with
      | true => exact ⟨now, .inl ⟨rfl, rfl⟩, hready⟩
      | false =>
        obtain ⟨due, hdue, hlater⟩ := h.wake now w t hI ht hready
        exact ⟨_, .inr ⟨rfl, due, hdue, rfl⟩, hlater⟩
    obtain ⟨hI', hless⟩ := h.step time w t hI ht
    rw [hready, if_pos rfl] at hless
    rw [run, next?_running htime]
    cases hdone : m.isDone (m.resume time w t).2 with
    | true =>
      dsimp only
      rw [settle_of_done hdone, run_done]
      exact ⟨_, _, _, rfl, hI', hdone⟩
    | false =>
      dsimp only
      rw [settle_of_not_done hdone]
      exact ih hI' hdone (by omega)

/-- An action alone in its world is done after finitely many rounds. -/
theorem run_solo (h : Advances m I left) (now : Nat) (w : World) (action : Action)
    (hI : I (m.start now w action).1 (m.start now w action).2) {rounds : Nat}
    (hrounds : left (m.start now w action).1 (m.start now w action).2 < rounds) :
    ∃ stop w' t', (ofActions now w [(now, action)] : Ensemble World Action Task).run m rounds =
        ⟨stop, w', [.done now stop t' w']⟩ ∧ I w' t' ∧ m.isDone t' = true := by
  obtain ⟨rounds, rfl⟩ : ∃ n, rounds = n + 1 := ⟨rounds - 1, by omega⟩
  rw [run, next?_pending]
  cases hdone : m.isDone (m.start now w action).2 with
  | true =>
    dsimp only
    rw [settle_of_done hdone, run_done]
    exact ⟨_, _, _, rfl, hI, hdone⟩
  | false =>
    dsimp only
    rw [settle_of_not_done hdone]
    exact run_running h hI hdone (by omega)

/-! ### Two tasks in step -/

variable {World' Action' Task' : Type} {m' : Machine World' Action' Task'}

/-- The tasks that `g` gives do the same as the ones they are given for, in the worlds that `f`
    gives. -/
structure Mirrors (m : Machine World Action Task) (m' : Machine World' Action' Task')
    (f : World → World') (g : Task → Task') : Prop where
  resume  : ∀ now w t, m'.resume now (f w) (g t) =
    (f (m.resume now w t).1, g (m.resume now w t).2)
  isDone  : ∀ t, m'.isDone (g t) = m.isDone t
  isReady : ∀ now w t, m'.isReady now (f w) (g t) = m.isReady now w t
  due?    : ∀ t, m'.due? (g t) = m.due? t

variable {f : World → World'} {g : Task → Task'} {a : Action} {a' : Action'} {t' : Task}
  {w' : World} {v : World'}

theorem settle_mirrors (h : Mirrors m m' f g) (x : World × Task) :
    (Voice.settle m' now start (f x.1, g x.2)).2 =
      if m.isDone x.2 then .done start now (g x.2) (f x.1) else .running start (g x.2) := by
  simp only [Voice.settle, h.isDone]

/-- What one of them comes to the other one comes to, at the same time. -/
theorem run_mirrors (h : Mirrors m m' f g) {rounds : Nat}
    (hrun : (⟨now, w, [.running start t]⟩ : Ensemble World Action Task).run m rounds =
      ⟨stop, w', [.done start stop t' w']⟩) :
    (⟨now, f w, [.running start (g t)]⟩ : Ensemble World' Action' Task').run m' rounds =
      ⟨stop, f w', [.done start stop (g t') (f w')]⟩ := by
  induction rounds generalizing now w t with
  | zero => cases hrun
  | succ rounds ih =>
    rw [run, next?_running_eq] at hrun ⊢
    rw [h.isReady, h.due?]
    cases htime : (if m.isReady now w t then some now else (m.due? t).map (max now)) with
    | none =>
      rw [htime] at hrun
      cases hrun
    | some time =>
      rw [htime] at hrun
      dsimp only [Option.map_some] at hrun ⊢
      rw [h.resume, settle_mirrors h]
      cases hdone : m.isDone (m.resume time w t).2 with
      | true =>
        rw [settle_of_done hdone, run_done] at hrun
        cases hrun
        rw [if_pos rfl, run_done]
      | false =>
        rw [settle_of_not_done hdone] at hrun
        exact ih hrun

/-- So it is with two actions that begin as such tasks. -/
theorem run_solo_mirrors (h : Mirrors m m' f g) {rounds : Nat}
    (hstart : m'.start now v a' = (f (m.start now w a).1, g (m.start now w a).2))
    (hrun : (ofActions now w [(now, a)] : Ensemble World Action Task).run m rounds =
      ⟨stop, w', [.done now stop t' w']⟩) :
    (ofActions now v [(now, a')] : Ensemble World' Action' Task').run m' rounds =
      ⟨stop, f w', [.done now stop (g t') (f w')]⟩ := by
  cases rounds with
  | zero => cases hrun
  | succ rounds =>
    rw [run, next?_pending] at hrun ⊢
    rw [hstart, settle_mirrors h]
    dsimp only at hrun ⊢
    cases hdone : m.isDone (m.start now w a).2 with
    | true =>
      rw [settle_of_done hdone, run_done] at hrun
      cases hrun
      rw [if_pos rfl, run_done]
    | false =>
      rw [settle_of_not_done hdone] at hrun
      exact run_mirrors h hrun

end Storyboard.Ensemble
