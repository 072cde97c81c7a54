import Storyboard.Proofs.Ensemble.Solo

/-! # What the clock shows

    An ensemble stands at a time when it has done all that is due by then, and
    nothing that is due later. One that comes to its end stands at every time
    on its way (`exists_standsAt`). For a voice alone in its world, what every
    round keeps holds wherever it stands, and a round may count on the clock:
    it shows the time at which the voice could go on (`run_sustains`). -/

namespace Storyboard.Ensemble

variable {World Action Task : Type} {m : Machine World Action Task} {now start stop time at' : Nat}
  {w : World} {t : Task} {action : Action} {e : Ensemble World Action Task}

/-- All that is due by a time is done, and nothing that is due later. -/
structure StandsAt (m : Machine World Action Task) (e : Ensemble World Action Task) (time : Nat) :
    Prop where
  passed : e.now ≤ time
  /-- Nobody can go on. -/
  asleep : e.isAwake m = false
  ahead  : ∀ due, e.due? m = some due → time < due

/-- On its way to a point where nobody ever goes on, an ensemble stands at every time. -/
theorem exists_standsAt {rounds : Nat} (hend : (e.run m rounds).next? m = none)
    (htime : e.now ≤ time) : ∃ n, n ≤ rounds ∧ StandsAt m (e.run m n) time := by
  induction rounds generalizing e with
  | zero =>
    -- Nobody goes on from here, so the ensemble stands at all times from now on.
    have hnone : e.next? m = none := hend
    unfold next? at hnone
    split at hnone
    · cases hnone
    · next hasleep =>
      refine ⟨0, Nat.le_refl 0, htime, Bool.eq_false_iff.2 hasleep, ?_⟩
      intro due hdue
      change e.due? m = some due at hdue
      rw [hdue] at hnone
      cases hnone
  | succ rounds ih =>
    by_cases hstands : StandsAt m e time
    · exact ⟨0, Nat.zero_le _, hstands⟩
    · -- Otherwise there is a next round, and it is not later than the time.
      obtain ⟨e', hnext, hnow⟩ : ∃ e', e.next? m = some e' ∧ e'.now ≤ time := by
        unfold next?
        by_cases hawake : e.isAwake m = true
        · rw [if_pos hawake]
          exact ⟨_, rfl, htime⟩
        · rw [if_neg hawake]
          by_cases hdue : ∃ due, e.due? m = some due ∧ due ≤ time
          · obtain ⟨due, hsome, hle⟩ := hdue
            rw [hsome]
            exact ⟨_, rfl, Nat.max_le.2 ⟨htime, hle⟩⟩
          · refine absurd ⟨htime, Bool.eq_false_iff.2 hawake, ?_⟩ hstands
            intro due hsome
            by_contra hle
            exact hdue ⟨due, hsome, Nat.le_of_not_lt hle⟩
      have hrun : ∀ n, e.run m (n + 1) = e'.run m n := by
        intro n
        rw [run, hnext]
      rw [hrun] at hend
      obtain ⟨n, hn, hstands⟩ := ih hend hnow
      refine ⟨n + 1, Nat.succ_le_succ hn, ?_⟩
      rw [hrun]
      exact hstands

/-! ### One voice alone -/

/-- A voice alone in its world that has come this far. -/
def solo (m : Machine World Action Task) (now start : Nat) (w : World) (t : Task) :
    Ensemble World Action Task :=
  ⟨now, w, [(Voice.settle m now start (w, t)).2]⟩

theorem solo_of_done (h : m.isDone t = true) :
    solo m now start w t = ⟨now, w, [.done start now t w]⟩ := by
  rw [solo, settle_of_done h]

theorem solo_of_not_done (h : m.isDone t = false) :
    solo m now start w t = ⟨now, w, [.running start t]⟩ := by
  rw [solo, settle_of_not_done h]

theorem next?_done :
    (⟨now, w, [.done start stop t w]⟩ : Ensemble World Action Task).next? m = none := rfl

/-- Where a voice alone stands, it is done, or it can only go on later. -/
theorem StandsAt.solo (h : StandsAt m (solo m now start w t) time) :
    now ≤ time ∧ (m.isDone t = false →
      m.isReady now w t = false ∧ ∀ due, m.due? t = some due → time < due) := by
  refine ⟨h.passed, fun hopen => ?_⟩
  rw [solo_of_not_done hopen] at h
  refine ⟨?_, fun due hdue => h.ahead due ?_⟩
  · have hasleep := h.asleep
    simpa [isAwake, Voice.isReady] using hasleep
  · simp [Ensemble.due?, Voice.due?, earlier?, hdue]

/-- What the rounds of a voice alone keep. The clock shows the time at which it could go on: the
    time of the last round, or else the next time that the voice names. -/
structure Sustains (m : Machine World Action Task) (J : Nat → World → Task → Prop) : Prop where
  now   : ∀ now w t, J now w t → m.isDone t = false → m.isReady now w t = true →
    J now (m.resume now w t).1 (m.resume now w t).2
  later : ∀ now w t due, J now w t → m.isDone t = false → m.isReady now w t = false →
    m.due? t = some due → J (max now due) (m.resume (max now due) w t).1
      (m.resume (max now due) w t).2

variable {J : Nat → World → Task → Prop}

/-- A round of a voice that is not done, if there is one. -/
theorem Sustains.next? (h : Sustains m J) (hJ : J now w t) (hopen : m.isDone t = false)
    (hnext : (Ensemble.solo m now start w t).next? m = some e) :
    ∃ time w' t', e = Ensemble.solo m time start w' t' ∧ now ≤ time ∧ J time w' t' := by
  rw [solo_of_not_done hopen, next?_running_eq] at hnext
  by_cases hready : m.isReady now w t = true
  · rw [if_pos hready] at hnext
    cases hnext
    exact ⟨now, _, _, rfl, Nat.le_refl now, h.now now w t hJ hopen hready⟩
  · rw [if_neg hready] at hnext
    have hlate := Bool.eq_false_iff.2 hready
    cases hdue : m.due? t with
    | none =>
      rw [hdue] at hnext
      cases hnext
    | some due =>
      rw [hdue] at hnext
      cases hnext
      exact ⟨_, _, _, rfl, Nat.le_max_left _ _, h.later now w t due hJ hopen hlate hdue⟩

theorem Sustains.run (h : Sustains m J) (hJ : J now w t) (rounds : Nat) :
    ∃ time w' t', (Ensemble.solo m now start w t).run m rounds = Ensemble.solo m time start w' t' ∧
      now ≤ time ∧ J time w' t' := by
  induction rounds generalizing now w t with
  | zero => exact ⟨now, w, t, rfl, Nat.le_refl now, hJ⟩
  | succ rounds ih =>
    cases hdone : m.isDone t with
    | true =>
      refine ⟨now, w, t, ?_, Nat.le_refl now, hJ⟩
      rw [solo_of_done hdone, run_done]
    | false =>
      rw [Ensemble.run]
      cases hnext : (Ensemble.solo m now start w t).next? m with
      | none => exact ⟨now, w, t, rfl, Nat.le_refl now, hJ⟩
      | some e =>
        obtain ⟨time, w', t', rfl, hle, hJ'⟩ := h.next? hJ hdone hnext
        obtain ⟨time', w'', t'', hrun, hle', hJ''⟩ := ih hJ'
        exact ⟨time', w'', t'', hrun, Nat.le_trans hle hle', hJ''⟩

/-- What every round of an action alone in its world keeps, holds after as many as there are. -/
theorem run_sustains (h : Sustains m J) (action : Action)
    (hJ : J now (m.start now w action).1 (m.start now w action).2) (rounds : Nat) :
    ∃ time w' t',
      (ofActions now w [(now, action)] : Ensemble World Action Task).run m (rounds + 1) =
        solo m time now w' t' ∧ now ≤ time ∧ J time w' t' := by
  rw [run, next?_pending]
  exact h.run hJ rounds

end Storyboard.Ensemble
