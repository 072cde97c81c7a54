import Mathlib.Order.WellFounded
import Storyboard.Proofs.Ensemble.Event

/-! # Ensembles that come to their end

    In every round the first voice that can go on finds the world as it was
    when the round began. So if something becomes less whenever a voice that
    can go on takes its turn, and nothing happens when one takes its turn that
    cannot, then it becomes less in every round. If besides there is always a
    voice that can go on, now or when the clock has come to the time that it
    names, the rounds come to an end, and all voices are done then
    (`exists_run_ended`). -/

namespace Storyboard

variable {World Action Task : Type}

/-- Whether the voice is done. -/
def Voice.isDone : Voice World Action Task → Bool
  | .done .. => true
  | _ => false

namespace Ensemble

variable {m : Machine World Action Task}

/-- All voices are done. -/
def Ended (e : Ensemble World Action Task) : Prop := ∀ v ∈ e.voices, v.isDone = true

/-- What an ensemble needs in order to come to its end. -/
structure Progresses {γ : Type} [Preorder γ] (m : Machine World Action Task)
    (I : Ensemble World Action Task → Prop) (left : Ensemble World Action Task → γ) : Prop where
  /-- Every event keeps the invariant. -/
  keeps  : ∀ {e} event, I e → I (e.step m event)
  /-- A voice that can go on makes something less. -/
  lowers : ∀ {e place v}, I e → e.voices[place]? = some v → v.isReady m e.now e.world = true →
    left (e.step m (.turn place e.now)) < left e
  /-- A voice that cannot stays where it is. -/
  stays  : ∀ {e v}, I e → v ∈ e.voices → v.isReady m e.now e.world = false →
    v.turn m e.now e.world = (e.world, v)
  /-- Time alone changes nothing of what is left. -/
  clock  : ∀ e now, left { e with now } = left e
  /-- As long as a voice is not done, one can go on or names a time. -/
  wakes  : ∀ {e v}, I e → v ∈ e.voices → v.isDone = false →
    ∃ u ∈ e.voices, u.isReady m e.now e.world = true ∨ ∃ due, u.due? m = some due
  /-- From the time on that a voice names it can go on. -/
  due    : ∀ {e v due now}, I e → v ∈ e.voices → v.due? m = some due → due ≤ now →
    v.isReady m now e.world = true

/-! ### The next time -/

theorem foldl_earlier? (t : Option Nat) (voices : List (Voice World Action Task)) :
    (voices.foldl (fun t v => earlier? t (v.due? m)) t = none →
      t = none ∧ ∀ v ∈ voices, v.due? m = none) ∧
    ∀ due, voices.foldl (fun t v => earlier? t (v.due? m)) t = some due →
      t = some due ∨ ∃ v ∈ voices, v.due? m = some due := by
  induction voices generalizing t with
  | nil => exact ⟨fun h => ⟨h, List.forall_mem_nil _⟩, fun due h => .inl h⟩
  | cons v voices ih =>
    obtain ⟨hnone, hsome⟩ := ih (earlier? t (v.due? m))
    constructor
    · intro h
      obtain ⟨hearlier, hvoices⟩ := hnone h
      cases t with
      | none => exact ⟨rfl, List.forall_mem_cons.2 ⟨by simpa [earlier?] using hearlier, hvoices⟩⟩
      | some t => cases hv : v.due? m <;> simp [earlier?, hv] at hearlier
    · intro due h
      rcases hsome due h with hearlier | ⟨u, hu, hdue⟩
      · cases t with
        | none =>
          exact .inr ⟨v, List.mem_cons_self, by simpa [earlier?] using hearlier⟩
        | some t =>
          cases hv : v.due? m with
          | none => exact .inl (by simpa [earlier?, hv] using hearlier)
          | some d =>
            -- The earlier of two times is one of them.
            have hmin : min t d = due := by simpa [earlier?, hv] using hearlier
            rcases Nat.le_total t d with hle | hle
            · rw [Nat.min_eq_left hle] at hmin
              exact .inl (congrArg some hmin)
            · rw [Nat.min_eq_right hle] at hmin
              exact .inr ⟨v, List.mem_cons_self, hmin ▸ hv⟩
      · exact .inr ⟨u, List.mem_cons_of_mem _ hu, hdue⟩

/-! ### One round -/

variable {γ : Type} [Preorder γ] {I : Ensemble World Action Task → Prop}
  {left : Ensemble World Action Task → γ} {e : Ensemble World Action Task}

theorem Progresses.withNow (h : Progresses m I left) (hI : I e) {now : Nat} (hnow : e.now ≤ now) :
    I { e with now } := by
  -- A turn at a place that nobody has moves nothing but the clock.
  have hclock : e.step m (.turn e.voices.length now) = { e with now } := by
    simp [step, Nat.max_eq_right hnow]
  rw [← hclock]
  exact h.keeps _ hI

/-- The turns of a round, from some place on: either nothing changes or something becomes less, and
    it does if one of those who take their turns could go on. -/
theorem Progresses.turns (h : Progresses m I left) {now : Nat} {w : World}
    {before voices : List (Voice World Action Task)} (hI : I ⟨now, w, before ++ voices⟩) :
    let e : Ensemble World Action Task := ⟨now, w, before ++ voices⟩
    let e' : Ensemble World Action Task :=
      ⟨now, (turns m now w voices).1, before ++ (turns m now w voices).2⟩
    I e' ∧ (e' = e ∨ left e' < left e) ∧
      ((∃ v ∈ voices, v.isReady m now w = true) → left e' < left e) := by
  induction voices generalizing w before with
  | nil =>
    refine ⟨hI, .inl rfl, ?_⟩
    rintro ⟨v, hv, _⟩
    cases hv
  | cons v rest ih =>
    have hv : (before ++ v :: rest)[before.length]? = some v := by simp
    have hstep : (⟨now, w, before ++ v :: rest⟩ : Ensemble World Action Task).step m
        (.turn before.length now) =
          ⟨now, (v.turn m now w).1, before ++ (v.turn m now w).2 :: rest⟩ := by
      rw [step_turn_of_some hv]
      simp [List.set_append_right]
    have hI' := h.keeps (.turn before.length now) hI
    rw [hstep, List.append_cons] at hI'
    obtain ⟨hkept, hsame, hless⟩ := ih hI'
    rw [← List.append_cons] at hkept hsame hless
    rw [← List.append_cons] at hsame hless
    refine ⟨hkept, ?_⟩
    cases hready : v.isReady m now w with
    | true =>
      have hlower := h.lowers hI hv hready
      rw [hstep] at hlower
      have hall : left ⟨now, (Ensemble.turns m now w (v :: rest)).1,
          before ++ (Ensemble.turns m now w (v :: rest)).2⟩ <
          left ⟨now, w, before ++ v :: rest⟩ := by
        rcases hsame with heq | hsame
        · exact lt_of_eq_of_lt (congrArg left heq) hlower
        · exact lt_trans hsame hlower
      exact ⟨.inr hall, fun _ => hall⟩
    | false =>
      -- Who cannot go on leaves the world to those who come later.
      have hstays := h.stays hI (List.mem_append_right _ List.mem_cons_self) hready
      simp only [hstays] at hsame hless
      refine ⟨?_, fun hex => ?_⟩
      · simpa only [Ensemble.turns, hstays] using hsame
      · obtain ⟨u, hu, hu'⟩ := hex
        rcases List.mem_cons.1 hu with rfl | hu
        · rw [hready] at hu'
          cases hu'
        · simpa only [Ensemble.turns, hstays] using hless ⟨u, hu, hu'⟩

/-- As long as a voice is not done there is a next round, and it makes something less. -/
theorem Progresses.next? (h : Progresses m I left) (hI : I e) (hopen : ¬e.Ended) :
    ∃ e', e.next? m = some e' ∧ I e' ∧ left e' < left e := by
  -- A round in which one voice is ready makes something less, whichever time it is.
  have hround : ∀ {now v}, e.now ≤ now → v ∈ e.voices → v.isReady m now e.world = true →
      I (e.round m now) ∧ left (e.round m now) < left e := by
    intro now v hnow hv hready
    have hI' : I ⟨now, e.world, [] ++ e.voices⟩ := h.withNow hI hnow
    obtain ⟨hkept, _, hless⟩ := h.turns hI'
    refine ⟨hkept, ?_⟩
    rw [← h.clock e now]
    exact hless ⟨v, hv, hready⟩
  unfold Ensemble.next?
  cases hawake : e.isAwake m with
  | true =>
    obtain ⟨v, hv, hready⟩ := List.any_eq_true.1 hawake
    exact ⟨_, rfl, hround (Nat.le_refl _) hv hready⟩
  | false =>
    -- Nobody is awake, so one of those that are not done has a time, and the earliest is next.
    obtain ⟨hnone, hsome⟩ := foldl_earlier? (m := m) none e.voices
    unfold Ended at hopen
    obtain ⟨v, hv, hdone⟩ : ∃ v ∈ e.voices, v.isDone = false := by
      simpa using hopen
    obtain ⟨u, hu, hready | ⟨due, hdue⟩⟩ := h.wakes hI hv hdone
    · have hnever := List.any_eq_false.1 hawake u hu
      exact absurd hready hnever
    · cases htime : e.due? m with
      | none =>
        rw [(hnone htime).2 u hu] at hdue
        cases hdue
      | some time =>
        obtain ⟨u', hu', hdue'⟩ := (hsome time htime).resolve_left nofun
        refine ⟨_, rfl, hround (Nat.le_max_left _ _) hu' ?_⟩
        exact h.due hI hu' hdue' (Nat.le_max_right _ _)

/-! ### All rounds -/

theorem Progresses.exists_run_ended [WellFoundedLT γ] (h : Progresses m I left) (hI : I e) :
    ∃ rounds, (e.run m rounds).Ended := by
  induction hleft : left e using WellFoundedLT.induction generalizing e with
  | ind x ih =>
    by_cases hended : e.Ended
    · exact ⟨0, hended⟩
    · obtain ⟨e', hnext, hI', hless⟩ := h.next? hI hended
      obtain ⟨rounds, hrounds⟩ := ih (left e') (hleft ▸ hless) hI' rfl
      refine ⟨rounds + 1, ?_⟩
      rw [run, hnext]
      exact hrounds

end Ensemble

end Storyboard
