import Mathlib.Data.List.Induction
import Storyboard.Proofs.Ensemble.Progress
import Storyboard.Proofs.Ensemble.Timing

/-! # One action after another

    Actions are made in turn if each begins when those before it are done and
    has the world to itself until it is done (`InTurn`). Whatever its turns
    are, nobody else does anything then (`exists_done_of_turns`). -/

namespace Storyboard.Ensemble

variable {World Action Task : Type} {m : Machine World Action Task}
  {e f : Ensemble World Action Task} {action : Action} {actions : List Action}
  {turns : List (Event Action)}

/-- These events are turns, and nobody joins. -/
def AllTurns (events : List (Event Action)) : Prop :=
  ∀ event ∈ events, ∃ place time, event = .turn place time

/-- The ensemble comes of actions made in turn. -/
inductive InTurn (m : Machine World Action Task) (e : Ensemble World Action Task) :
    List Action → Ensemble World Action Task → Prop
  | nil : InTurn m e [] e
  | snoc {f : Ensemble World Action Task} {actions : List Action} {action : Action} {time : Nat}
      {turns : List (Event Action)} (h : InTurn m e actions f) (hturns : AllTurns turns)
      (hended : ((f.step m (.join time action)).after m turns).Ended) :
      InTurn m e (actions ++ [action]) ((f.step m (.join time action)).after m turns)

theorem InTurn.ended (h : InTurn m e actions f) (he : e.Ended) : f.Ended := by
  cases h with
  | nil => exact he
  | snoc _ _ hended => exact hended

theorem InTurn.eq_of_nil (h : InTurn m e [] f) : f = e := by
  generalize hnone : ([] : List Action) = actions at h
  cases h with
  | nil => rfl
  | snoc => simp at hnone

/-- The last of them begins when the others are done. -/
theorem InTurn.last (h : InTurn m e (actions ++ [action]) f) :
    ∃ g time turns, InTurn m e actions g ∧ AllTurns turns ∧
      ((g.step m (.join time action)).after m turns).Ended ∧
      f = (g.step m (.join time action)).after m turns := by
  generalize hall : actions ++ [action] = all at h
  cases h with
  | nil => simp at hall
  | @snoc g actions' action' time turns h hturns hended =>
    obtain ⟨rfl, hlast⟩ := List.append_inj' hall rfl
    obtain rfl := List.singleton_inj.1 hlast
    exact ⟨g, time, turns, h, hturns, hended, rfl⟩

/-! ### The only voice that is not done -/

variable {voices : List (Voice World Action Task)} {v : Voice World Action Task} {w : World}

/-- Among voices that are done only the last one does anything. -/
theorem step_turn_of_done (hvoices : ∀ u ∈ voices, u.isDone = true) (now : Nat) (w : World)
    (v : Voice World Action Task) (place time : Nat) :
    (⟨now, w, voices ++ [v]⟩ : Ensemble World Action Task).step m (.turn place time) =
        ⟨max now time, w, voices ++ [v]⟩ ∨
      (⟨now, w, voices ++ [v]⟩ : Ensemble World Action Task).step m (.turn place time) =
        ⟨max now time, (v.turn m (max now time) w).1,
          voices ++ [(v.turn m (max now time) w).2]⟩ := by
  -- The turn is that of a voice that is done, of the last one, or of none at all.
  rcases Nat.lt_trichotomy place voices.length with hlt | rfl | hgt
  · have hu : (voices ++ [v])[place]? = some voices[place] := by
      rw [List.getElem?_append_left hlt, List.getElem?_eq_getElem hlt]
    have hdone := hvoices _ (List.getElem_mem hlt)
    have hsame : Voice.turn m (max now time) w voices[place] = (w, voices[place]) := by
      cases hv : voices[place] with
      | done start stop t world => rfl
      | _ =>
        rw [hv] at hdone
        cases hdone
    refine .inl ?_
    rw [step_turn_of_some hu]
    simp only [hsame]
    rw [List.set_append_left _ _ hlt, List.set_getElem_self]
  · have hv : (voices ++ [v])[voices.length]? = some v := by simp
    refine .inr ?_
    rw [step_turn_of_some hv]
    simp [List.set_append_right]
  · have hnone : (voices ++ [v])[place]? = none := by
      rw [List.getElem?_eq_none]
      simpa using Nat.succ_le_of_lt hgt
    refine .inl ?_
    simp only [step, hnone]

theorem after_turns_of_done {Q : World → Voice World Action Task → Prop}
    (hQ : ∀ now w v, Q w v → Q (v.turn m now w).1 (v.turn m now w).2)
    (hvoices : ∀ u ∈ voices, u.isDone = true) (now : Nat) (h : Q w v) (hturns : AllTurns turns) :
    ∃ now' w' v', (⟨now, w, voices ++ [v]⟩ : Ensemble World Action Task).after m turns =
      ⟨now', w', voices ++ [v']⟩ ∧ Q w' v' := by
  induction turns generalizing w v now with
  | nil => exact ⟨now, w, v, rfl, h⟩
  | cons event rest ih =>
    obtain ⟨⟨place, time, rfl⟩, hrest⟩ := List.forall_mem_cons.1 hturns
    show ∃ now' w' v', (step m _ (.turn place time)).after m rest = _ ∧ _
    rcases step_turn_of_done (m := m) hvoices now w v place time with hsame | hturn
    · rw [hsame]
      exact ih _ h hrest
    · rw [hturn]
      exact ih _ (hQ _ w v h) hrest

/-- What is known of a voice whose action has the world to itself, when the action keeps `Q` from
    its beginning on: the world is as it was until then. -/
def Keeps (m : Machine World Action Task) (before : World) (action : Action)
    (Q : World → Task → Prop) (w : World) : Voice World Action Task → Prop
  | .pending _ a => w = before ∧ a = action
  | .running _ t => m.isDone t = false ∧ Q w t
  | .done _ _ t _ => m.isDone t = true ∧ Q w t

variable {Q : World → Task → Prop} {before : World}

theorem keeps_settle (now start : Nat) {x : World × Task} (h : Q x.1 x.2) :
    Keeps m before action Q x.1 (Voice.settle m now start x).2 := by
  unfold Voice.settle
  dsimp only
  cases hdone : m.isDone x.2 with
  | true => exact ⟨hdone, h⟩
  | false => exact ⟨hdone, h⟩

theorem keeps_turn (hstart : ∀ now, Q (m.start now before action).1 (m.start now before action).2)
    (hresume : ∀ now w t, m.isDone t = false → Q w t →
      Q (m.resume now w t).1 (m.resume now w t).2)
    (now : Nat) (w : World) (v : Voice World Action Task) (hv : Keeps m before action Q w v) :
    Keeps m before action Q (v.turn m now w).1 (v.turn m now w).2 := by
  cases v with
  | pending start a =>
    obtain ⟨rfl, rfl⟩ := hv
    unfold Voice.turn
    dsimp only
    split
    · exact keeps_settle _ _ (hstart now)
    · exact ⟨rfl, rfl⟩
  | running start t => exact keeps_settle _ _ (hresume now w t hv.1 hv.2)
  | done start stop t world => exact hv

/-- What an action that has the world to itself keeps from its beginning on, holds when it is
    done. -/
theorem exists_done_of_turns {time : Nat} (he : e.Ended)
    (hstart : ∀ now, Q (m.start now e.world action).1 (m.start now e.world action).2)
    (hresume : ∀ now w t, m.isDone t = false → Q w t →
      Q (m.resume now w t).1 (m.resume now w t).2)
    (hturns : AllTurns turns) (hended : ((e.step m (.join time action)).after m turns).Ended) :
    ∃ t, m.isDone t = true ∧ Q ((e.step m (.join time action)).after m turns).world t := by
  obtain ⟨now', w', v', hafter, hv'⟩ := after_turns_of_done (m := m) (w := e.world)
    (v := .pending time action) (keeps_turn hstart hresume) he e.now ⟨rfl, rfl⟩ hturns
  rw [show e.step m (.join time action) =
    ⟨e.now, e.world, e.voices ++ [.pending time action]⟩ from rfl, hafter] at hended ⊢
  have hdone := hended v' (List.mem_append_right _ List.mem_cons_self)
  cases v' with
  | done start stop t world => exact ⟨t, hv'⟩
  | _ => cases hdone

/-! ### There is always a way on -/

/-- Where all that is begun comes to its end, any actions can be made in turn. -/
theorem Progresses.exists_inTurn {γ : Type} [Preorder γ] [WellFoundedLT γ]
    {I : Ensemble World Action Task → Prop} {left : Ensemble World Action Task → γ}
    (h : Progresses m I left) (hI : I e) (actions : List Action) :
    ∃ f, InTurn m e actions f ∧ I f := by
  induction actions using List.reverseRecOn with
  | nil => exact ⟨e, .nil, hI⟩
  | append_singleton actions action ih =>
    obtain ⟨f, hf, hIf⟩ := ih
    have hjoined := h.keeps (.join f.now action) hIf
    obtain ⟨rounds, hended⟩ := h.exists_run_ended hjoined
    obtain ⟨turns, hrun, _, hturns⟩ :=
      exists_prompt_run (m := m) (e := f.step m (.join f.now action)) rounds
    rw [hrun] at hended
    exact ⟨_, .snoc hf hturns hended, after_induction (P := I) hjoined (fun _ => h.keeps) turns⟩

end Storyboard.Ensemble
