import Storyboard.Proofs.Playback.Turn

/-! # Accounts of what happens on the stage

    An account tells, event by event, the deeds of whoever takes its turn: the
    deeds of the moves of which the turn comes. There is one of every list of
    events (`exists_account`), and what is kept by every move, together with
    its deeds, holds of every account (`account_induction`). -/

namespace Storyboard.Player

open Ensemble

variable {p q : Player} {t u : Task} {ts us : List Task} {deeds more log : List Deed} {now : Nat}
  {e : Ensemble Player Call Task} {event : Event Call} {events : List (Event Call)}

/-- What happens on the stage with an event. -/
inductive Told (e : Ensemble Player Call Task) (event : Event Call) : List Deed → Prop
  /-- A call begins. -/
  | begun {call : Call} {n : Nat} {deeds : List Deed} (h : e.begun? event = some call)
      (hmoves : Moves (e.step machine event).now n (e.world.enter call).1 (e.world.enter call).2
        deeds (e.world.start (e.step machine event).now call).1
        (e.world.start (e.step machine event).now call).2) : Told e event deeds
  /-- A call goes on. -/
  | resumed {t : Task} {n : Nat} {deeds : List Deed} (h : e.resumed? event = some t)
      (hmoves : Moves (e.step machine event).now n e.world t deeds
        (e.world.resume (e.step machine event).now t).1
        (e.world.resume (e.step machine event).now t).2) : Told e event deeds
  /-- Nothing happens. -/
  | idle (hbegun : e.begun? event = none) (hresumed : e.resumed? event = none) :
      Told e event []

/-- What happens on the stage with some events, one after another. -/
inductive Account (e : Ensemble Player Call Task) : List (Event Call) → List Deed → Prop
  | nil : Account e [] []
  | snoc {events : List (Event Call)} {event : Event Call} {deeds more : List Deed}
      (h : Account e events deeds) (hmore : Told (e.after machine events) event more) :
      Account e (events ++ [event]) (deeds ++ more)

/-! ### There is an account -/

/-- These calls have not returned and have something to wait for. -/
def AllRest (ts : List Task) : Prop := ∀ t ∈ ts, t.isOver = false ∧ t.Rests

/-- So it is with whatever is under way. -/
theorem rests_after (p : Player) (now : Nat) (events : List (Event Call)) :
    AllRest ((alone now p).after machine events).inFlight := by
  have hjoin : ∀ {t : Task} {ts : List Task}, t.Rests → AllRest ts →
      AllRest (joined machine t ts) := by
    intro t ts ht hts
    unfold joined
    split
    · exact hts
    · next hopen => exact List.forall_mem_cons.2 ⟨⟨Bool.eq_false_iff.2 hopen, ht⟩, hts⟩
  refine inFlight_induction (I := fun _ ts => AllRest ts)
    (List.forall_mem_nil _) ?_ ?_ ?_ events
  · exact fun hperm h t ht => h t (hperm.mem_iff.2 ht)
  · exact fun now p ts call h => hjoin (comes_start p now call).1 h
  · intro now p t ts h
    obtain ⟨ht, hts⟩ := List.forall_mem_cons.1 h
    exact hjoin (comes_resume p now ht.2).1 hts

/-- With every event something happens that can be told. -/
theorem exists_told (h : AllRest e.inFlight) (event : Event Call) :
    ∃ deeds, Told e event deeds := by
  cases hbegun : e.begun? event with
  | some call =>
    obtain ⟨_, n, deeds, _, hmoves⟩ := comes_start e.world (e.step machine event).now call
    exact ⟨deeds, .begun hbegun hmoves⟩
  | none =>
    cases hresumed : e.resumed? event with
    | some t =>
      obtain ⟨_, ts, hbefore, _⟩ := step_of_resumed (m := machine) hresumed
      have ht := h t (hbefore.mem_iff.2 List.mem_cons_self)
      obtain ⟨_, n, deeds, _, hmoves⟩ := comes_resume e.world (e.step machine event).now ht.2
      exact ⟨deeds, .resumed hresumed hmoves⟩
    | none => exact ⟨[], .idle hbegun hresumed⟩

theorem exists_account (p : Player) (now : Nat) (events : List (Event Call)) :
    ∃ deeds, Account (alone now p) events deeds := by
  induction events using List.reverseRecOn with
  | nil => exact ⟨[], .nil⟩
  | append_singleton events event ih =>
    obtain ⟨deeds, haccount⟩ := ih
    obtain ⟨more, htold⟩ := exists_told (rests_after p now events) event
    exact ⟨deeds ++ more, .snoc haccount htold⟩

/-! ### What moves keep -/

/-- What a list of deeds leads to is kept by every move, together with its deeds. -/
structure Kept (I : Player → List Task → List Deed → Prop) : Prop where
  perm     : ∀ {p ts us log}, ts.Perm us → I p ts log → I p us log
  enter    : ∀ {p call q t ts log}, Entered p call q t → I p ts log → I q (t :: ts) log
  move     : ∀ {now p t deeds q u ts log}, Move now p t deeds q u → I p (t :: ts) log →
    I q (u :: ts) (log ++ deeds)
  returned : ∀ {p report ts log}, I p (.over report :: ts) log → I p ts log

variable {I : Player → List Task → List Deed → Prop}

theorem Kept.moves {n : Nat} (h : Kept I) (hmoves : Moves now n p t deeds q u)
    (hI : I p (t :: ts) log) : I q (u :: ts) (log ++ deeds) := by
  induction hmoves generalizing log with
  | refl => rwa [List.append_nil]
  | head hfirst _ ih =>
    rw [← List.append_assoc]
    exact ih (h.move hfirst hI)

theorem Kept.joined (h : Kept I) (hI : I p (t :: ts) log) : I p (joined machine t ts) log := by
  cases t with
  | «over» report => exact h.returned hI
  | _ => exact hI

/-- What every move keeps, whatever its deeds. -/
structure Keeps (J : Player → List Task → Prop) : Prop where
  perm     : ∀ {p ts us}, ts.Perm us → J p ts → J p us
  enter    : ∀ {p call q t ts}, Entered p call q t → J p ts → J q (t :: ts)
  move     : ∀ {now p t deeds q u ts}, Move now p t deeds q u → J p (t :: ts) → J q (u :: ts)
  returned : ∀ {p report ts}, J p (.over report :: ts) → J p ts

theorem Kept.keeps {J : Player → List Task → Prop} (h : Kept fun p ts _ => J p ts) : Keeps J where
  perm hperm hJ := @Kept.perm _ h _ _ _ [] hperm hJ
  enter henter hJ := @Kept.enter _ h _ _ _ _ _ [] henter hJ
  move hmove hJ := @Kept.move _ h _ _ _ _ _ _ _ [] hmove hJ
  returned hJ := @Kept.returned _ h _ _ _ [] hJ

/-- What every move keeps is kept by every event. -/
theorem Kept.told (h : Kept I) (htold : Told e event more) (hI : I e.world e.inFlight log) :
    I (e.step machine event).world (e.step machine event).inFlight (log ++ more) := by
  cases htold with
  | begun hbegun hmoves =>
    obtain ⟨hworld, hperm⟩ := step_of_begun (m := machine) hbegun
    rw [hworld]
    exact h.perm hperm (h.joined (h.moves hmoves (h.enter (e.world.entered _) hI)))
  | resumed hresumed hmoves =>
    obtain ⟨hworld, ts, hbefore, hafter⟩ := step_of_resumed (m := machine) hresumed
    rw [hworld]
    exact h.perm hafter (h.joined (h.moves hmoves (h.perm hbefore hI)))
  | idle hbegun hresumed =>
    obtain ⟨hworld, hsame⟩ := step_of_idle (m := machine) hbegun hresumed
    rwa [hworld, hsame, List.append_nil]

/-- What holds at first and is kept by every move holds of every account. -/
theorem account_induction (h : Kept I) (h₀ : I p [] [])
    (haccount : Account (alone now p) events log) :
    I ((alone now p).after machine events).world ((alone now p).after machine events).inFlight
      log := by
  induction haccount with
  | nil => exact h₀
  | snoc _ hmore ih =>
    rw [after_append]
    exact h.told hmore ih

/-- What every move keeps, whatever its deeds, holds after any events. -/
theorem after_of_kept {J : Player → List Task → Prop} (h : Kept fun p ts _ => J p ts)
    (h₀ : J p []) (now : Nat) (events : List (Event Call)) :
    J ((alone now p).after machine events).world
      ((alone now p).after machine events).inFlight := by
  obtain ⟨deeds, haccount⟩ := exists_account p now events
  exact account_induction h h₀ haccount

end Storyboard.Player
