import Storyboard.Proofs.Ensemble.Event

/-! # The same ensemble at a later time

    If a machine, the same or another, does in another world and at a later
    time what a machine does in this one (`Carries`), an ensemble in the other
    world goes through the same events and the same rounds, and everything
    happens so much later. -/

namespace Storyboard

variable {World World' Action Task Task' : Type} {m : Machine World Action Task}
  {m' : Machine World' Action Task'} {delay : Nat} {f : World → World'} {g : Task → Task'}

/-- What the one machine does in a world the other does so much later in the other world. -/
structure Machine.Carries (m : Machine World Action Task) (m' : Machine World' Action Task')
    (delay : Nat) (f : World → World') (g : Task → Task') : Prop where
  start   : ∀ now w a, m'.start (now + delay) (f w) a =
    (f (m.start now w a).1, g (m.start now w a).2)
  resume  : ∀ now w t, m'.resume (now + delay) (f w) (g t) =
    (f (m.resume now w t).1, g (m.resume now w t).2)
  isDone  : ∀ t, m'.isDone (g t) = m.isDone t
  isReady : ∀ now w t, m'.isReady (now + delay) (f w) (g t) = m.isReady now w t
  due?    : ∀ t, m'.due? (g t) = (m.due? t).map (· + delay)

namespace Voice

/-- The same voice in the other world. -/
def carry (delay : Nat) (f : World → World') (g : Task → Task') :
    Voice World Action Task → Voice World' Action Task'
  | .pending time action => .pending (time + delay) action
  | .running start task => .running (start + delay) (g task)
  | .done start stop task world => .done (start + delay) (stop + delay) (g task) (f world)

variable (h : m.Carries m' delay f g) (now : Nat) (w : World)
include h

theorem settle_carry (start : Nat) (x : World × Task) :
    settle m' (now + delay) (start + delay) (f x.1, g x.2) =
      (f (settle m now start x).1, (settle m now start x).2.carry delay f g) := by
  obtain ⟨w, t⟩ := x
  simp only [settle, h.isDone]
  split <;> rfl

theorem turn_carry (v : Voice World Action Task) :
    (v.carry delay f g).turn m' (now + delay) (f w) =
      (f (v.turn m now w).1, (v.turn m now w).2.carry delay f g) := by
  cases v with
  | pending time action =>
    simp only [carry, turn, Nat.add_le_add_iff_right]
    split
    · rw [h.start]
      exact settle_carry h now now _
    · rfl
  | running start task =>
    simp only [carry, turn, h.resume]
    exact settle_carry h now start _
  | done start stop task world => rfl

theorem isReady_carry (v : Voice World Action Task) :
    (v.carry delay f g).isReady m' (now + delay) (f w) = v.isReady m now w := by
  cases v with
  | pending time action => simp only [carry, isReady, Nat.add_le_add_iff_right]
  | running start task => exact h.isReady now w task
  | done start stop task world => rfl

theorem due?_carry (v : Voice World Action Task) :
    (v.carry delay f g).due? m' = (v.due? m).map (· + delay) := by
  cases v with
  | pending time action => rfl
  | running start task => exact h.due? task
  | done start stop task world => rfl

end Voice

namespace Ensemble

/-- The same ensemble in the other world. -/
def carry (delay : Nat) (f : World → World') (g : Task → Task') (e : Ensemble World Action Task) :
    Ensemble World' Action Task' :=
  ⟨e.now + delay, f e.world, e.voices.map (Voice.carry delay f g)⟩

/-- The same event so much later. -/
def Event.later (delay : Nat) : Event Action → Event Action
  | .join time action => .join (time + delay) action
  | .turn place time => .turn place (time + delay)

variable (h : m.Carries m' delay f g) (e : Ensemble World Action Task)
include h

/-! ### Events -/

theorem step_carry (event : Event Action) :
    (e.carry delay f g).step m' (event.later delay) = (e.step m event).carry delay f g := by
  cases event with
  | join time action => simp [step, carry, Event.later, Voice.carry]
  | turn place time =>
    simp only [step, carry, Event.later, List.getElem?_map, Nat.add_max_add_right]
    cases e.voices[place]? with
    | none => rfl
    | some v => simp only [Option.map_some, Voice.turn_carry h, List.map_set]

theorem after_carry (events : List (Event Action)) :
    (e.carry delay f g).after m' (events.map (Event.later delay)) =
      (e.after m events).carry delay f g := by
  induction events generalizing e with
  | nil => rfl
  | cons event events ih =>
    change ((e.carry delay f g).step m' (event.later delay)).after m' _ = _
    rw [step_carry h]
    exact ih (e.step m event)

/-! ### Rounds -/

theorem turns_carry (now : Nat) (w : World) (voices : List (Voice World Action Task)) :
    turns m' (now + delay) (f w) (voices.map (Voice.carry delay f g)) =
      (f (turns m now w voices).1, (turns m now w voices).2.map (Voice.carry delay f g)) := by
  induction voices generalizing w with
  | nil => rfl
  | cons v rest ih => simp only [List.map_cons, turns, Voice.turn_carry h, ih]

theorem isAwake_carry : (e.carry delay f g).isAwake m' = e.isAwake m := by
  simp only [isAwake, carry, List.any_map]
  exact congrArg e.voices.any (funext fun v => Voice.isReady_carry h e.now e.world v)

theorem due?_carry : (e.carry delay f g).due? m' = (e.due? m).map (· + delay) := by
  have hearlier : ∀ a b : Option Nat, earlier? (a.map (· + delay)) (b.map (· + delay)) =
      (earlier? a b).map (· + delay) := by
    intro a b
    cases a <;> cases b <;> simp [earlier?, Nat.add_min_add_right]
  have hfold : ∀ (voices : List (Voice World Action Task)) (t : Option Nat),
      (voices.map (Voice.carry delay f g)).foldl (fun t v => earlier? t (v.due? m'))
        (t.map (· + delay)) =
      (voices.foldl (fun t v => earlier? t (v.due? m)) t).map (· + delay) := by
    intro voices
    induction voices with
    | nil => exact fun _ => rfl
    | cons v rest ih =>
      intro t
      rw [List.map_cons, List.foldl_cons, List.foldl_cons, Voice.due?_carry h, hearlier, ih]
  exact hfold e.voices none

theorem next?_carry :
    (e.carry delay f g).next? m' = (e.next? m).map (Ensemble.carry delay f g) := by
  have hround : ∀ now, (e.carry delay f g).round m' (now + delay) =
      (e.round m now).carry delay f g := by
    intro now
    simp only [round, carry, turns_carry h]
  unfold next?
  rw [isAwake_carry h, due?_carry h]
  split
  · exact congrArg some (hround e.now)
  · cases e.due? m with
    | none => rfl
    | some t =>
      have hnow : max (e.carry delay f g).now (t + delay) = max e.now t + delay :=
        Nat.add_max_add_right ..
      simp only [Option.map_some, hnow, hround]

theorem run_carry (rounds : Nat) :
    (e.carry delay f g).run m' rounds = (e.run m rounds).carry delay f g := by
  induction rounds generalizing e with
  | zero => rfl
  | succ rounds ih =>
    simp only [run, next?_carry h]
    cases e.next? m with
    | none => rfl
    | some e' => exact ih e'

end Ensemble

end Storyboard
