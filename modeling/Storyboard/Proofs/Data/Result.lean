/-! # Results

    A result is a value or a problem. These are the lemmas that take a
    computation with results apart, and those that compare two computations
    by their values alone. -/

namespace Storyboard

variable {ε α β : Type} {x y : Except ε α} {f g : α → Except ε β}

/-- A computation that has a value has one at every step. -/
theorem exists_ok_of_bind {b : β} (h : (x >>= f) = .ok b) : ∃ a, x = .ok a ∧ f a = .ok b := by
  cases x with
  | error p => cases h
  | ok a => exact ⟨a, rfl, h⟩

/-- What is read off the value of a computation was read off a value that it has. -/
theorem exists_ok_of_map {g : α → β} {b : β} (h : x.toOption.map g = some b) :
    ∃ a, x = .ok a ∧ g a = b := by
  cases x with
  | error p => cases h
  | ok a => exact ⟨a, rfl, Option.some.inj h⟩

theorem toOption_bind (x : Except ε α) (f : α → Except ε β) :
    (x >>= f).toOption = x.toOption.bind fun a => (f a).toOption := by
  cases x <;> rfl

theorem toOption_map (x : Except ε α) (f : α → β) : (x.map f).toOption = x.toOption.map f := by
  cases x <;> rfl

theorem toOption_bind_congr (h : x.toOption = y.toOption)
    (hnext : ∀ a, (f a).toOption = (g a).toOption) : (x >>= f).toOption = (y >>= g).toOption := by
  rw [toOption_bind, toOption_bind, h]
  exact congrArg _ (funext hnext)

/-- Computations that have the same values have the same value. -/
theorem toOption_congr (h : ∀ a, x = .ok a ↔ y = .ok a) : x.toOption = y.toOption := by
  cases x with
  | error p =>
    cases y with
    | error q => rfl
    | ok a => cases (h a).2 rfl
  | ok a => rw [(h a).1 rfl]

end Storyboard
