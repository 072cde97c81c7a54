import Storyboard.Data.Table

/-! # Identifiers

    Everything in a scene is known by an identifier. Identifiers are ordered
    as their texts are. -/

namespace Storyboard

/-- The name of one thing in a scene. -/
structure EntityId where
  /-- The name itself. -/
  text : String
  deriving DecidableEq, Repr, Inhabited

namespace EntityId

instance : Ord EntityId := ⟨fun a b => compare a.text b.text⟩

theorem compare_def (a b : EntityId) : compare a b = compare a.text b.text := rfl

instance : Std.TransOrd EntityId where
  eq_swap := by
    intro a b
    exact Std.OrientedOrd.eq_swap (a := a.text) (b := b.text)
  isLE_trans := by
    intro a b c
    exact Std.TransOrd.isLE_trans (a := a.text) (b := b.text) (c := c.text)

instance : Std.LawfulEqOrd EntityId where
  compare_self := by
    intro a
    exact Std.ReflOrd.compare_self (a := a.text)
  eq_of_compare := by
    intro a b h
    cases a; cases b
    exact congrArg EntityId.mk (Std.LawfulEqOrd.eq_of_compare h)

end EntityId

end Storyboard
