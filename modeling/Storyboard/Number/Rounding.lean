import Storyboard.Number.Binary

/-! # Whole numbers near a floating-point number

    The whole numbers below, above and nearest to a size `m · 2 ^ q`, in exact
    arithmetic, and the conversions between floating-point numbers and the
    whole numbers of a limited range. -/

namespace Storyboard.Number

/-- The greatest whole number that is at most `m · 2 ^ q`. -/
def floorOf (m : Nat) (q : Int) : Nat :=
  if q < 0 then m / Nat.pow 2 q.natAbs else m * Nat.pow 2 q.natAbs

/-- The least whole number that is at least `m · 2 ^ q`. -/
def ceilOf (m : Nat) (q : Int) : Nat :=
  if q < 0 then (m + (Nat.pow 2 q.natAbs - 1)) / Nat.pow 2 q.natAbs else m * Nat.pow 2 q.natAbs

/-- The whole number nearest to `m · 2 ^ q`, a half upwards. -/
def nearestOf (m : Nat) (q : Int) : Nat :=
  if q < 0 then (2 * m + Nat.pow 2 q.natAbs) / (2 * Nat.pow 2 q.natAbs) else m * Nat.pow 2 q.natAbs

/-- `i` as a floating-point number, rounded to the nearest. -/
def ofInt (i : Int) : Float :=
  if i < 0 then -(ofRatio i.natAbs 1) else ofRatio i.natAbs 1

/-- `n` as a floating-point number, rounded to the nearest. -/
def ofNat (n : Nat) : Float := ofRatio n 1

/-- `x` rounded to the nearest whole number from `0` to `most`, a half away from zero. What lies
    outside goes to the nearer end, and what is no number to zero. -/
def roundToRange (most : Nat) (x : Float) : Nat :=
  match parts x with
  | ⟨_, .undefined⟩ => 0
  | ⟨negative, .infinite⟩ => if negative then 0 else most
  | ⟨negative, .finite m q⟩ => if negative then 0 else min (nearestOf m q) most

/-- Whether `x` is a whole number. -/
def isWhole (x : Float) : Bool :=
  match (parts x).magnitude with
  | .finite m q => floorOf m q == ceilOf m q
  | _ => false

/-- `x` without its fraction, held within the signed numbers of 64 bits. -/
def truncateToWord (x : Float) : Int :=
  match parts x with
  | ⟨_, .undefined⟩ => 0
  | ⟨negative, .infinite⟩ => if negative then -Nat.pow 2 63 else Nat.pow 2 63 - 1
  | ⟨negative, .finite m q⟩ =>
    if negative then max (-(floorOf m q : Int)) (-Nat.pow 2 63)
    else min (floorOf m q : Int) (Nat.pow 2 63 - 1)

/-- `x` rounded to the nearest whole number, a half away from zero, as a floating-point number. -/
def roundAway (x : Float) : Float :=
  match parts x with
  | ⟨negative, .finite m q⟩ =>
    if negative then -(ofNat (nearestOf m q)) else ofNat (nearestOf m q)
  | _ => x

/-- `x` held between `low` and `high`; a value that is no number stays as it is. -/
def clamp (low high x : Float) : Float :=
  if x < low then low else if high < x then high else x

end Storyboard.Number
