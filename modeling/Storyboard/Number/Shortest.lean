import Storyboard.Number.Binary

/-! # Shortest decimals

    The decimal with the fewest digits that still reads back as a given
    binary floating-point number, and of those the one nearest to it.

    The reals that read back as `m · 2 ^ q` form an interval around it, which
    holds its ends exactly when `m` is even. For one digit, two digits and so
    on, the two neighbours of the number on that decimal grid are tried; a
    grid that has a point in the interval has one of the two there. All is
    done in whole numbers. -/

namespace Storyboard.Number

/-- `0.d₁d₂…dₙ · 10 ^ point`, where `digits` is `d₁d₂…dₙ` read as a whole number. -/
structure Decimal where
  /-- The digits, first one not zero, last one not zero. -/
  digits : Nat
  /-- Where the point stands, counted from before the first digit. -/
  point  : Int
  deriving DecidableEq, Repr

/-- How many decimal digits `n` has. -/
def digitCount (n : Nat) : Nat := (Nat.toDigits 10 n).length

/-- The least `k` with `num / den < 10 ^ k`, for positive `num` and `den`. -/
def decimalPoint (num den : Nat) : Int :=
  let k : Int := (digitCount num : Int) - digitCount den
  let below := if k < 0 then num * Nat.pow 10 k.natAbs < den else num < den * Nat.pow 10 k.natAbs
  if below then k else k + 1

/-- Drop the zeros at the end of `n`; `fuel` bounds how many. -/
def stripZeros : Nat → Nat → Nat
  | 0, n => n
  | fuel + 1, n => if n ≠ 0 ∧ n % 10 = 0 then stripZeros fuel (n / 10) else n

/-- The interval of reals that read back as one number: all in the same unit. -/
structure Basin where
  /-- Lower end. -/
  low    : Nat
  /-- The number itself. -/
  centre : Nat
  /-- Upper end. -/
  high   : Nat
  /-- Whether the ends belong to it. -/
  closed : Bool

/-- The basin of `m · 2 ^ q` in units of `2 ^ (q - 2)`. The number below a power of two is half as
    far away as the one above it. -/
def Format.basin (f : Format) (m : Nat) (q : Int) : Basin :=
  { low    := 4 * m - (if m = Nat.pow 2 f.fractionBits ∧ f.leastExponent < q then 1 else 2)
    centre := 4 * m
    high   := 4 * m + 2
    closed := m % 2 == 0 }

/-- Whether `c / unit` lies in the basin, where one unit of the basin is `scale / unit`. -/
def Basin.holds (b : Basin) (scale c : Nat) : Bool :=
  if b.closed then b.low * scale ≤ c && c ≤ b.high * scale
  else b.low * scale < c && c < b.high * scale

/-- The grid point with `n` digits that reads back, if there is one: of the two neighbours of the
    number the one in the basin; if both are, the nearer one, and of two equally near the even one.
    `num / den` is one unit of the basin, and grid points are multiples of `10 ^ (k - n)`. -/
def Basin.gridPoint? (b : Basin) (num den : Nat) (k : Int) (n : Nat) : Option Nat :=
  let e := k - n
  let scale := if e < 0 then num * Nat.pow 10 e.natAbs else num
  let step := if e < 0 then den else den * Nat.pow 10 e.natAbs
  let v := b.centre * scale
  let d := v / step
  -- If any multiple of the step lies in the basin, then one of the two around its centre does.
  let lower := b.holds scale (d * step)
  let upper := b.holds scale ((d + 1) * step)
  if lower && upper then
    match compare (v - d * step) ((d + 1) * step - v) with
    | .lt => some d
    | .gt => some (d + 1)
    | .eq => some (if d % 2 = 0 then d else d + 1)
  else if lower then some d
  else if upper then some (d + 1)
  else none

/-- Try grids of `n`, `n + 1`, … digits; `fuel` bounds how many. -/
def Basin.search (b : Basin) (num den : Nat) (k : Int) : Nat → Nat → Decimal
  | 0, n => ⟨b.centre, k + n⟩
  | fuel + 1, n =>
    match b.gridPoint? num den k n with
    | some d => ⟨stripZeros 20 d, k - n + digitCount d⟩
    | none => b.search num den k fuel (n + 1)

/-- The shortest decimal that reads back as `m · 2 ^ q`, for positive `m`. Seventeen digits are
    enough for every format in use. -/
def Format.shortest (f : Format) (m : Nat) (q : Int) : Decimal :=
  let b := f.basin m q
  -- The basin counts in quarters of the last place.
  let e := q - 2
  let num := if e < 0 then 1 else Nat.pow 2 e.natAbs
  let den := if e < 0 then Nat.pow 2 e.natAbs else 1
  b.search num den (decimalPoint (b.centre * num) den) 17 1

end Storyboard.Number
