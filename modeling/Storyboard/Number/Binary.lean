/-! # Binary floating point, taken apart

    A binary floating-point number is a sign and either `m · 2 ^ q` for whole
    numbers `m` and `q`, an infinity, or no number at all. `decode` reads the
    parts off the bits; `nearest` finds the bits of the number nearest to a
    fraction, so both directions are plain arithmetic on whole numbers. -/

namespace Storyboard.Number

/-- The widths of the fields of a binary format. -/
structure Format where
  /-- Bits of the fraction. -/
  fractionBits : Nat
  /-- Bits of the exponent. -/
  exponentBits : Nat

namespace Format

/-- The format of `Float`. -/
def double : Format := ⟨52, 11⟩

/-- The format of `Float32`. -/
def single : Format := ⟨23, 8⟩

/-- The exponent field of infinities and of the values that are no number. -/
def topExponent (f : Format) : Nat := Nat.pow 2 f.exponentBits - 1

/-- The exponent of the last bit of the smallest numbers. -/
def leastExponent (f : Format) : Int := 2 - Nat.pow 2 (f.exponentBits - 1) - f.fractionBits

end Format

/-- The size of a floating-point number. -/
inductive Magnitude where
  /-- `m · 2 ^ q` -/
  | finite (m : Nat) (q : Int)
  /-- Greater than every finite number. -/
  | infinite
  /-- Not a number. -/
  | undefined
  deriving DecidableEq, Repr

/-- A floating-point number, taken apart. -/
structure Parts where
  /-- Whether the sign bit is set. -/
  negative  : Bool
  /-- The size. -/
  magnitude : Magnitude
  deriving DecidableEq, Repr

/-- The parts of the number with these bits. -/
def Format.decode (f : Format) (bits : Nat) : Parts :=
  let fraction := bits % Nat.pow 2 f.fractionBits
  let exponent := bits / Nat.pow 2 f.fractionBits % Nat.pow 2 f.exponentBits
  { negative := bits / Nat.pow 2 (f.fractionBits + f.exponentBits) % 2 == 1
    magnitude :=
      if exponent = f.topExponent then
        if fraction = 0 then .infinite else .undefined
      else if exponent = 0 then .finite fraction f.leastExponent
      else .finite (fraction + Nat.pow 2 f.fractionBits) (f.leastExponent + (exponent - 1 : Nat)) }

/-- The parts of a `Float`. -/
def parts (x : Float) : Parts := Format.double.decode x.toBits.toNat

/-- The parts of a `Float32`. -/
def parts32 (x : Float32) : Parts := Format.single.decode x.toBits.toNat

/-! ### Rounding -/

/-- `num / den` rounded to the nearest whole number, a half to the even one. -/
def roundDiv (num den : Nat) : Nat :=
  let q := num / den
  let r := num % den
  if den < 2 * r || (2 * r == den && q % 2 == 1) then q + 1 else q

/-- `num / den · 2 ^ -q` as a fraction of whole numbers. -/
def scaleDown (num den : Nat) (q : Int) : Nat × Nat :=
  if q < 0 then (num * Nat.pow 2 q.natAbs, den) else (num, den * Nat.pow 2 q.natAbs)

/-- The greatest `e` with `2 ^ e ≤ num / den`, for positive `num` and `den`. -/
def floorLog2 (num den : Nat) : Int :=
  let e : Int := (num.log2 : Int) - den.log2
  let (n, d) := scaleDown num den e
  if d ≤ n then e else e - 1

/-- The bits of the number nearest to `num / den`: a tie goes to the even fraction, and what lies
    beyond the greatest finite number becomes infinite. -/
def Format.nearest (f : Format) (num den : Nat) : Nat :=
  if num = 0 then 0
  else
    let q := max (floorLog2 num den - f.fractionBits) f.leastExponent
    let (n, d) := scaleDown num den q
    let m := roundDiv n d
    -- The hidden bit of a normal number raises the exponent by one, as does a fraction that was
    -- rounded up to the next power of two; the sum takes care of both.
    let bits :=
      if m < Nat.pow 2 f.fractionBits then m
      else (q - f.leastExponent).toNat * Nat.pow 2 f.fractionBits + m
    min bits (f.topExponent * Nat.pow 2 f.fractionBits)

/-- The bits of the number nearest to `digits · 10 ^ exponent`. Exponents far outside the range of
    floating point are settled by their size. -/
def Format.nearestDecimal (f : Format) (digits : Nat) (exponent : Int) : Nat :=
  let top := exponent + (Nat.toDigits 10 digits).length
  if digits = 0 then 0
  else if 400 < top then f.topExponent * Nat.pow 2 f.fractionBits
  else if top < -400 then 0
  else if exponent < 0 then f.nearest digits (Nat.pow 10 exponent.natAbs)
  else f.nearest (digits * Nat.pow 10 exponent.natAbs) 1

/-- The `Float` nearest to `num / den`. -/
def ofRatio (num den : Nat) : Float :=
  Float.ofBits (UInt64.ofNat (Format.double.nearest num den))

/-- The `Float` nearest to `digits · 10 ^ exponent`. -/
def ofDecimal (digits : Nat) (exponent : Int) : Float :=
  Float.ofBits (UInt64.ofNat (Format.double.nearestDecimal digits exponent))

/-- The `Float32` nearest to `digits · 10 ^ exponent`. -/
def ofDecimal32 (digits : Nat) (exponent : Int) : Float32 :=
  Float32.ofBits (UInt32.ofNat (Format.single.nearestDecimal digits exponent))

end Storyboard.Number
