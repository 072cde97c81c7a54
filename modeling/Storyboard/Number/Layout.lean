import Storyboard.Number.Shortest
import Storyboard.Number.Rounding

/-! # Writing numbers

    A layout says how the shortest decimal of a number is set out: when the
    digits stand around a point and when in front of a power of ten, and what
    marks a whole number. The library uses two: `plain` for texts people read
    and `data` for JSON. -/

namespace Storyboard.Number

/-- How a number is set out. -/
structure Layout where
  /-- Whether a decimal whose point stands here is written without a power of ten. -/
  positional : Int → Bool
  /-- What follows a whole number. -/
  wholeMark  : List Char
  /-- What is written for a value that is no number. -/
  undefined  : List Char
  /-- What is written for an infinity, after its sign. -/
  infinite   : List Char

/-- Never a power of ten and no mark after whole numbers. -/
def Layout.plain : Layout :=
  { positional := fun _ => true
    wholeMark  := []
    undefined  := "NaN".toList
    infinite   := "inf".toList }

/-- Powers of ten for numbers of more than sixteen whole digits and for fractions with five or more
    zeros after the point; whole numbers keep one digit after the point; and `null` where JSON
    has no number. -/
def Layout.data : Layout :=
  { positional := fun k => -5 < k && k ≤ 16
    wholeMark  := ".0".toList
    undefined  := "null".toList
    infinite   := "null".toList }

/-- The decimal digits of `n`. -/
def natDigits (n : Nat) : List Char := Nat.toDigits 10 n

/-- The decimal digits of `n` as a text. -/
def natText (n : Nat) : String := String.ofList (natDigits n)

/-- The decimal digits of `i`, after a minus sign if it is negative. -/
def intDigits (i : Int) : List Char :=
  if i < 0 then '-' :: natDigits i.natAbs else natDigits i.natAbs

namespace Layout

/-- The digits of `d` around a point. -/
def setPositional (l : Layout) (d : Decimal) : List Char :=
  let ds := natDigits d.digits
  if d.point ≤ 0 then '0' :: '.' :: (List.replicate d.point.natAbs '0' ++ ds)
  else if ds.length ≤ d.point.natAbs then
    ds ++ List.replicate (d.point.natAbs - ds.length) '0' ++ l.wholeMark
  else ds.take d.point.natAbs ++ '.' :: ds.drop d.point.natAbs

/-- The digits of `d` in front of a power of ten whose sign is always written. -/
def setScientific (d : Decimal) : List Char :=
  let mantissa := match natDigits d.digits with
    | [] => []
    | [c] => [c]
    | c :: cs => c :: '.' :: cs
  let e := d.point - 1
  mantissa ++ 'e' :: (if e < 0 then '-' else '+') :: natDigits e.natAbs

/-- A decimal in this layout. -/
def set (l : Layout) (d : Decimal) : List Char :=
  if l.positional d.point then l.setPositional d else setScientific d

/-- A number in this layout. -/
def write (l : Layout) (f : Format) (p : Parts) : List Char :=
  let size := match p.magnitude with
    | .undefined => l.undefined
    | .infinite => l.infinite
    | .finite m q => if m = 0 then '0' :: l.wholeMark else l.set (f.shortest m q)
  if p.negative && p.magnitude != .undefined then '-' :: size else size

end Layout

/-- `x` as people read it: the shortest digits, never a power of ten. -/
def plainText (x : Float) : String :=
  String.ofList (Layout.plain.write .double (parts x))

/-- `x` with the digits that single precision needs. -/
def plainText32 (x : Float32) : String :=
  String.ofList (Layout.plain.write .single (parts32 x))

/-- `x` as JSON writes a number that is not an integer. -/
def dataText (x : Float) : List Char :=
  if x.isFinite then Layout.data.write .double (parts x) else Layout.data.undefined

/-! ### Three places -/

/-- `x` rounded to three places, a half away from zero, for coordinates in a drawing: whole values
    without a point, and a whole value beyond 64 bits at the nearest end of their range. -/
def drawingText (x : Float) : List Char :=
  let r := roundAway (x * 1000.0) / 1000.0
  if isWhole r || r.isInf then intDigits (truncateToWord r)
  else Layout.plain.write .double (parts r)

end Storyboard.Number
