import Storyboard.Number.Binary

/-! # Reading numbers

    Two ways to read a number from text. `float?` reads the form people
    write: an optional sign, digits with an optional point on either side of
    them, an optional power of ten, or the name of an infinity or of the value
    that is no number; the result is the nearest floating-point number, and
    `float32?` finds the nearest one in single precision. `natural?` reads
    digits alone. -/

namespace Storyboard.Number

/-- The value of a decimal digit. -/
def digitValue (c : Char) : Nat := c.toNat - '0'.toNat

/-- The value of a run of decimal digits. -/
def digitsValue (cs : List Char) : Nat := cs.foldl (fun n c => 10 * n + digitValue c) 0

/-- The leading run of decimal digits and what follows it. -/
def takeDigits (cs : List Char) : List Char × List Char :=
  (cs.takeWhile Char.isDigit, cs.dropWhile Char.isDigit)

/-- The power of ten at the end of a number: nothing, or an `e` with an optional sign and at least
    one digit, and nothing after it. -/
def exponent? : List Char → Option Int
  | [] => some 0
  | c :: rest =>
    if c = 'e' || c = 'E' then
      let (negative, ds) := match rest with
        | '-' :: r => (true, r)
        | '+' :: r => (false, r)
        | r => (false, r)
      if !ds.isEmpty && ds.all Char.isDigit then
        let n : Int := digitsValue ds
        some (if negative then -n else n)
      else none
    else none

/-- A number without its sign, as it is spelled. -/
inductive Spelling where
  | infinite
  | undefined
  /-- `digits · 10 ^ exponent` -/
  | decimal (digits : Nat) (exponent : Int)
  deriving DecidableEq, Repr

/-- How a number without its sign is spelled. -/
def Spelling.ofList? (cs : List Char) : Option Spelling :=
  let name := String.ofList (cs.map Char.toLower)
  if name == "inf" || name == "infinity" then some .infinite
  else if name == "nan" then some .undefined
  else
    let (whole, rest) := takeDigits cs
    let (fraction, rest) := match rest with
      | '.' :: r => takeDigits r
      | r => ([], r)
    if whole.isEmpty && fraction.isEmpty then none
    else (exponent? rest).map fun e =>
      .decimal (digitsValue (whole ++ fraction)) (e - fraction.length)

/-- The sign of a number, set for a minus, and the rest of its spelling. -/
def spelled? (s : String) : Option (Bool × Spelling) :=
  match s.toList with
  | '-' :: cs => (Spelling.ofList? cs).map (true, ·)
  | '+' :: cs => (Spelling.ofList? cs).map (false, ·)
  | cs => (Spelling.ofList? cs).map (false, ·)

/-- The number that is spelled. -/
def Spelling.float : Spelling → Float
  | .infinite => 1.0 / 0.0
  | .undefined => 0.0 / 0.0
  | .decimal digits exponent => ofDecimal digits exponent

/-- The number that is spelled, in single precision. -/
def Spelling.float32 : Spelling → Float32
  | .infinite => 1.0 / 0.0
  | .undefined => 0.0 / 0.0
  | .decimal digits exponent => ofDecimal32 digits exponent

/-- A number as people write it. -/
def float? (s : String) : Option Float :=
  (spelled? s).map fun (negative, n) => if negative then -n.float else n.float

/-- A number as people write it, in single precision. -/
def float32? (s : String) : Option Float32 :=
  (spelled? s).map fun (negative, n) => if negative then -n.float32 else n.float32

/-- A whole number in decimal digits, after an optional plus sign. -/
def natural? (s : String) : Option Nat :=
  let ds := match s.toList with
    | '+' :: cs => cs
    | cs => cs
  if !ds.isEmpty && ds.all Char.isDigit then some (digitsValue ds) else none

/-- The value of a hexadecimal digit. -/
def hexValue? (c : Char) : Option Nat :=
  if '0' ≤ c && c ≤ '9' then some (c.toNat - '0'.toNat)
  else if 'a' ≤ c && c ≤ 'f' then some (c.toNat - 'a'.toNat + 10)
  else if 'A' ≤ c && c ≤ 'F' then some (c.toNat - 'A'.toNat + 10)
  else none

end Storyboard.Number
