import Storyboard.Json.Basic
import Storyboard.Number.Reading

/-! # Scalars of TOML

    Truth values, whole numbers in four bases, floating-point numbers, dates
    and times. Digits may be grouped with underscores, each between two
    digits. -/

namespace Storyboard.Toml

/-- The characters of which scalars consist. -/
def isScalarChar (c : Char) : Bool := c.isAlphanum || ['_', '+', '-', '.', ':'].contains c

/-- Digits without the underscores between them, if all that is left are digits. -/
def ungroup? (isDigit : Char → Bool) : List Char → Option (List Char)
  | [] => none
  | [c] => if isDigit c then some [c] else none
  | c :: '_' :: rest => if isDigit c then (ungroup? isDigit rest).map (c :: ·) else none
  | c :: rest => if isDigit c then (ungroup? isDigit rest).map (c :: ·) else none

/-- A sign in front, and what follows it. -/
def cutSign : List Char → List Char × List Char
  | '-' :: rest => (['-'], rest)
  | '+' :: rest => ([], rest)
  | cs => ([], cs)

/-- Decimal digits with no zero in front of others. -/
def wholePart? (cs : List Char) : Option (List Char) :=
  match ungroup? Char.isDigit cs with
  | some ('0' :: _ :: _) => none
  | ds => ds

/-- Whole numbers have to fit 64 bits, signed or not. -/
def boundInt? (i : Int) : Option Json :=
  if -Nat.pow 2 63 ≤ i ∧ i < Nat.pow 2 64 then some (.int i) else none

/-- Digits in a base other than ten. -/
def based? (base : Nat) (cs : List Char) : Option Json := do
  let isDigit (c : Char) : Bool := (Number.hexValue? c).any (· < base)
  let ds ← ungroup? isDigit cs
  boundInt? (ds.foldl (fun n c => base * n + (Number.hexValue? c).getD 0) 0 : Nat)

/-- A whole number. -/
def integer? : List Char → Option Json
  | '0' :: 'x' :: cs => based? 16 cs
  | '0' :: 'o' :: cs => based? 8 cs
  | '0' :: 'b' :: cs => based? 2 cs
  | cs => do
    let (sign, cs) := cutSign cs
    let n : Int := Number.digitsValue (← wholePart? cs)
    boundInt? (if sign.isEmpty then n else -n)

/-- The power of ten after an `e`. -/
def power? (cs : List Char) : Option (List Char) := do
  let (sign, cs) := cutSign cs
  some ('e' :: sign ++ (← ungroup? Char.isDigit cs))

/-- What follows the whole part of a floating-point number. -/
def fraction? : List Char → Option (List Char)
  | '.' :: cs => do
    let isMark (c : Char) : Bool := c = 'e' || c = 'E'
    let ds ← ungroup? Char.isDigit (cs.takeWhile (!isMark ·))
    match cs.dropWhile (!isMark ·) with
    | [] => some ('.' :: ds)
    | _ :: power => some ('.' :: ds ++ (← power? power))
  | 'e' :: cs => power? cs
  | 'E' :: cs => power? cs
  | _ => none

/-- A floating-point number; one beyond the greatest is refused. -/
def float? (cs : List Char) : Option Json := do
  let (sign, cs) := cutSign cs
  if cs = "inf".toList || cs = "nan".toList then
    (Number.float? (String.ofList (sign ++ cs))).map .float
  else
    let isPart (c : Char) : Bool := c.isDigit || c = '_'
    let whole ← wholePart? (cs.takeWhile isPart)
    let rest ← fraction? (cs.dropWhile isPart)
    let x ← Number.float? (String.ofList (sign ++ whole ++ rest))
    if x.isFinite then some (.float x) else none

/-! ### Dates and times -/

/-- A number of exactly so many digits between two bounds, and what follows it. -/
def field? (digits low high : Nat) (cs : List Char) : Option (Nat × List Char) :=
  let ds := cs.take digits
  let n := Number.digitsValue ds
  if ds.length = digits && ds.all Char.isDigit && low ≤ n && n ≤ high then some (n, cs.drop digits)
  else none

/-- What follows a character at the front. -/
def after? (c : Char) : List Char → Option (List Char)
  | d :: rest => if c = d then some rest else none
  | [] => none

/-- The last day of a month. -/
def lastDay (year month : Nat) : Nat :=
  if month = 2 then (if year % 4 = 0 && (year % 100 ≠ 0 || year % 400 = 0) then 29 else 28)
  else if [4, 6, 9, 11].contains month then 30
  else 31

/-- What follows a date. -/
def afterDate? (cs : List Char) : Option (List Char) := do
  let (year, cs) ← field? 4 0 9999 cs
  let (month, cs) ← field? 2 1 12 (← after? '-' cs)
  let (_, cs) ← field? 2 1 (lastDay year month) (← after? '-' cs)
  some cs

/-- What follows the seconds of a time, if it has any. -/
def afterSeconds? : List Char → Option (List Char)
  | ':' :: cs => do
    let (_, cs) ← field? 2 0 60 cs
    match cs with
    | '.' :: rest =>
      if (rest.takeWhile Char.isDigit).isEmpty then none else some (rest.dropWhile Char.isDigit)
    | _ => some cs
  | cs => some cs

/-- What follows a time. -/
def afterTime? (cs : List Char) : Option (List Char) := do
  let (_, cs) ← field? 2 0 23 cs
  let (_, cs) ← field? 2 0 59 (← after? ':' cs)
  afterSeconds? cs

/-- Whether nothing or the offset of a time zone is left. -/
def isOffset : List Char → Bool
  | [] => true
  | ['Z'] => true
  | ['z'] => true
  | c :: cs =>
    (c = '+' || c = '-') && ((do
      let (_, cs) ← field? 2 0 23 cs
      let (_, cs) ← field? 2 0 59 (← after? ':' cs)
      some cs) == some [])

/-- Whether a date stands there alone or a time after it. -/
def isDate (cs : List Char) : Bool :=
  match afterDate? cs with
  | none => false
  | some [] => true
  | some (c :: cs) => (c = 'T' || c = 't' || c = ' ') && (afterTime? cs).any isOffset

/-- Whether a time stands there alone. -/
def isTime (cs : List Char) : Bool := afterTime? cs == some []

/-- The key under which a date or time is held as an object. -/
def dateKey : String := "$date"

/-- A date, a time or both. -/
def date? (cs : List Char) : Option Json :=
  if isDate cs || isTime cs then some (.obj [(dateKey, .str (String.ofList cs))]) else none

/-- The value of a scalar. -/
def scalar? (cs : List Char) : Option Json :=
  if cs = "true".toList then some (.bool true)
  else if cs = "false".toList then some (.bool false)
  else (integer? cs).or ((float? cs).or (date? cs))

end Storyboard.Toml
