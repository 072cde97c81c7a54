import Storyboard.Json.Basic
import Storyboard.Number.Reading

/-! # Reading JSON

    `read?` accepts every JSON text. The value keeps the order and the repeats
    of object members. Some well-formed parts of a text have no value: a number
    beyond the greatest, a string with half a character in it, and whatever
    nests more than 127 deep. They leave a hole, which does no harm where
    nobody looks at it; `parse?` accepts only texts without holes.

    A number without point and exponent that fits 64 bits is an integer. For
    any other number the leading digits that fit 64 bits are rounded to a
    floating-point number, which is then multiplied or divided by a power of
    ten: two roundings, so the result can differ from the nearest number in
    the last place. -/

namespace Storyboard.Json

/-- The characters that may stand between tokens. -/
def isGap (c : Char) : Bool := c = ' ' || c = '\n' || c = '\t' || c = '\r'

/-- What follows the gap at the front. -/
def skipGap (cs : List Char) : List Char := cs.dropWhile isGap

/-! ### Numbers -/

/-- The greatest value of 64 bits. -/
def wordMax : Nat := Nat.pow 2 64 - 1

/-- Leading digits of a number and the power of ten that they stand before. -/
structure Leading where
  /-- The digits taken so far, as a whole number. -/
  digits   : Nat
  /-- The power of ten. -/
  exponent : Int
  /-- Whether a digit was left out. -/
  cut      : Bool

/-- Take digits of the whole part while they fit 64 bits; later ones only raise the power. -/
def Leading.takeWhole (l : Leading) : List Char → Leading
  | [] => l
  | c :: rest =>
    let n := 10 * l.digits + Number.digitValue c
    if l.cut || wordMax < n then
      Leading.takeWhole { l with exponent := l.exponent + 1, cut := true } rest
    else Leading.takeWhole { l with digits := n } rest

/-- Take digits after the point while they fit 64 bits, and none after that. -/
def Leading.takeFraction (l : Leading) : List Char → Leading
  | [] => l
  | c :: rest =>
    let n := 10 * l.digits + Number.digitValue c
    if wordMax < n then l
    else Leading.takeFraction { l with digits := n, exponent := l.exponent - 1 } rest

/-- `x · 10 ^ e` by one multiplication, or by divisions of at most 308 places each. The result is
    infinite when it is too great. Three divisions bring every 64-bit number to zero. -/
def scaleByTen (x : Float) (e : Int) : Nat → Float
  | 0 => x
  | fuel + 1 =>
    if x == 0.0 then x
    else if 308 < e then infinity
    else if 0 ≤ e then x * Number.ofRatio (Nat.pow 10 e.natAbs) 1
    else if -308 ≤ e then x / Number.ofRatio (Nat.pow 10 e.natAbs) 1
    else scaleByTen (x / Number.ofRatio (Nat.pow 10 308) 1) (e + 308) fuel

/-- The number for leading digits before a further power of ten. -/
def Leading.toNumber (l : Leading) (negative : Bool) (e : Int) : Json :=
  let x := scaleByTen (Number.ofRatio l.digits 1) (l.exponent + e) 4
  if x.isInf then hole else .float (if negative then -x else x)

/-- A number without point and exponent. -/
def Leading.toWhole (l : Leading) (negative : Bool) : Json :=
  if l.cut then l.toNumber negative 0
  else if !negative then .int l.digits
  else if l.digits = 0 then .float (-0.0)
  else if l.digits ≤ Nat.pow 2 63 then .int (-l.digits)
  else .float (-(Number.ofRatio l.digits 1))

/-- The power of ten after an `e`, and what follows it. -/
def readExponent? (cs : List Char) : Option (Int × List Char) :=
  let (negative, cs) := match cs with
    | '-' :: r => (true, r)
    | '+' :: r => (false, r)
    | r => (false, r)
  let (ds, rest) := Number.takeDigits cs
  if ds.isEmpty then none
  else
    let n : Int := Number.digitsValue ds
    some (if negative then -n else n, rest)

/-- The exponent of a number, if it has one, and what follows it. -/
def readPower? (negative : Bool) (l : Leading) : List Char → Option (Json × List Char)
  | c :: rest =>
    if c = 'e' || c = 'E' then
      (readExponent? rest).map fun (e, rest) => (l.toNumber negative e, rest)
    else some (l.toNumber negative 0, c :: rest)
  | [] => some (l.toNumber negative 0, [])

/-- What follows the whole part of a number: a fraction, an exponent, both or neither. -/
def readTail? (negative : Bool) (l : Leading) : List Char → Option (Json × List Char)
  | '.' :: rest =>
    let (ds, rest) := Number.takeDigits rest
    if ds.isEmpty then none else readPower? negative (l.takeFraction ds) rest
  | c :: rest =>
    if c = 'e' || c = 'E' then readPower? negative l (c :: rest)
    else some (l.toWhole negative, c :: rest)
  | [] => some (l.toWhole negative, [])

/-- A number: no zero in front of other digits. -/
def readNumber? (cs : List Char) : Option (Json × List Char) :=
  let (negative, cs) := match cs with
    | '-' :: r => (true, r)
    | r => (false, r)
  let (ds, rest) := Number.takeDigits cs
  match ds with
  | [] => none
  | '0' :: _ :: _ => none
  | _ => readTail? negative (Leading.takeWhole ⟨0, 0, false⟩ ds) rest

/-! ### Strings -/

/-- Four hexadecimal digits and what follows them. -/
def readUnit? : List Char → Option (Nat × List Char)
  | a :: b :: c :: d :: rest => do
    let a ← Number.hexValue? a
    let b ← Number.hexValue? b
    let c ← Number.hexValue? c
    let d ← Number.hexValue? d
    pure (a * 4096 + b * 256 + c * 16 + d, rest)
  | _ => none

/-- The character of a `\u` escape, and what follows it. A character outside the first plane takes
    two escapes, one for each half; a half alone is refused. -/
def readEscapedUnits? (cs : List Char) : Option (Char × List Char) := do
  let (u, rest) ← readUnit? cs
  if 0xDC00 ≤ u ∧ u ≤ 0xDFFF then none
  else if 0xD800 ≤ u ∧ u ≤ 0xDBFF then
    match rest with
    | '\\' :: 'u' :: rest =>
      let (v, rest) ← readUnit? rest
      if 0xDC00 ≤ v ∧ v ≤ 0xDFFF then
        pure (Char.ofNat (0x10000 + (u - 0xD800) * 0x400 + (v - 0xDC00)), rest)
      else none
    | _ => none
  else pure (Char.ofNat u, rest)

/-- The rest of a string after its opening quote, and what follows the closing one; no string if
    half a character was found in it. `taken` holds the characters read so far, the last one first,
    and `whole` tells that there are no halves among them. -/
def readString? (taken : List Char) (whole : Bool) :
    Nat → List Char → Option (Option String × List Char)
  | 0, _ => none
  | fuel + 1, cs =>
    match cs with
    | [] => none
    | '"' :: rest => some (if whole then some (String.ofList taken.reverse) else none, rest)
    | '\\' :: c :: rest =>
      match c with
      | '"' => readString? ('"' :: taken) whole fuel rest
      | '\\' => readString? ('\\' :: taken) whole fuel rest
      | '/' => readString? ('/' :: taken) whole fuel rest
      | 'b' => readString? ('\x08' :: taken) whole fuel rest
      | 'f' => readString? ('\x0c' :: taken) whole fuel rest
      | 'n' => readString? ('\n' :: taken) whole fuel rest
      | 'r' => readString? ('\r' :: taken) whole fuel rest
      | 't' => readString? ('\t' :: taken) whole fuel rest
      | 'u' =>
        -- Half a character is passed over, and the string is spoilt by it but read to its end.
        match readEscapedUnits? rest, readUnit? rest with
        | some (c, rest), _ => readString? (c :: taken) whole fuel rest
        | none, some (_, rest) => readString? taken false fuel rest
        | none, none => none
      | _ => none
    | c :: rest => if c.toNat < 0x20 then none else readString? (c :: taken) whole fuel rest

/-- A string after its opening quote, and what follows the closing one. `fuel` bounds the steps; the
    characters that are left are enough. -/
def readText? (fuel : Nat) (cs : List Char) : Option (Option String × List Char) :=
  readString? [] true fuel cs

/-! ### Values -/

/-- How deep arrays and objects may nest. -/
def depthLimit : Nat := 127

/-- A container when it may still nest `depth` deep. -/
def nested (depth : Nat) (v : Json) : Json := if depth = 0 then hole else v

/-- An object; a key that is no string makes a hole of it. -/
def ofMembers (members : List (Option String × Json)) : Json :=
  match members.mapM fun m => m.1.map fun k => (k, m.2) with
  | some members => .obj members
  | none => hole

mutual

/-- A value and what follows it. `fuel` bounds the steps and `depth` the nesting. -/
def readValue? : Nat → Nat → List Char → Option (Json × List Char)
  | 0, _, _ => none
  | fuel + 1, depth, cs =>
    match skipGap cs with
    | 'n' :: 'u' :: 'l' :: 'l' :: rest => some (.null, rest)
    | 't' :: 'r' :: 'u' :: 'e' :: rest => some (.bool true, rest)
    | 'f' :: 'a' :: 'l' :: 's' :: 'e' :: rest => some (.bool false, rest)
    | '"' :: rest =>
      (readText? (fuel + 1) rest).map fun (s, rest) => ((s.map Json.str).getD hole, rest)
    | '[' :: rest =>
      match skipGap rest with
      | ']' :: rest => some (nested depth (.arr []), rest)
      | rest =>
        (readItems? fuel (depth - 1) [] rest).map fun (items, rest) =>
          (nested depth (.arr items), rest)
    | '{' :: rest =>
      match skipGap rest with
      | '}' :: rest => some (nested depth (.obj []), rest)
      | rest =>
        (readMembers? fuel (depth - 1) [] rest).map fun (members, rest) =>
          (nested depth (ofMembers members), rest)
    | cs => readNumber? cs

/-- The items of an array up to its closing bracket. -/
def readItems? : Nat → Nat → List Json → List Char → Option (List Json × List Char)
  | 0, _, _, _ => none
  | fuel + 1, depth, taken, cs =>
    match readValue? fuel depth cs with
    | none => none
    | some (v, rest) =>
      match skipGap rest with
      | ',' :: rest => readItems? fuel depth (v :: taken) rest
      | ']' :: rest => some ((v :: taken).reverse, rest)
      | _ => none

/-- The members of an object up to its closing brace. -/
def readMembers? : Nat → Nat → List (Option String × Json) → List Char →
    Option (List (Option String × Json) × List Char)
  | 0, _, _, _ => none
  | fuel + 1, depth, taken, cs =>
    match skipGap cs with
    | '"' :: rest =>
      match readText? (fuel + 1) rest with
      | none => none
      | some (k, rest) =>
        match skipGap rest with
        | ':' :: rest =>
          match readValue? fuel depth rest with
          | none => none
          | some (v, rest) =>
            match skipGap rest with
            | ',' :: rest => readMembers? fuel depth ((k, v) :: taken) rest
            | '}' :: rest => some (((k, v) :: taken).reverse, rest)
            | _ => none
        | _ => none
    | _ => none

end

/-- The value of a JSON text with its holes, or nothing if the text is no JSON. Every second step
    takes a character, so twice the length is enough fuel. -/
def read? (s : String) : Option Json :=
  let cs := s.toList
  match readValue? (2 * cs.length + 2) depthLimit cs with
  | some (v, rest) => if (skipGap rest).isEmpty then some v else none
  | none => none

/-- The value of a JSON text, or nothing if the text is no JSON or a part of it has no value. -/
def parse? (s : String) : Option Json := (read? s).filter isWhole

end Storyboard.Json
