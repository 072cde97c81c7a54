import Storyboard.Text.Blank
import Storyboard.Number.Reading

/-! # Numeric hosts

    Addresses of 32 bits, written as one to four numbers, each in decimal,
    octal or hexadecimal, and addresses of 128 bits, written as pieces of 16
    bits with at most one run of zeros left out. -/

namespace Storyboard.Url

/-! ### Addresses of 32 bits -/

/-- The value of digits in a base, if they are digits in that base. -/
def digitsIn? (base : Nat) (cs : List Char) : Option Nat :=
  cs.foldl (fun n c => do
    let n ← n
    let d ← Number.hexValue? c
    if d < base then some (base * n + d) else none) (some 0)

/-- One number of an address: after `0x` in hexadecimal, after another `0` in octal. Nothing after
    that is zero. -/
def v4Number? : List Char → Option Nat
  | [] => none
  | '0' :: 'x' :: cs => digitsIn? 16 cs
  | '0' :: 'X' :: cs => digitsIn? 16 cs
  | '0' :: c :: cs => digitsIn? 8 (c :: cs)
  | cs => digitsIn? 10 cs

/-- The parts between the points, without an empty one at the end. -/
def v4Parts (cs : List Char) : List (List Char) :=
  let parts := Text.splitAtChar '.' cs
  if parts.getLast? = some [] then parts.dropLast else parts

/-- Whether a host has to be an address of 32 bits, because its last part is a number. -/
def endsInNumber (cs : List Char) : Bool :=
  match (v4Parts cs).getLast? with
  | none => false
  | some last => (!last.isEmpty && last.all Char.isDigit) || (v4Number? last).isSome

/-- An address of 32 bits. All numbers but the last are single bytes; the last one fills the
    rest. -/
def v4? (cs : List Char) : Option Nat := do
  let parts := v4Parts cs
  let numbers ← parts.mapM v4Number?
  let last ← numbers.getLast?
  let bytes := numbers.dropLast
  if 4 < parts.length || bytes.any (255 < ·) || Nat.pow 256 (4 - bytes.length) ≤ last then none
  else
    let high := bytes.foldl (fun n b => 256 * n + b) 0
    some (high * Nat.pow 256 (4 - bytes.length) + last)

/-! ### Addresses of 128 bits -/

/-- One piece of 16 bits. -/
def piece? (cs : List Char) : Option Nat :=
  if cs.isEmpty || 4 < cs.length then none else digitsIn? 16 cs

/-- One byte in decimal, without zeros in front. -/
def byte? (cs : List Char) : Option Nat :=
  match cs with
  | [] => none
  | '0' :: _ :: _ => none
  | cs => (digitsIn? 10 cs).filter (· < 256)

/-- The last two pieces, written as four bytes. -/
def bytePieces? (cs : List Char) : Option (List Nat) :=
  match (Text.splitAtChar '.' cs).mapM byte? with
  | some [a, b, c, d] => some [256 * a + b, 256 * c + d]
  | _ => none

/-- Pieces with colons between them; the last ones may be written as bytes. -/
def pieces? : List (List Char) → Option (List Nat)
  | [] => some []
  | [last] => if last.contains '.' then bytePieces? last else (piece? last).map ([·])
  | cs :: rest => do
    let p ← piece? cs
    let ps ← pieces? rest
    some (p :: ps)

/-- The groups between colons; an empty text has none. -/
def groups (cs : List Char) : List (List Char) :=
  if cs.isEmpty then [] else Text.splitAtChar ':' cs

/-- What stands before and after the first two colons in a row. -/
def cutAtZeros? : List Char → Option (List Char × List Char)
  | [] => none
  | ':' :: ':' :: rest => some ([], rest)
  | c :: rest => (cutAtZeros? rest).map fun (a, b) => (c :: a, b)

/-- An address of 128 bits. Two colons in a row stand for at least one piece. -/
def v6? (cs : List Char) : Option (List Nat) :=
  match cutAtZeros? cs with
  | none => (pieces? (groups cs)).filter (·.length == 8)
  | some (a, b) =>
    if a.contains '.' then none
    else do
      let left ← pieces? (groups a)
      let right ← pieces? (groups b)
      if left.length + right.length < 8 then
        some (left ++ List.replicate (8 - left.length - right.length) 0 ++ right)
      else none

end Storyboard.Url
