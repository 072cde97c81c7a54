/-! # Punycode

    How a label of a name with characters outside ASCII is written in ASCII:
    first its ASCII characters, then, for the other characters in the order of
    their code points, how far each one is from the one before, as numbers of
    variable length in base 36. -/

namespace Storyboard.Url.Punycode

/-- The digit for a number below 36. -/
def digit (d : Nat) : Char :=
  if d < 26 then Char.ofNat ('a'.toNat + d) else Char.ofNat ('0'.toNat + d - 26)

/-- The number that a digit stands for. -/
def value? (c : Char) : Option Nat :=
  if 'a' ≤ c && c ≤ 'z' then some (c.toNat - 'a'.toNat)
  else if 'A' ≤ c && c ≤ 'Z' then some (c.toNat - 'A'.toNat)
  else if '0' ≤ c && c ≤ '9' then some (c.toNat - '0'.toNat + 26)
  else none

/-- Below which value the digit at a place ends a number. -/
def threshold (bias place : Nat) : Nat := max 1 (min 26 (36 * place - bias))

/-- The part of the bias that comes from the size of a distance; `fuel` bounds its digits. -/
def spread : Nat → Nat → Nat → Nat
  | 0, k, _ => k
  | fuel + 1, k, d => if 455 < d then spread fuel (k + 36) (d / 35) else k + 36 * d / (d + 38)

/-- The bias after a distance, the first one or a later one, when `count` characters are placed. -/
def adapt (distance count : Nat) (first : Bool) : Nat :=
  let d := if first then distance / 700 else distance / 2
  let d := d + d / count
  spread d 0 d

/-! ### Encoding -/

/-- The digits of a distance from a place on; `fuel` bounds how many. -/
def digits (bias : Nat) : Nat → Nat → Nat → List Char
  | 0, _, _ => []
  | fuel + 1, place, d =>
    let t := threshold bias place
    if d < t then [digit d]
    else digit (t + (d - t) % (36 - t)) :: digits bias fuel (place + 1) ((d - t) / (36 - t))

/-- How far an encoding is. -/
structure State where
  /-- The digits written so far. -/
  written  : List Char
  /-- The distance since the last character. -/
  distance : Nat
  bias     : Nat
  /-- How many characters are placed. -/
  placed   : Nat

/-- Go past a character when those with code point `n` are placed; `ascii` characters were there
    at first. -/
def pass (ascii n : Nat) (s : State) (c : Char) : State :=
  if c.toNat < n then { s with distance := s.distance + 1 }
  else if c.toNat = n then
    { written := s.written ++ digits s.bias (s.distance + 1) 1 s.distance
      distance := 0
      bias := adapt s.distance (s.placed + 1) (s.placed == ascii)
      placed := s.placed + 1 }
  else s

/-- Place the characters with each of the code points, where `n` is the first one not looked at. -/
def place (label : List Char) (ascii : Nat) : Nat → State → List Nat → State
  | _, s, [] => s
  | n, s, m :: rest =>
    let s := { s with distance := s.distance + (m - n) * (s.placed + 1) }
    let s := label.foldl (pass ascii m) s
    place label ascii (m + 1) { s with distance := s.distance + 1 } rest

/-- A label in ASCII, without the mark in front. -/
def encode (label : List Char) : List Char :=
  let ascii := label.filter (·.toNat < 128)
  -- Characters are placed by code point, all the places of one before the next.
  let others := ((label.map (·.toNat)).filter (128 ≤ ·)).mergeSort.eraseDups
  let start : State := ⟨[], 0, 72, ascii.length⟩
  ascii ++ (if ascii.isEmpty then [] else ['-']) ++
    (place label ascii.length 128 start others).written

/-! ### Decoding -/

/-- Read a distance: what it adds to `sum`, and the digits after it. -/
def distance? (bias : Nat) (sum weight : Nat) : Nat → List Char → Option (Nat × List Char)
  | _, [] => none
  | place, c :: rest => do
    let d ← value? c
    let t := threshold bias place
    let sum := sum + d * weight
    if d < t then some (sum, rest) else distance? bias sum (weight * (36 - t)) (place + 1) rest

/-- Put the other characters in their places. `i` and `n` tell where the last one went and which it
    was; `fuel` bounds how many there are. -/
def fill? : Nat → List Char → Nat → Nat → Nat → List Char → Option (List Char)
  | _, label, _, _, _, [] => some label
  | 0, _, _, _, _, _ => none
  | fuel + 1, label, i, n, bias, cs => do
    let (j, rest) ← distance? bias i 1 1 cs
    let count := label.length + 1
    let n := n + j / count
    if 0x10FFFF < n || (0xD800 ≤ n && n ≤ 0xDFFF) then none
    else
      let spot := j % count
      let label := label.take spot ++ Char.ofNat n :: label.drop spot
      fill? fuel label (spot + 1) n (adapt (j - i) count (i == 0)) rest

/-- The label that an ASCII form without its mark stands for. -/
def decode? (cs : List Char) : Option (List Char) :=
  let (ascii, rest) :=
    if cs.contains '-' then
      let tail := (cs.reverse.takeWhile (· != '-')).reverse
      (cs.take (cs.length - tail.length - 1), tail)
    else ([], cs)
  if ascii.all (·.toNat < 128) then fill? rest.length ascii 0 128 72 rest else none

end Storyboard.Url.Punycode
