import Storyboard.Text.Blank
import Storyboard.Url.Punycode

/-! # Names of hosts

    A name is folded before it is looked up: letters become small, forms made
    for typesetting become plain ones, and some characters are refused. Then
    every label with characters outside ASCII takes its ASCII form. Foldings
    are known for the European alphabets, general punctuation and the wide
    forms; other characters stand for themselves. -/

namespace Storyboard.Url

/-- What becomes of a range of characters. -/
inductive Folding where
  /-- They are refused. -/
  | refused
  /-- They are left out. -/
  | dropped
  /-- Their code points move by a distance. -/
  | shifted (distance : Int)
  /-- Every other one, beginning with the first, becomes the next one. -/
  | paired
  /-- They are spelled in other characters. -/
  | spelled (s : List Char)
  deriving DecidableEq, Repr, Inhabited

/-- The ranges of code points outside ASCII that do not stand for themselves, in increasing
    order. -/
def foldings : List (Nat × Nat × Folding) := [
  (0x80, 0xA0, .refused), (0xA8, 0xA8, .refused), (0xAA, 0xAA, .spelled ['a']),
  (0xAD, 0xAD, .dropped), (0xAF, 0xAF, .refused), (0xB2, 0xB3, .shifted (-128)),
  (0xB4, 0xB4, .refused), (0xB5, 0xB5, .shifted 775), (0xB8, 0xB8, .refused),
  (0xB9, 0xB9, .spelled ['1']), (0xBA, 0xBA, .spelled ['o']),
  (0xBC, 0xBC, .spelled ['1', '\u2044', '4']), (0xBD, 0xBD, .spelled ['1', '\u2044', '2']),
  (0xBE, 0xBE, .spelled ['3', '\u2044', '4']), (0xC0, 0xD6, .shifted 32),
  (0xD8, 0xDE, .shifted 32), (0x100, 0x12F, .paired), (0x130, 0x130, .spelled ['i', '\u0307']),
  (0x132, 0x133, .spelled ['i', 'j']), (0x134, 0x137, .paired), (0x139, 0x13E, .paired),
  (0x13F, 0x140, .spelled ['l', '\u00b7']), (0x141, 0x148, .paired),
  (0x149, 0x149, .spelled ['\u02bc', 'n']), (0x14A, 0x177, .paired),
  (0x178, 0x178, .shifted (-121)), (0x179, 0x17E, .paired), (0x17F, 0x17F, .spelled ['s']),
  (0x1CD, 0x1DC, .paired), (0x1DE, 0x1EF, .paired), (0x1F8, 0x21F, .paired),
  (0x222, 0x233, .paired), (0x246, 0x24F, .paired), (0x386, 0x386, .shifted 38),
  (0x388, 0x38A, .shifted 37), (0x38C, 0x38C, .shifted 64), (0x38E, 0x38F, .shifted 63),
  (0x391, 0x3A1, .shifted 32), (0x3A3, 0x3AB, .shifted 32), (0x3D8, 0x3EF, .paired),
  (0x400, 0x40F, .shifted 80), (0x410, 0x42F, .shifted 32), (0x460, 0x481, .paired),
  (0x48A, 0x4BF, .paired), (0x4C1, 0x4CE, .paired), (0x4D0, 0x52F, .paired),
  (0x531, 0x556, .shifted 48), (0x1E00, 0x1E95, .paired), (0x1E9E, 0x1E9E, .spelled ['s', 's']),
  (0x1EA0, 0x1EFF, .paired), (0x2000, 0x200A, .refused), (0x200B, 0x200B, .dropped),
  (0x200C, 0x200F, .refused), (0x2011, 0x2011, .shifted (-1)), (0x2017, 0x2017, .refused),
  (0x2024, 0x2026, .refused), (0x2028, 0x202F, .refused), (0x203E, 0x203E, .refused),
  (0x2047, 0x2049, .refused), (0x205F, 0x205F, .refused), (0x2060, 0x2060, .dropped),
  (0x2061, 0x2063, .refused), (0x2064, 0x2064, .dropped), (0x2065, 0x206F, .refused),
  (0x3000, 0x3000, .refused), (0x3002, 0x3002, .spelled ['.']), (0xE000, 0xF8FF, .refused),
  (0xFE00, 0xFE0F, .dropped), (0xFEFF, 0xFEFF, .dropped), (0xFF01, 0xFF20, .shifted (-65248)),
  (0xFF21, 0xFF3A, .shifted (-65216)), (0xFF3B, 0xFF5E, .shifted (-65248)),
  (0xFF61, 0xFF61, .spelled ['.']), (0xFFF0, 0xFFFF, .refused), (0xE0000, 0x10FFFF, .refused)]

/-- What becomes of a character outside ASCII, if it does not stand for itself. -/
def folding? (n : Nat) : List (Nat × Nat × Folding) → Option (Nat × Folding)
  | [] => none
  | (low, high, f) :: rest =>
    if n < low then none else if n ≤ high then some (low, f) else folding? n rest

/-- A character of a name, folded; nothing if it is refused. -/
def foldChar? (c : Char) : Option (List Char) :=
  if c.toNat < 0x80 then some [c.toLower]
  else
    match folding? c.toNat foldings with
    | none => some [c]
    | some (_, .refused) => none
    | some (_, .dropped) => some []
    | some (_, .shifted d) => some [Char.ofNat (c.toNat + d).toNat]
    | some (low, .paired) => some [if (c.toNat - low) % 2 = 0 then Char.ofNat (c.toNat + 1) else c]
    | some (_, .spelled s) => some s

/-- Whether an ASCII character may not be part of a name. -/
def isForbidden (c : Char) : Bool :=
  c.toNat ≤ 0x20 || c.toNat = 0x7F ||
    ['%', '#', '/', ':', '<', '>', '?', '@', '[', '\\', ']', '^', '|'].contains c

/-- What stands before a label in its ASCII form. -/
def asciiMark : List Char := ['x', 'n', '-', '-']

/-- A folded label in ASCII; nothing if it pretends to be in ASCII form. -/
def asciiLabel? (label : List Char) : Option (List Char) :=
  match Text.dropStart? asciiMark label with
  | some rest =>
    match Punycode.decode? rest with
    | some plain =>
      if plain.any (128 ≤ ·.toNat) && plain.mapM foldChar? == some (plain.map ([·])) then some label
      else none
    | none => none
  | none =>
    if label.all (·.toNat < 128) then some label else some (asciiMark ++ Punycode.encode label)

/-! ### Direction of writing -/

/-- The blocks of the scripts that are written from right to left. -/
def leftwardBlocks : List (Nat × Nat) :=
  [(0x590, 0x8FF), (0xFB1D, 0xFDFF), (0xFE70, 0xFEFE), (0x10800, 0x10FFF), (0x1E800, 0x1EFFF)]

/-- Whether a character is written from right to left. -/
def isLeftward (c : Char) : Bool :=
  leftwardBlocks.any fun (low, high) => low ≤ c.toNat && c.toNat ≤ high

/-- Whether a character goes with its neighbours: anything in ASCII but letters. -/
def isNeutral (c : Char) : Bool := c.toNat < 128 && !c.isAlpha

/-- Whether all of a label runs in the direction of its first character, which has to have one; at
    the end a digit will do. -/
def runsOneWay (label : List Char) : Bool :=
  match label.head?, label.getLast? with
  | some first, some last =>
    !isNeutral first && (!isNeutral last || last.isDigit) &&
      label.all fun c => isNeutral c || isLeftward c == isLeftward first
  | _, _ => true

/-! ### Whole names -/

/-- A name in ASCII, if it can be one. In a name with letters that are written from right to left,
    every label has to run one way. -/
def asciiName? (cs : List Char) : Option (List Char) := do
  let folded := (← cs.mapM foldChar?).flatten
  let parts := Text.splitAtChar '.' folded
  if folded.any isLeftward && !parts.all runsOneWay then none
  let labels ← parts.mapM asciiLabel?
  let name := ['.'].intercalate labels
  if name.any isForbidden then none else some name

end Storyboard.Url
