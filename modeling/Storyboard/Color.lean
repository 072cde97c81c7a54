import Storyboard.Number.Rounding
import Storyboard.Number.Reading
import Storyboard.Text.Blank

/-! # Colors

    Colors have a red, a green and a blue channel and an opacity of eight bits
    each. They are written `#rrggbbaa`, or `#rrggbb` where the opacity goes
    elsewhere, and read from hexadecimal forms and from the functional forms
    `rgb(…)` and `rgba(…)`. -/

namespace Storyboard

/-- A color with straight opacity. -/
structure Color where
  red     : UInt8
  green   : UInt8
  blue    : UInt8
  /-- From transparent to solid. -/
  opacity : UInt8
  deriving DecidableEq, Repr, Inhabited

namespace Color

/-! ### The palette -/

/-- A solid color. -/
def solid (red green blue : UInt8) : Color := ⟨red, green, blue, 255⟩

/-- The main accent. -/
def cyan : Color := solid 0x22 0xd3 0xee

/-- Success. -/
def success : Color := solid 0x34 0xd3 0x99

/-- Comparison in progress, and warnings. -/
def amber : Color := solid 0xfb 0xbf 0x24

/-- Failure. -/
def failure : Color := solid 0xef 0x44 0x44

/-- Plain white. -/
def white : Color := solid 0xff 0xff 0xff

/-- The background of the canvas. -/
def background : Color := solid 18 20 28

/-! ### Opacity -/

/-- The same color with this opacity. -/
def withOpacity (c : Color) (a : UInt8) : Color := { c with opacity := a }

/-- The same color with its opacity given as a fraction. -/
def fade (c : Color) (fraction : Float) : Color :=
  c.withOpacity (UInt8.ofNat (Number.roundToRange 255 (Number.clamp 0.0 1.0 fraction * 255.0)))

/-- The translucent variant that fills of highlights have. -/
def tint (c : Color) : Color := c.withOpacity 0x33

/-- The opacity as a fraction. -/
def fraction (c : Color) : Float := Number.ofNat c.opacity.toNat / 255.0

/-! ### Writing -/

/-- Two lower-case hexadecimal digits. -/
def hexPair (b : UInt8) : List Char := [Nat.digitChar (b.toNat / 16), Nat.digitChar (b.toNat % 16)]

/-- The color as `#rrggbb`. -/
def hexSolid (c : Color) : List Char :=
  '#' :: hexPair c.red ++ hexPair c.green ++ hexPair c.blue

/-- The color as `#rrggbbaa`. -/
def hex (c : Color) : List Char := c.hexSolid ++ hexPair c.opacity

/-- The color as `#rrggbbaa`. -/
def text (c : Color) : String := String.ofList c.hex

/-! ### Reading -/

/-- Why a text is no color. -/
inductive Problem where
  /-- What follows the `#` is not ASCII or has the wrong length. -/
  | hexForm (digits : String)
  /-- One channel of a hexadecimal form. -/
  | hexChannel (digits : String)
  /-- The functional form has neither three nor four components. -/
  | componentCount (body : String)
  /-- A channel of the functional form is no number. -/
  | channel (component : String)
  /-- The opacity of the functional form is no number. -/
  | alpha (component : String)
  /-- No form of color at all. -/
  | unknownForm (text : String)
  deriving DecidableEq, Repr

/-- The problem in words. -/
def Problem.message : Problem → String
  | .hexForm s => "invalid hex color \"#" ++ s ++ "\""
  | .hexChannel s => "invalid hex byte \"" ++ s ++ "\""
  | .componentCount s => "rgb()/rgba() needs 3 or 4 components, got \"" ++ s ++ "\""
  | .channel s => "invalid color channel \"" ++ s ++ "\""
  | .alpha s => "invalid alpha \"" ++ s ++ "\""
  | .unknownForm s => "color must be #rgb, #rrggbb, #rrggbbaa, rgb() or rgba(), got \"" ++ s ++ "\""

/-- A channel of two characters: two hexadecimal digits, or a plus sign and one. -/
def readPair (a b : Char) : Except Problem UInt8 :=
  let value := if a = '+' then Number.hexValue? b else do
    let high ← Number.hexValue? a
    let low ← Number.hexValue? b
    pure (high * 16 + low)
  match value with
  | some n => .ok (UInt8.ofNat n)
  | none => .error (.hexChannel (String.ofList [a, b]))

/-- A channel of one digit, which stands for itself twice. -/
def readDigit (a : Char) : Except Problem UInt8 :=
  match Number.hexValue? a with
  | some n => .ok (UInt8.ofNat (n * 17))
  | none => .error (.hexChannel (String.ofList [a]))

/-- What follows the `#` of a hexadecimal form. -/
def readHex (cs : List Char) : Except Problem Color :=
  if cs.any fun c => 0x7F < c.toNat then .error (.hexForm (String.ofList cs))
  else match cs with
    | [r, g, b] => do
      let r ← readDigit r
      let g ← readDigit g
      let b ← readDigit b
      pure (solid r g b)
    | [r, r', g, g', b, b'] => do
      let r ← readPair r r'
      let g ← readPair g g'
      let b ← readPair b b'
      pure (solid r g b)
    | [r, r', g, g', b, b', a, a'] => do
      let r ← readPair r r'
      let g ← readPair g g'
      let b ← readPair b b'
      let a ← readPair a a'
      pure ⟨r, g, b, a⟩
    | cs => .error (.hexForm (String.ofList cs))

/-- A channel of the functional form: a number held between 0 and 255 and rounded. -/
def readChannel (s : String) : Except Problem UInt8 :=
  match Number.float? s with
  | some x => .ok (UInt8.ofNat (Number.roundToRange 255 (Number.clamp 0.0 255.0 x)))
  | none => .error (.channel s)

/-- What stands between the parentheses of the functional form. -/
def readComponents (body : List Char) : Except Problem Color :=
  let parts := (Text.splitAtChar ',' body).map fun p => String.ofList (Text.trimChars p)
  match parts with
  | [r, g, b] => do
    let r ← readChannel r
    let g ← readChannel g
    let b ← readChannel b
    pure (solid r g b)
  | [r, g, b, a] => do
    let r ← readChannel r
    let g ← readChannel g
    let b ← readChannel b
    match Number.float? a with
    | some x => pure ((solid r g b).fade x)
    | none => .error (.alpha a)
  | _ => .error (.componentCount (String.ofList body))

/-- What stands between the parentheses of `rgba(…)` or `rgb(…)`. -/
def functionBody? (cs : List Char) : Option (List Char) := do
  let rest ← (Text.dropStart? "rgba(".toList cs) <|> (Text.dropStart? "rgb(".toList cs)
  let body ← Text.dropStart? [')'] rest.reverse
  pure body.reverse

/-- Read a color. Blanks around it do not count, nor does the case of its letters. -/
def read (s : String) : Except Problem Color :=
  match Text.trimChars s.toList with
  | '#' :: digits => readHex digits
  | cs =>
    match functionBody? (cs.map Char.toLower) with
    | some body => readComponents body
    | none => .error (.unknownForm (String.ofList cs))

/-- Read a color where there is one, and use `fallback` otherwise. -/
def readOr (s : Option String) (fallback : Color) : Color :=
  match s with
  | none => fallback
  | some s => match read s with
    | .ok c => c
    | .error _ => fallback

end Color

end Storyboard
