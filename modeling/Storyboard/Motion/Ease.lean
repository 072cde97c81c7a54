import Storyboard.Number.Rounding
import Storyboard.Text.Blank

/-! # Easing curves

    How far a transition has come as a function of the fraction of its time
    that has passed. -/

namespace Storyboard

/-- A curve from zero to one. -/
inductive Ease where
  | linear
  | inQuad
  | outQuad
  | inCubic
  | outCubic
  | inOutCubic
  deriving DecidableEq, Repr, Inhabited

namespace Ease

/-- What is used where nothing else is asked for. -/
def usual : Ease := .inOutCubic

/-- The second power. -/
def square (t : Float) : Float := t * t

/-- The third power. -/
def cube (t : Float) : Float := t * t * t

/-- A curve run backwards from its end. -/
def reversed (curve : Float → Float) (t : Float) : Float := 1.0 - curve (1.0 - t)

/-- The value of the curve at fraction `t`, which is first held between zero and one. -/
def apply (e : Ease) (t : Float) : Float :=
  let t := Number.clamp 0.0 1.0 t
  match e with
  | .linear => t
  | .inQuad => square t
  | .outQuad => reversed square t
  | .inCubic => cube t
  | .outCubic => reversed cube t
  | .inOutCubic =>
    if t < 0.5 then cube (2.0 * t) / 2.0 else 0.5 + reversed cube (2.0 * t - 1.0) / 2.0

/-- The curve with this name. Blanks, hyphens, underscores and the case of letters do not count. -/
def ofName? (name : String) : Option Ease :=
  let key := (name.toList.filter fun c => c ≠ '-' && c ≠ '_' && !Text.isBlank c).map Char.toLower
  match String.ofList key with
  | "linear" => some .linear
  | "ease" => some .inOutCubic
  | "easeinout" => some .inOutCubic
  | "inoutcubic" => some .inOutCubic
  | "easein" => some .inCubic
  | "incubic" => some .inCubic
  | "easeout" => some .outCubic
  | "outcubic" => some .outCubic
  | "inquad" => some .inQuad
  | "outquad" => some .outQuad
  | _ => none

end Ease

end Storyboard
