import Storyboard.Drawing.Document
import Storyboard.Failure

/-! # Rasters

    A raster is a grid of pixels that a canvas is drawn on at some scale. The
    grid has as many pixels as the scaled canvas touches, so the background
    may cover the pixels of the last row and column only in part. How much is
    counted in sixteenths, four samples across by four samples down. -/

namespace Storyboard

/-- A grid of pixels with the background of a canvas on it. -/
structure Raster where
  /-- How many pixels it is wide. -/
  width  : Nat
  /-- How many pixels it is high. -/
  height : Nat
  /-- How many samples across the background covers. -/
  across : Nat
  /-- How many samples down the background covers. -/
  down   : Nat
  deriving DecidableEq, Repr, Inhabited

namespace Raster

/-- Why there is no raster. -/
inductive Problem where
  /-- The scale is not a positive number. -/
  | scale (s : Float32)
  /-- There are too many pixels in a row. -/
  | size
  /-- The drawing holds a character that no document can. -/
  | drawing

/-- The problem in words. -/
def Problem.message : Problem → String
  | .scale s =>
    Category.validation.describe ("raster scale must be > 0, got " ++ Number.plainText32 s)
  | .size => Category.validation.describe "failed to allocate svg pixmap"
  | .drawing => Category.other.describe "parse svg snapshot"

/-! ### Extent -/

/-- How many pixels a side touches: one at least, and not more than 32 bits can count. -/
def pixels (side : Float32) : Nat :=
  match (Number.parts32 side).magnitude with
  | .finite m q => max 1 (min (Number.ceilOf m q) (Nat.pow 2 32 - 1))
  | _ => Nat.pow 2 32 - 1

/-- How many samples a side covers. Its length is cut to 256ths of a pixel first, and a sample
    counts if at least half of it is covered. -/
def samples (side : Float32) : Nat :=
  match (Number.parts32 side).magnitude with
  | .finite m q => (Number.floorOf m (q + 8) + 32) / 64
  | _ => 0

/-- The most bytes that a row can have. -/
def mostRowBytes : Nat := Nat.pow 2 31 - 1

/-- The raster of a blank canvas. -/
def ofScale (s : Float32) : Except Problem Raster :=
  if !s.isFinite || s ≤ 0.0 then .error (.scale s)
  else
    let width := Canvas.width.toFloat32 * s
    let height := Canvas.height.toFloat32 * s
    if mostRowBytes < 4 * pixels width then .error .size
    else .ok ⟨pixels width, pixels height, samples width, samples height⟩

/-- How many bytes the pixels take. -/
def bytes (r : Raster) : Nat := r.width * r.height * 4

/-! ### Pixels -/

/-- The opacity of the background where it covers this many sixteenths of a pixel. -/
def coverage (sixteenths : Nat) : Nat := min 255 (16 * sixteenths)

/-- A channel of the background at an opacity. It is multiplied by the opacity and divided by it
    again, and both are rounded, so it may come out a little brighter. -/
def shade (channel opacity : Nat) : Nat :=
  if opacity = 0 then 0
  else if opacity = 255 then channel
  else min 255 ((((channel * opacity + 255) / 256) * 255 + opacity / 2) / opacity)

/-- The background at an opacity. -/
def backgroundAt (opacity : Nat) : Color :=
  let c := Color.background
  let of (channel : UInt8) : UInt8 := UInt8.ofNat (shade channel.toNat opacity)
  ⟨of c.red, of c.green, of c.blue, UInt8.ofNat opacity⟩

/-- The color of the pixel in a column and a row. -/
def pixel (r : Raster) (column row : Nat) : Color :=
  backgroundAt (coverage (min 4 (r.across - 4 * column) * min 4 (r.down - 4 * row)))

/-- The color of the first pixel. -/
def first (r : Raster) : Color := r.pixel 0 0

/-- The color of the last pixel. -/
def last (r : Raster) : Color := r.pixel (r.width - 1) (r.height - 1)

end Raster

/-! ### Canvases -/

/-- Whether a document can hold a character: control characters it cannot, apart from tabs and the
    ends of lines, nor the two code points that stand for no character. -/
def Markup.allows (c : Char) : Bool :=
  (' ' ≤ c || c = '\t' || c = '\n' || c = '\r') && c.toNat != 0xFFFE && c.toNat != 0xFFFF

/-- The raster of a canvas. -/
def Canvas.raster (c : Canvas) (now : Nat) (scale : Float32) : Except Raster.Problem Raster :=
  match Raster.ofScale scale with
  | .error (.scale s) => .error (.scale s)
  | r => if (Document.ofCanvas now c).write.all Markup.allows then r else .error .drawing

end Storyboard
