import Montage.Frame.Crop
import Montage.Media.Info

/-!
# Placement

The resolved geometry of a clip: its crop in pixels, the size to which the crop is scaled, the
bounding box after its turn, the canvas position of that box's top left corner, and the span of
time in which it shows. Scaled sides are even and at least two.
-/
namespace Montage

structure Placement (α : Type) where
  crop : PixelRect
  scaledWidth : Int
  scaledHeight : Int
  footprintWidth : Int
  footprintHeight : Int
  x : Int
  y : Int
  start : α
  stop : α

namespace Frame

/-- The least even number that is not below the value, and at least two. -/
def evenUp (n : Int) : Int := max (if n % 2 ≠ 0 then n + 1 else n) 2

/-- The greatest even number that is not above the value, and at least two. -/
def evenDown (n : Int) : Int := max 2 (n - n % 2)

/-- The bounding box of a rectangle turned by a number of degrees. -/
def footprint (width height degrees : Int) : Int × Int :=
  if degrees = 90 || degrees = 270 then (height, width) else (width, height)

variable {α : Type} [Scalar α]

/-- A side scaled by the clip's own factor. -/
def scaledSide (side : Int) (scale : α) : Except ConversionError Int := do
  let length ← Scalar.ofInt side
  let scaled ← Scalar.roundHalfUp (length * scale)
  .ok (evenUp scaled)

def scaledSize (width height : Int) (scale : α) : Except ConversionError (Int × Int) := do
  let w ← scaledSide width scale
  let h ← scaledSide height scale
  .ok (w, h)

end Frame

namespace Placement

variable {α : Type} [Scalar α]

def ofClip (clip : Clip α) (info : SourceInfo) : Except ConversionError (Placement α) := do
  let crop ← Frame.cropRect clip.crop info.width info.height
  let (width, height) ← Frame.scaledSize crop.width crop.height clip.transform.scale
  let (footprintWidth, footprintHeight) := Frame.footprint width height clip.rotate.degrees
  let x ← Scalar.roundHalfUp clip.transform.x
  let y ← Scalar.roundHalfUp clip.transform.y
  .ok {
    crop, scaledWidth := width, scaledHeight := height, footprintWidth, footprintHeight, x, y
    start := clip.timelineOffset, stop := clip.timelineEnd }

def visibleAt (p : Placement α) (t : α) : Bool := decide (p.start ≤ t) && decide (t < p.stop)

/-- Whether any part of the placed footprint lies on the canvas. -/
def overlaps (p : Placement α) (width height : Int) : Bool :=
  decide (p.x < width) && decide (p.y < height)
    && decide (0 < p.x + p.footprintWidth) && decide (0 < p.y + p.footprintHeight)

end Placement

end Montage
