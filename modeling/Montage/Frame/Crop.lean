import Montage.Timeline.Basic

/-!
# Pixel crops

A percentage crop becomes a rectangle of whole pixels: at least one pixel on each axis, even
sides where they are longer than one, inside the frame.
-/
namespace Montage

structure PixelRect where
  x : Int
  y : Int
  width : Int
  height : Int
deriving DecidableEq

namespace Frame

/-- Where a span ends up on an axis of `source` pixels: cut at the far edge, at least one long,
even unless it is one, and moved inside the axis if it fits. -/
def fitSpan (offset size source : Int) : Int × Int :=
  let cut := if source < offset + size then source - offset else size
  let present := max cut 1
  let size := if 1 < present && present % 2 ≠ 0 then present - 1 else present
  if size ≤ source then (max 0 (min offset (source - size)), size) else (offset, size)

variable {α : Type} [Scalar α]

/-- One axis of a crop: the offset and size in pixels. -/
def cropAxis (offset size : Percent α) (source : Int) : Except ConversionError (Int × Int) := do
  let start ← Scalar.roundHalfUp (← offset.share source)
  let length ← Scalar.roundHalfUp (← size.share source)
  .ok (fitSpan start length source)

def cropRect (crop : Crop α) (width height : Int) : Except ConversionError PixelRect := do
  let (x, w) ← cropAxis crop.x crop.w width
  let (y, h) ← cropAxis crop.y crop.h height
  .ok ⟨x, y, w, h⟩

end Frame

end Montage
