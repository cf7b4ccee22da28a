import Montage.Frame.Placement

/-!
# The size of the output

An explicit canvas is taken as it is. Otherwise the widest and the tallest cropped clip are taken
independently of each other; where no clip has a known size, a default is. Both sides are made
even.
-/
namespace Montage.Frame

variable {α : Type} [Scalar α]

/-- The pixel size of a clip's source after its crop. -/
def croppedSize (clip : Clip α) (info : SourceInfo) : Except ConversionError (Int × Int) := do
  let w ← Scalar.roundHalfUp (← clip.crop.w.share info.width)
  let h ← Scalar.roundHalfUp (← clip.crop.h.share info.height)
  .ok (w, h)

/-- The greatest width and the greatest height of a list of sizes, zero at least. -/
def largestSides (sizes : List (Int × Int)) : Int × Int :=
  sizes.foldl (fun (width, height) (w, h) => (max width w, max height h)) (0, 0)

def canvasSize (canvas : Canvas) (clips : List (Clip α)) (cache : SourceCache)
    (defaultWidth defaultHeight : Int) : Except ConversionError (Int × Int) := do
  if canvas.isExplicit then
    .ok (evenDown canvas.width, evenDown canvas.height)
  else
    let sizes ← clips.mapM fun clip => croppedSize clip (cache.info clip.sourcePath)
    let (width, height) := largestSides sizes
    if width ≤ 0 || height ≤ 0 then .ok (evenDown defaultWidth, evenDown defaultHeight)
    else .ok (evenDown width, evenDown height)

end Montage.Frame
