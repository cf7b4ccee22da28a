import Montage.Frame.Placement
import Montage.Graph.Op

/-!
# Clip chains

The operations that turn a source's picture into a layer: crop, trim, color, scale, turn, each
reading what the one before it made. Color is left out when neutral and the turn when there is
nothing to turn or flip.
-/
namespace Montage

/-- One step of a chain: the stem of its label, and its operation between two labels. -/
structure Stage (α : Type) where
  stem : String
  op : Label → Label → FilterOp α

/-- The operations of stages one after the other from a stream on, and the last label made. -/
def Stage.thread {α : Type} : List (Stage α) → Label → StateM Labels (List (FilterOp α) × Label)
  | [], source => pure ([], source)
  | stage :: rest, source => do
    let output ← Labels.take stage.stem
    let (ops, last) ← thread rest output
    pure (stage.op source output :: ops, last)

namespace Clip

variable {α : Type} [Scalar α]

def colorStages (clip : Clip α) : List (Stage α) :=
  let color := clip.colorFilters
  let percent : α := Scalar.nat 100
  if color.isNeutral then []
  else [⟨"color", fun source output =>
    .adjustColor source output (color.contrast / percent) (color.saturation / percent)
      color.gamma (color.brightness / percent)⟩]

/-- Whether the picture is turned or flipped. -/
def isTurned (clip : Clip α) : Bool := clip.rotate ≠ .upright || clip.flipH || clip.flipV

def turnStages (clip : Clip α) : List (Stage α) :=
  if clip.isTurned then
    [⟨"rot", fun source output =>
      .rotateFlip source output clip.rotate.degrees clip.flipH clip.flipV⟩]
  else []

/-- The stages of a clip's chain. A still image is looped for as long as the clip is. -/
def stages (clip : Clip α) (info : SourceInfo) (placement : Placement α) : List (Stage α) :=
  let loop := info.isImage || clip.kind = .image
  [⟨"crop", fun source output => .crop source output placement.crop⟩,
    ⟨"trim", fun source output =>
      .trim source output clip.sourceIn clip.sourceDuration clip.timelineOffset loop⟩]
    ++ clip.colorStages
    ++ [⟨"scale", fun source output =>
      .scale source output placement.scaledWidth placement.scaledHeight⟩]
    ++ clip.turnStages

/-- The chain of a clip from the stream of its source, and the label of its layer. -/
def chain (clip : Clip α) (info : SourceInfo) (placement : Placement α) (source : Label) :
    StateM Labels (List (FilterOp α) × Label) :=
  Stage.thread (clip.stages info placement) source

end Clip

end Montage
