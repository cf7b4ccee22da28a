import Montage.Frame.Crop
import Montage.Graph.Label

/-!
# Filter operations

The closed set of operations of a filter graph, each with the labels of the streams that it reads
and the one that it makes.
-/
namespace Montage

/-- The kinds, in the order in which a clip's chain applies them. -/
inductive FilterKind where
  | colorSource
  | crop
  | trim
  | colorAdjust
  | scale
  | rotateFlip
  | overlay
  | audioTrim
  | audioMix
deriving DecidableEq

namespace FilterKind

def name : FilterKind → String
  | colorSource => "color_source"
  | crop => "crop"
  | trim => "trim"
  | colorAdjust => "color_adjust"
  | scale => "scale"
  | rotateFlip => "rotate_flip"
  | overlay => "overlay"
  | audioTrim => "audio_trim"
  | audioMix => "audio_mix"

/-- The place of a kind in the declared order. -/
def rank : FilterKind → Nat
  | colorSource => 0
  | crop => 1
  | trim => 2
  | colorAdjust => 3
  | scale => 4
  | rotateFlip => 5
  | overlay => 6
  | audioTrim => 7
  | audioMix => 8

end FilterKind

inductive FilterOp (α : Type) where
  /-- A picture of one color. -/
  | colorSource (output : Label) (color : String) (width height : Int) (duration : α) (fps : Int)
  | crop (source output : Label) (rect : PixelRect)
  /-- The span of `duration` from `start`, timed to begin at `offset`. A looped source repeats
  its first frame without end. -/
  | trim (source output : Label) (start duration offset : α) (loop : Bool)
  | colorAdjust (source output : Label) (brightness contrast saturation gamma luminanceRatio : α)
  | scale (source output : Label) (width height : Int)
  /-- A clockwise turn by whole degrees, then flips. -/
  | rotateFlip (source output : Label) (degrees : Int) (flipH flipV : Bool)
  /-- The top stream over the base, its corner at `(x, y)`, from `start` until before `stop`. -/
  | overlay (base top output : Label) (x y : Int) (start stop : α)
  | audioTrim (source output : Label) (start duration delay gain : α)
  | audioMix (sources : List Label) (output : Label) (count : Nat) (normalize : Bool)

namespace FilterOp

variable {α : Type}

def kind : FilterOp α → FilterKind
  | colorSource .. => .colorSource
  | crop .. => .crop
  | trim .. => .trim
  | colorAdjust .. => .colorAdjust
  | scale .. => .scale
  | rotateFlip .. => .rotateFlip
  | overlay .. => .overlay
  | audioTrim .. => .audioTrim
  | audioMix .. => .audioMix

def inputs : FilterOp α → List Label
  | colorSource .. => []
  | crop source .. => [source]
  | trim source .. => [source]
  | colorAdjust source .. => [source]
  | scale source .. => [source]
  | rotateFlip source .. => [source]
  | overlay base top .. => [base, top]
  | audioTrim source .. => [source]
  | audioMix sources .. => sources

def output : FilterOp α → Label
  | colorSource output .. => output
  | crop _ output .. => output
  | trim _ output .. => output
  | colorAdjust _ output .. => output
  | scale _ output .. => output
  | rotateFlip _ output .. => output
  | overlay _ _ output .. => output
  | audioTrim _ output .. => output
  | audioMix _ output .. => output

variable [Scalar α]

/-- A color adjustment whose brightness is a factor of the luminance; the additive brightness
stays at zero. -/
def adjustColor (source output : Label) (contrast saturation gamma luminanceRatio : α) :
    FilterOp α :=
  colorAdjust source output (Scalar.nat 0) contrast saturation gamma luminanceRatio

/-- The sum of all sources, none of them made quieter. -/
def mix (sources : List Label) (output : Label) : FilterOp α :=
  audioMix sources output sources.length false

/-- Whether an overlay shows its top stream at a time; other kinds have no answer. -/
def isVisible? (op : FilterOp α) (t : α) : Option Bool :=
  match op with
  | overlay _ _ _ _ _ start stop => some (decide (start ≤ t) && decide (t < stop))
  | _ => none

end FilterOp

end Montage
