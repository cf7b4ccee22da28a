import Montage.Number.Scalar

/-!
# Timelines

A timeline is a canvas and an ordered list of tracks of clips. Later tracks lie on top of earlier
ones, and within a track later clips on top of earlier ones, so the order in which clips are
declared is the stacking order.
-/
namespace Montage

/-- A percentage of a length. One that was left at its default is a whole number, and shares of
it are computed in whole numbers. -/
inductive Percent (α : Type) where
  | whole (n : Nat)
  | measured (x : α)
deriving DecidableEq

namespace Percent

variable {α : Type} [Scalar α]

def value : Percent α → α
  | whole n => Scalar.nat n
  | measured x => x

/-- The percentage unless the bound is greater. -/
def atLeast (p : Percent α) (bound : α) : Percent α :=
  if p.value < bound then measured bound else p

/-- The percentage unless the bound is less. -/
def atMost (p : Percent α) (bound : α) : Percent α :=
  if bound < p.value then measured bound else p

theorem value_atLeast (p : Percent α) (bound : α) :
    (p.atLeast bound).value = Scalar.larger p.value bound := by
  unfold atLeast Scalar.larger
  split <;> rfl

theorem value_atMost (p : Percent α) (bound : α) :
    (p.atMost bound).value = Scalar.smaller p.value bound := by
  unfold atMost Scalar.smaller
  split <;> rfl

/-- The percentage of a number of pixels. -/
def share (p : Percent α) (pixels : Int) : Except ConversionError α :=
  match p with
  | whole n => Scalar.quotient (n * pixels) 100
  | measured x => do
    let length ← Scalar.ofInt pixels
    .ok (x * length / Scalar.nat 100)

end Percent

/-- A rectangle in percent of the source frame. -/
structure Crop (α : Type) where
  x : Percent α
  y : Percent α
  w : Percent α
  h : Percent α
deriving DecidableEq

namespace Crop

variable {α : Type} [Scalar α]

def full : Crop α := ⟨.whole 0, .whole 0, .whole 100, .whole 100⟩

/-- The rectangle with sides of one percent at least, moved to end inside the frame. -/
def settled (crop : Crop α) : Crop α :=
  let w := crop.w.atLeast (Scalar.nat 1)
  let h := crop.h.atLeast (Scalar.nat 1)
  ⟨crop.x.atMost (Scalar.nat 100 - w.value), crop.y.atMost (Scalar.nat 100 - h.value), w, h⟩

end Crop

/-- Where a clip's picture stands on the canvas, and its own scale factor. -/
structure Transform (α : Type) where
  x : α
  y : α
  scale : α
deriving DecidableEq

def Transform.still {α : Type} [Scalar α] : Transform α :=
  ⟨Scalar.nat 0, Scalar.nat 0, Scalar.nat 1⟩

/-- Color adjustment: percentages, and gamma as a plain factor. -/
structure ColorFilters (α : Type) where
  brightness : α
  contrast : α
  saturation : α
  gamma : α
deriving DecidableEq

namespace ColorFilters

variable {α : Type} [Scalar α]

def neutral : ColorFilters α := ⟨Scalar.nat 100, Scalar.nat 100, Scalar.nat 100, Scalar.nat 1⟩

def isNeutral (c : ColorFilters α) : Bool :=
  Scalar.equal c.brightness (Scalar.nat 100) && Scalar.equal c.contrast (Scalar.nat 100)
    && Scalar.equal c.saturation (Scalar.nat 100) && Scalar.equal c.gamma (Scalar.nat 1)

end ColorFilters

inductive ClipKind where
  | video
  | image
  | audio
deriving DecidableEq

inductive TrackKind where
  | video
  | audio
deriving DecidableEq

/-- A clockwise turn in quarters. -/
inductive Rotation where
  | upright
  | quarter
  | half
  | threeQuarters
deriving DecidableEq

namespace Rotation

def degrees : Rotation → Int
  | upright => 0
  | quarter => 90
  | half => 180
  | threeQuarters => 270

def ofDegrees? (n : Int) : Option Rotation :=
  if n = 0 then some upright
  else if n = 90 then some quarter
  else if n = 180 then some half
  else if n = 270 then some threeQuarters
  else none

end Rotation

/-- A span of a source, placed in time and on the canvas. Times are in seconds. -/
structure Clip (α : Type) where
  id : String
  sourcePath : String
  kind : ClipKind
  sourceIn : α
  sourceDuration : α
  timelineOffset : α
  crop : Crop α
  transform : Transform α
  rotate : Rotation
  flipH : Bool
  flipV : Bool
  colorFilters : ColorFilters α
  /-- Percent of the source's loudness. -/
  volume : α
deriving DecidableEq

def Clip.timelineEnd {α : Type} [Scalar α] (c : Clip α) : α := c.timelineOffset + c.sourceDuration

structure Track (α : Type) where
  id : String
  kind : TrackKind
  clips : List (Clip α)
deriving DecidableEq

/-- The requested size of the output; a zero on either axis asks for a size derived from the
clips. -/
structure Canvas where
  width : Nat
  height : Nat
deriving DecidableEq

def Canvas.isExplicit (c : Canvas) : Bool := decide (0 < c.width) && decide (0 < c.height)

structure Timeline (α : Type) where
  canvas : Canvas
  tracks : List (Track α)
deriving DecidableEq

/-- The distinct members of a list in the order in which they first occur. -/
def distinct {β : Type} [DecidableEq β] : List β → List β
  | [] => []
  | b :: rest => b :: (distinct rest).filter (· ≠ b)

namespace Timeline

variable {α : Type}

/-- Every clip with its track, in declaration order. -/
def clips (t : Timeline α) : List (Track α × Clip α) :=
  t.tracks.flatMap fun track => track.clips.map (track, ·)

/-- The distinct source paths in first-reference order. -/
def sourcePaths (t : Timeline α) : List String :=
  distinct (t.clips.map (·.2.sourcePath))

/-- The timeline with every source path replaced. -/
def mapSources (f : String → String) (t : Timeline α) : Timeline α :=
  { t with tracks := t.tracks.map fun track =>
      { track with clips := track.clips.map fun clip =>
          { clip with sourcePath := f clip.sourcePath } } }

end Timeline

end Montage
