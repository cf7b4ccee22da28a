import Montage.Graph.Op
import Montage.Media.Info

/-!
# Sound

Each clip whose source has sound gives one segment, trimmed, delayed to the clip's place and
scaled by its volume. The segments are added up without making any of them quieter.
-/
namespace Montage

structure AudioSegment (α : Type) where
  source : Label
  /-- The start of the span in the source. -/
  start : α
  duration : α
  /-- The place of the span on the timeline. -/
  delay : α
  /-- A factor; one leaves the loudness as it is. -/
  gain : α

namespace AudioSegment

variable {α : Type} [Scalar α]

def stop (s : AudioSegment α) : α := s.delay + s.duration

/-- The segment of a clip, if its source has sound. -/
def ofClip? (clip : Clip α) (info : SourceInfo) (source : Label) : Option (AudioSegment α) :=
  if info.hasAudio then
    some ⟨source, clip.sourceIn, clip.sourceDuration, clip.timelineOffset,
      clip.volume / Scalar.nat 100⟩
  else none

/-- The operation of each segment. -/
def trims : List (AudioSegment α) → StateM Labels (List (FilterOp α))
  | [] => pure []
  | s :: rest => do
    let output ← Labels.take "aseg"
    let ops ← trims rest
    pure (.audioTrim s.source output s.start s.duration s.delay s.gain :: ops)

/-- The operations of all segments and their mix, with the mix's label; without segments there
is neither. -/
def mix (segments : List (AudioSegment α)) :
    StateM Labels (List (FilterOp α) × Option Label) :=
  if segments.isEmpty then pure ([], none)
  else do
    let ops ← trims segments
    let output ← Labels.take "aout"
    pure (ops ++ [.mix (ops.map FilterOp.output) output], some output)

end AudioSegment

end Montage
