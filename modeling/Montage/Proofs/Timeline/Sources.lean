import Montage.Graph.Compile
import Montage.Proofs.Graph.Assembly

/-!
# Timelines with other sources

Replacing the source paths of a timeline leaves everything else of it as it is: the same clips are
long enough to show, and each of them has the path that stands for its own.
-/
namespace Montage

def Clip.withSource {α : Type} (f : String → String) (clip : Clip α) : Clip α :=
  { clip with sourcePath := f clip.sourcePath }

namespace Timeline

variable {α : Type}

/-- A clip and its track with the source paths of both replaced. -/
def withSource (f : String → String) (entry : Track α × Clip α) : Track α × Clip α :=
  ({ entry.1 with clips := entry.1.clips.map (Clip.withSource f) }, Clip.withSource f entry.2)

theorem clips_mapSources (f : String → String) (timeline : Timeline α) :
    (timeline.mapSources f).clips = timeline.clips.map (withSource f) := by
  simp only [clips, mapSources, List.flatMap_map, List.map_flatMap, List.map_map]
  rfl

theorem selected_mapSources [Scalar α] (f : String → String) (timeline : Timeline α)
    (minimum : α) : (timeline.mapSources f).selected minimum =
      (timeline.selected minimum).map (withSource f) := by
  rw [selected, clips_mapSources, List.filter_map]
  rfl

theorem mem_sourcePaths {timeline : Timeline α} {path : String} :
    path ∈ timeline.sourcePaths ↔ ∃ entry ∈ timeline.clips, entry.2.sourcePath = path := by
  rw [sourcePaths, mem_distinct, List.mem_map]

end Timeline

end Montage
