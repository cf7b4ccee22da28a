import Montage.Graph.Chain

/-!
# Layers

Layers are laid one after the other over a black base, each only while its clip runs, so the last
one is on top.
-/
namespace Montage

/-- The stream of a processed clip, and where and when it shows. -/
structure Layer (α : Type) where
  label : Label
  placement : Placement α

namespace Layer

variable {α : Type}

def stage (layer : Layer α) : Stage α :=
  ⟨"comp", fun base output =>
    .overlay base layer.label output layer.placement.x layer.placement.y layer.placement.start
      layer.placement.stop⟩

/-- The overlays of layers from the bottom one up, and the label of the whole picture. -/
def composite (layers : List (Layer α)) (base : Label) :
    StateM Labels (List (FilterOp α) × Label) :=
  Stage.thread (layers.map stage) base

end Layer

/-- The black picture that all layers lie on, for the whole duration. -/
def baseLayer {α : Type} (width height fps : Int) (duration : α) : StateM Labels (FilterOp α) := do
  let output ← Labels.take "base"
  pure (.colorSource output "black" width height duration fps)

end Montage
