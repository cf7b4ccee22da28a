/-!
# Render states

A render passes through its states in order and ends as done or failed.
-/
namespace Montage

inductive RenderState where
  | idle
  | probing
  | compiling
  | rendering
  | finalizing
  | done
  | failed
deriving DecidableEq

namespace RenderState

def name : RenderState → String
  | idle => "idle"
  | probing => "probing"
  | compiling => "compiling"
  | rendering => "rendering"
  | finalizing => "finalizing"
  | done => "done"
  | failed => "failed"

/-- The states before the last one, in their order. -/
def stages : List RenderState := [idle, probing, compiling, rendering, finalizing]

end RenderState

end Montage
