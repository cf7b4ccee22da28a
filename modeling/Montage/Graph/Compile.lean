import Montage.Frame.CanvasSize
import Montage.Graph.Layers
import Montage.Graph.Sound

/-!
# Compiling a timeline

A timeline and what is known of its sources determine a filter graph: the black base, the chain of
each visible clip, the overlays of these, and the sound. Clips that are too short to show are left
out altogether. A clip that lies off the canvas is compiled all the same, with a warning.
-/
namespace Montage

/-- A clip whose placed layer shares no pixel with the canvas. -/
structure OffCanvas where
  clipId : String
  x : Int
  y : Int
  footprintWidth : Int
  footprintHeight : Int
  canvasWidth : Int
  canvasHeight : Int
deriving DecidableEq

inductive CompileError where
  /-- No clip is longer than the least duration. -/
  | emptyTimeline
  | geometry (error : ConversionError)
deriving DecidableEq

/-- A filter graph with all that an encoder needs to run it. -/
structure CompiledGraph (α : Type) where
  ops : List (FilterOp α)
  /-- The input files; the position of one is the index that stream labels refer to. -/
  inputs : List String
  video : Label
  audio : Option Label
  width : Int
  height : Int
  duration : α

/-- The labels of the output streams, the picture first. -/
def CompiledGraph.outputLabels {α : Type} (g : CompiledGraph α) : List Label :=
  g.video :: g.audio.toList

/-- What a compile depends on besides the timeline and its sources. -/
structure CompileOptions (α : Type) where
  fps : Int
  minClipDuration : α
  defaultWidth : Int
  defaultHeight : Int

def CompileOptions.standard {α : Type} [Scalar α] : CompileOptions α :=
  ⟨30, Scalar.ratio 5 100, 1920, 1080⟩

/-- The warnings that were due, whatever the compile came to. -/
structure CompileOutcome (α : Type) where
  warnings : List OffCanvas
  graph : Except CompileError (CompiledGraph α)

/-- A clip with its place, on the stream of its source. -/
structure PlacedClip (α : Type) where
  clip : Clip α
  info : SourceInfo
  placement : Placement α
  source : Label

variable {α : Type} [Scalar α]

/-- The clips longer than the least duration, in declaration order. -/
def Timeline.selected (timeline : Timeline α) (minimum : α) : List (Track α × Clip α) :=
  timeline.clips.filter fun (_, clip) => !decide (clip.sourceDuration ≤ minimum)

/-- The greatest of the clips' ends, the first of equal ones; zero where there is no clip. -/
def compositionDuration (clips : List (Clip α)) : α :=
  match clips with
  | [] => Scalar.nat 0
  | clip :: rest => rest.foldl (fun d c => Scalar.larger d c.timelineEnd) clip.timelineEnd

/-- Whether a clip has a picture to show. A source known to be nothing but sound has none. -/
def isVisual (track : Track α) (clip : Clip α) (info : SourceInfo) : Bool :=
  track.kind = .video && clip.kind ≠ .audio
    && !(info.hasAudio && info.width = 0 && info.height = 0)

/-- The index of a path among the inputs. -/
def inputIndex (inputs : List String) (path : String) : Int := inputs.idxOf path

/-- The clips placed one after the other, up to the first that has no place. -/
def placeClips (cache : SourceCache) (inputs : List String) :
    List (Clip α) → List (PlacedClip α) × Option ConversionError
  | [] => ([], none)
  | clip :: rest =>
    let info := cache.info clip.sourcePath
    match Placement.ofClip clip info with
    | .error e => ([], some e)
    | .ok placement =>
      let (placed, failure) := placeClips cache inputs rest
      (⟨clip, info, placement, streamRef (inputIndex inputs clip.sourcePath) "v"⟩ :: placed,
        failure)

def PlacedClip.offCanvas? (p : PlacedClip α) (width height : Int) : Option OffCanvas :=
  if p.placement.overlaps width height then none
  else some ⟨p.clip.id, p.placement.x, p.placement.y, p.placement.footprintWidth,
    p.placement.footprintHeight, width, height⟩

/-- The chains of placed clips and the layers that they make. -/
def PlacedClip.layers :
    List (PlacedClip α) → StateM Labels (List (FilterOp α) × List (Layer α))
  | [] => pure ([], [])
  | p :: rest => do
    let (chain, label) ← p.clip.chain p.info p.placement p.source
    let (ops, layers) ← PlacedClip.layers rest
    pure (chain ++ ops, ⟨label, p.placement⟩ :: layers)

/-- The segments of all clips whose sources have sound. -/
def audioSegments (cache : SourceCache) (inputs : List String) (clips : List (Clip α)) :
    List (AudioSegment α) :=
  clips.filterMap fun clip =>
    AudioSegment.ofClip? clip (cache.info clip.sourcePath)
      (streamRef (inputIndex inputs clip.sourcePath) "a")

/-- All operations in the order of the graph, with the labels of picture and sound. -/
def graphOps (width height fps : Int) (duration : α) (placed : List (PlacedClip α))
    (segments : List (AudioSegment α)) :
    StateM Labels (List (FilterOp α) × Label × Option Label) := do
  let base ← baseLayer width height fps duration
  let (chains, layers) ← PlacedClip.layers placed
  let (overlays, video) ← Layer.composite layers base.output
  let (sound, audio) ← AudioSegment.mix segments
  pure (base :: chains ++ overlays ++ sound, video, audio)

/-- The graph of a timeline, and the warnings on the way to it. -/
def compileTimeline (timeline : Timeline α) (cache : SourceCache) (options : CompileOptions α) :
    CompileOutcome α :=
  let selected := timeline.selected options.minClipDuration
  let clips := selected.map (·.2)
  if clips.isEmpty then ⟨[], .error .emptyTimeline⟩
  else
    let inputs := distinct (clips.map (·.sourcePath))
    let visual := (selected.filter fun (track, clip) =>
      isVisual track clip (cache.info clip.sourcePath)).map (·.2)
    match Frame.canvasSize timeline.canvas visual cache options.defaultWidth
        options.defaultHeight with
    | .error e => ⟨[], .error (.geometry e)⟩
    | .ok (width, height) =>
      let duration := compositionDuration clips
      let (placed, failure) := placeClips cache inputs visual
      let warnings := placed.filterMap (·.offCanvas? width height)
      match failure with
      | some e => ⟨warnings, .error (.geometry e)⟩
      | none =>
        let segments := audioSegments cache inputs clips
        let (ops, video, audio) :=
          (graphOps width height options.fps duration placed segments Labels.none).1
        ⟨warnings, .ok { ops, inputs, video, audio, width, height, duration }⟩

/-- The warning as a line of the log. -/
def OffCanvas.line (w : OffCanvas) : String :=
  s!"[COMPILE] Clip {w.clipId} at ({w.x}, {w.y}) {w.footprintWidth}x{w.footprintHeight} "
    ++ s!"is outside the {w.canvasWidth}x{w.canvasHeight} canvas"

end Montage
