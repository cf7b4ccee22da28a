import Montage.Document.Field
import Montage.Timeline.Basic

/-!
# Timelines as documents

A timeline is taken from a JSON document whose keys are spelled in camel case or in snake case,
and is written back under either spelling. Percentages outside their range are moved to its
nearest end when they are read.
-/
namespace Montage

open Document (Checked Key Fields Origin)

namespace Document

/-- A percentage as written, moved into an interval. -/
def clamped (low high : Binary64) (v : Json) : Checked Binary64 :=
  (number v).map fun x => Scalar.smaller (Scalar.larger x low) high

def percent (v : Json) : Checked (Percent Binary64) :=
  (clamped (Scalar.nat 0) (Scalar.nat 100) v).map .measured

end Document

namespace Crop

def xKey : Key := .plain "x"
def yKey : Key := .plain "y"
def wKey : Key := .plain "w"
def hKey : Key := .plain "h"

def fromFields (fields : Fields) : Checked (Crop Binary64) :=
  settled <$> (mk <$> xKey.withDefault (.whole 0) Document.percent fields
    <*> yKey.withDefault (.whole 0) Document.percent fields
    <*> wKey.withDefault (.whole 100) Document.percent fields
    <*> hKey.withDefault (.whole 100) Document.percent fields)

def fromDocument (origin : Origin) : Json → Checked (Crop Binary64) :=
  Document.object origin "Crop" fromFields

def toDocument (spelling : Key → String) (c : Crop Binary64) : Json :=
  .obj [(spelling xKey, .float c.x.value), (spelling yKey, .float c.y.value),
    (spelling wKey, .float c.w.value), (spelling hKey, .float c.h.value)]

end Crop

namespace Transform

def xKey : Key := .plain "x"
def yKey : Key := .plain "y"
def scaleKey : Key := .plain "scale"

def fromFields (fields : Fields) : Checked (Transform Binary64) :=
  mk <$> xKey.withDefault still.x Document.number fields
    <*> yKey.withDefault still.y Document.number fields
    <*> scaleKey.withDefault still.scale (Document.nonnegative Document.number) fields

def fromDocument (origin : Origin) : Json → Checked (Transform Binary64) :=
  Document.object origin "Transform" fromFields

def toDocument (spelling : Key → String) (t : Transform Binary64) : Json :=
  .obj [(spelling xKey, .float t.x), (spelling yKey, .float t.y),
    (spelling scaleKey, .float t.scale)]

end Transform

namespace ColorFilters

def brightnessKey : Key := .plain "brightness"
def contrastKey : Key := .plain "contrast"
def saturationKey : Key := .plain "saturation"
def gammaKey : Key := .plain "gamma"

def fromFields (fields : Fields) : Checked (ColorFilters Binary64) :=
  let upTo (high : Nat) := Document.clamped (Scalar.nat 0) (Scalar.nat high)
  let factor := Document.clamped (Scalar.ratio 1 10) (Scalar.nat 10)
  mk <$> brightnessKey.withDefault neutral.brightness (upTo 200) fields
    <*> contrastKey.withDefault neutral.contrast (upTo 1000) fields
    <*> saturationKey.withDefault neutral.saturation (upTo 300) fields
    <*> gammaKey.withDefault neutral.gamma factor fields

def fromDocument (origin : Origin) : Json → Checked (ColorFilters Binary64) :=
  Document.object origin "ColorFilters" fromFields

def toDocument (spelling : Key → String) (c : ColorFilters Binary64) : Json :=
  .obj [(spelling brightnessKey, .float c.brightness), (spelling contrastKey, .float c.contrast),
    (spelling saturationKey, .float c.saturation), (spelling gammaKey, .float c.gamma)]

end ColorFilters

namespace ClipKind

def name : ClipKind → String
  | video => "video"
  | image => "image"
  | audio => "audio"

def fromDocument : Json → Checked ClipKind :=
  Document.word "'video', 'image' or 'audio'" ([video, image, audio].map fun k => (k.name, k))

end ClipKind

namespace TrackKind

def name : TrackKind → String
  | video => "video"
  | audio => "audio"

def fromDocument : Json → Checked TrackKind :=
  Document.word "'video' or 'audio'" ([video, audio].map fun k => (k.name, k))

end TrackKind

namespace Rotation

def ofDegreesChecked (n : Int) : Checked Rotation :=
  match ofDegrees? n with
  | some r => .valid r
  | none => .fail (.choice "0, 90, 180 or 270")

/-- A turn by its degrees. Of the truth values `false` counts as no turn. -/
def fromDocument : Json → Checked Rotation
  | .int n =>
    if -Document.machineLimit ≤ n && n < Document.machineLimit then ofDegreesChecked n
    else .fail .integerInRange
  | .float x =>
    match x.truncate with
    | .ok n => if x.isIntegral then ofDegreesChecked n else ofDegreesChecked 1
    | .error _ => ofDegreesChecked 1
  | .bool b => ofDegreesChecked (if b then 1 else 0)
  | _ => ofDegreesChecked 1

end Rotation

namespace Clip

def idKey : Key := .plain "id"
def sourcePathKey : Key := ⟨"source_path", "sourcePath"⟩
def kindKey : Key := .plain "kind"
def sourceInKey : Key := ⟨"source_in", "sourceIn"⟩
def sourceDurationKey : Key := ⟨"source_duration", "sourceDuration"⟩
def timelineOffsetKey : Key := ⟨"timeline_offset", "timelineOffset"⟩
def cropKey : Key := .plain "crop"
def transformKey : Key := .plain "transform"
def rotateKey : Key := .plain "rotate"
def flipHKey : Key := ⟨"flip_h", "flipH"⟩
def flipVKey : Key := ⟨"flip_v", "flipV"⟩
def colorFiltersKey : Key := ⟨"color_filters", "colorFilters"⟩
def volumeKey : Key := .plain "volume"

def fromFields (origin : Origin) (fields : Fields) : Checked (Clip Binary64) :=
  let zero : Binary64 := Scalar.nat 0
  let nonnegative := Document.nonnegative Document.number
  mk <$> idKey.required Document.text fields
    <*> sourcePathKey.required Document.text fields
    <*> kindKey.withDefault .video ClipKind.fromDocument fields
    <*> sourceInKey.withDefault zero nonnegative fields
    <*> sourceDurationKey.withDefault zero Document.number fields
    <*> timelineOffsetKey.withDefault zero nonnegative fields
    <*> cropKey.withDefault .full (Crop.fromDocument origin) fields
    <*> transformKey.withDefault .still (Transform.fromDocument origin) fields
    <*> rotateKey.withDefault .upright Rotation.fromDocument fields
    <*> flipHKey.withDefault false Document.boolean fields
    <*> flipVKey.withDefault false Document.boolean fields
    <*> colorFiltersKey.withDefault .neutral (ColorFilters.fromDocument origin) fields
    <*> volumeKey.withDefault (Scalar.nat 100) nonnegative fields

def fromDocument (origin : Origin) : Json → Checked (Clip Binary64) :=
  Document.object origin "Clip" (fromFields origin)

def toDocument (spelling : Key → String) (c : Clip Binary64) : Json :=
  .obj [(spelling idKey, .text c.id),
    (spelling sourcePathKey, .text c.sourcePath),
    (spelling kindKey, .text c.kind.name),
    (spelling sourceInKey, .float c.sourceIn),
    (spelling sourceDurationKey, .float c.sourceDuration),
    (spelling timelineOffsetKey, .float c.timelineOffset),
    (spelling cropKey, c.crop.toDocument spelling),
    (spelling transformKey, c.transform.toDocument spelling),
    (spelling rotateKey, .int c.rotate.degrees),
    (spelling flipHKey, .bool c.flipH),
    (spelling flipVKey, .bool c.flipV),
    (spelling colorFiltersKey, c.colorFilters.toDocument spelling),
    (spelling volumeKey, .float c.volume)]

end Clip

namespace Track

def idKey : Key := .plain "id"
def kindKey : Key := .plain "kind"
def clipsKey : Key := .plain "clips"

def fromFields (origin : Origin) (fields : Fields) : Checked (Track Binary64) :=
  mk <$> idKey.required Document.text fields
    <*> kindKey.withDefault .video TrackKind.fromDocument fields
    <*> clipsKey.withDefault [] (Document.list (Clip.fromDocument origin)) fields

def fromDocument (origin : Origin) : Json → Checked (Track Binary64) :=
  Document.object origin "Track" (fromFields origin)

def toDocument (spelling : Key → String) (t : Track Binary64) : Json :=
  .obj [(spelling idKey, .text t.id), (spelling kindKey, .text t.kind.name),
    (spelling clipsKey, .arr (t.clips.map (Clip.toDocument spelling)))]

end Track

namespace Canvas

def widthKey : Key := .plain "width"
def heightKey : Key := .plain "height"

def fromFields (fields : Fields) : Checked Canvas :=
  mk <$> widthKey.withDefault 0 Document.natural fields
    <*> heightKey.withDefault 0 Document.natural fields

def fromDocument (origin : Origin) : Json → Checked Canvas :=
  Document.object origin "Canvas" fromFields

def toDocument (spelling : Key → String) (c : Canvas) : Json :=
  .obj [(spelling widthKey, .int c.width), (spelling heightKey, .int c.height)]

end Canvas

namespace Timeline

def canvasKey : Key := .plain "canvas"
def tracksKey : Key := .plain "tracks"

def fromFields (origin : Origin) (fields : Fields) : Checked (Timeline Binary64) :=
  mk <$> canvasKey.withDefault ⟨0, 0⟩ (Canvas.fromDocument origin) fields
    <*> tracksKey.withDefault [] (Document.list (Track.fromDocument origin)) fields

def fromDocument (origin : Origin) : Json → Checked (Timeline Binary64) :=
  Document.object origin "Timeline" (fromFields origin)

def toDocument (spelling : Key → String) (t : Timeline Binary64) : Json :=
  .obj [(spelling canvasKey, t.canvas.toDocument spelling),
    (spelling tracksKey, .arr (t.tracks.map (Track.toDocument spelling)))]

end Timeline

end Montage
