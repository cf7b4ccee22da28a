import Montage.Document.Field
import Montage.Number.Scalar

/-!
# Settings

The values that a render depends on besides its request. Each is taken from the given value of
its name, else from the first one given under the name in other letter cases, else from the last
environment variable of the name in any letter case, else from its default.
-/
namespace Montage

open Document (Checked Key Fields Origin)

structure Settings where
  appName : String
  appVersion : String
  debug : Bool
  /-- Every source and destination has to lie in this directory. -/
  galleryPath : String
  thumbnailDirName : String
  ffmpegPath : String
  ffprobePath : String
  renderFps : Int
  renderVideoCodec : String
  renderCrf : Int
  renderPreset : String
  renderPixFmt : String
  renderAudioCodec : String
  renderAudioBitrate : String
  renderAudioSampleRate : Int
  /-- Stands between the stem and the extension of an unfinished output. -/
  tempSuffix : String
  probeMaxWorkers : Int
  probeTimeout : Binary64
  defaultCanvasWidth : Int
  defaultCanvasHeight : Int
  /-- Clips of this length or less are left out of a render. -/
  minClipDuration : Binary64

namespace Settings

def standard : Settings where
  appName := "Timeline Render"
  appVersion := "0.1.0"
  debug := false
  galleryPath := "."
  thumbnailDirName := ".gallery_thumbs"
  ffmpegPath := "ffmpeg"
  ffprobePath := "ffprobe"
  renderFps := 30
  renderVideoCodec := "libx264"
  renderCrf := 18
  renderPreset := "medium"
  renderPixFmt := "yuv420p"
  renderAudioCodec := "aac"
  renderAudioBitrate := "192k"
  renderAudioSampleRate := 48000
  tempSuffix := ".rendering"
  probeMaxWorkers := 4
  probeTimeout := Scalar.nat 30
  defaultCanvasWidth := 1920
  defaultCanvasHeight := 1080
  minClipDuration := Scalar.ratio 5 100

def fromFields (fields : Fields) : Checked Settings :=
  let text (name default : String) := (Key.plain name).withDefault default Document.text fields
  let integer (name : String) (default : Int) :=
    (Key.plain name).withDefault default Document.integer fields
  let number (name : String) (default : Binary64) :=
    (Key.plain name).withDefault default Document.number fields
  mk <$> text "app_name" standard.appName
    <*> text "app_version" standard.appVersion
    <*> (Key.plain "debug").withDefault standard.debug Document.boolean fields
    <*> text "gallery_path" standard.galleryPath
    <*> text "thumbnail_dir_name" standard.thumbnailDirName
    <*> text "ffmpeg_path" standard.ffmpegPath
    <*> text "ffprobe_path" standard.ffprobePath
    <*> integer "render_fps" standard.renderFps
    <*> text "render_video_codec" standard.renderVideoCodec
    <*> integer "render_crf" standard.renderCrf
    <*> text "render_preset" standard.renderPreset
    <*> text "render_pix_fmt" standard.renderPixFmt
    <*> text "render_audio_codec" standard.renderAudioCodec
    <*> text "render_audio_bitrate" standard.renderAudioBitrate
    <*> integer "render_audio_sample_rate" standard.renderAudioSampleRate
    <*> text "temp_suffix" standard.tempSuffix
    <*> integer "probe_max_workers" standard.probeMaxWorkers
    <*> number "probe_timeout_s" standard.probeTimeout
    <*> integer "default_canvas_width" standard.defaultCanvasWidth
    <*> integer "default_canvas_height" standard.defaultCanvasHeight
    <*> number "min_clip_duration_s" standard.minClipDuration

/-- A letter without its case. The Kelvin sign is a capital `k` too. -/
def lowerChar (c : Char) : Char := if c = '\u212a' then 'k' else c.toLower

/-- A name without its letter cases. -/
def lowerName (name : String) : String := String.ofList (name.toList.map lowerChar)

/-- Settings from environment variables and given values, which go before them. -/
def load (environment : List (String × String)) (given : Fields) : Checked Settings :=
  let lowered := given.map fun (name, value) => (lowerName name, value)
  let fromEnvironment := environment.reverse.map fun (name, value) =>
    (lowerName name, Json.text value)
  fromFields (given ++ lowered ++ fromEnvironment)

def toDocument (s : Settings) : Json :=
  .obj [("app_name", .text s.appName),
    ("app_version", .text s.appVersion),
    ("debug", .bool s.debug),
    ("gallery_path", .text s.galleryPath),
    ("thumbnail_dir_name", .text s.thumbnailDirName),
    ("ffmpeg_path", .text s.ffmpegPath),
    ("ffprobe_path", .text s.ffprobePath),
    ("render_fps", .int s.renderFps),
    ("render_video_codec", .text s.renderVideoCodec),
    ("render_crf", .int s.renderCrf),
    ("render_preset", .text s.renderPreset),
    ("render_pix_fmt", .text s.renderPixFmt),
    ("render_audio_codec", .text s.renderAudioCodec),
    ("render_audio_bitrate", .text s.renderAudioBitrate),
    ("render_audio_sample_rate", .int s.renderAudioSampleRate),
    ("temp_suffix", .text s.tempSuffix),
    ("probe_max_workers", .int s.probeMaxWorkers),
    ("probe_timeout_s", .float s.probeTimeout),
    ("default_canvas_width", .int s.defaultCanvasWidth),
    ("default_canvas_height", .int s.defaultCanvasHeight),
    ("min_clip_duration_s", .float s.minClipDuration)]

end Settings

end Montage
