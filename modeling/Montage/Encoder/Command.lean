import Montage.Graph.Text
import Montage.Settings

/-!
# Encoder commands

One call of the encoder reads its inputs, runs a filter graph over them and writes one file. The
command names the inputs in the order in which the graph counts them, then the graph, and maps the
graph's picture and sound to the output.
-/
namespace Montage

structure EncoderCall where
  inputs : List String
  ops : List (FilterOp Binary64)
  /-- The label of the picture, then that of the sound if there is any. -/
  outputLabels : List Label
  output : String

/-- Why a call has no command. -/
inductive CommandError where
  | graph (error : GraphTextError)
  | withoutPicture
deriving DecidableEq

namespace CommandError

def message : CommandError → String
  | graph error => error.message
  | withoutPicture => "not enough values to unpack (expected at least 1, got 0)"

end CommandError

namespace EncoderCall

def inputArguments (inputs : List String) : List String :=
  inputs.flatMap fun path => ["-i", path]

def pictureArguments (s : Settings) (label : Label) : List String := [
  "-map", "[" ++ label ++ "]", "-c:v", s.renderVideoCodec, "-preset", s.renderPreset,
  "-crf", toString s.renderCrf, "-r", toString s.renderFps, "-pix_fmt", s.renderPixFmt]

def soundArguments (s : Settings) (label : Label) : List String := [
  "-map", "[" ++ label ++ "]", "-c:a", s.renderAudioCodec, "-b:a", s.renderAudioBitrate,
  "-ar", toString s.renderAudioSampleRate]

/-- The words of the command. Labels after the first two are left out. -/
def command (call : EncoderCall) (s : Settings) : Except CommandError (List String) := do
  let graph ← (graphText call.ops).mapError .graph
  match call.outputLabels with
  | [] => .error .withoutPicture
  | picture :: rest =>
    let sound := (rest.head?.map (soundArguments s)).getD []
    .ok ([s.ffmpegPath, "-y", "-hide_banner"] ++ inputArguments call.inputs
      ++ ["-filter_complex", graph] ++ pictureArguments s picture ++ sound
      ++ ["-movflags", "+faststart", call.output])

end EncoderCall

end Montage
