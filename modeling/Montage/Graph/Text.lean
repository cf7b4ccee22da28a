import Montage.Graph.Op
import Montage.Number.Notation

/-!
# Filter graphs as text

The textual form that the encoder takes: each operation between the labels that it reads and the
one that it makes. Times have six places; color values and gains are in the natural notation, and
delays are whole milliseconds.
-/
namespace Montage

/-- Why an operation has no textual form. -/
inductive GraphTextError where
  | unknownTurn (degrees : Int)
  | delay (error : ConversionError)
deriving DecidableEq

namespace GraphTextError

def message : GraphTextError → String
  | unknownTurn degrees => toString degrees
  | delay error => error.message

end GraphTextError

namespace GraphText

def commas (parts : List String) : String := String.intercalate "," parts

def trimParts (start duration offset : Binary64) (loop : Bool) : List String :=
  (if loop then ["loop=loop=-1:size=1:start=0"] else [])
    ++ ["trim=start=" ++ start.fixed ++ ":duration=" ++ duration.fixed,
      "setpts=PTS-STARTPTS+" ++ offset.fixed ++ "/TB"]

def luminance (ratio : Binary64) : String :=
  if Scalar.equal ratio (Scalar.nat 1) then ""
  else ",colorchannelmixer=rr=" ++ ratio.text ++ ":gg=" ++ ratio.text ++ ":bb=" ++ ratio.text

def turnParts (degrees : Int) : Except GraphTextError (List String) :=
  if degrees = 0 then .ok []
  else if degrees = 90 then .ok ["transpose=clock"]
  else if degrees = 180 then .ok ["hflip", "vflip"]
  else if degrees = 270 then .ok ["transpose=cclock"]
  else .error (.unknownTurn degrees)

/-- The turn and the flips; `null` passes the stream on where there are none. -/
def turnAndFlips (degrees : Int) (flipH flipV : Bool) : Except GraphTextError String := do
  let turn ← turnParts degrees
  let parts := turn ++ (if flipH then ["hflip"] else []) ++ (if flipV then ["vflip"] else [])
  .ok (if parts.isEmpty then "null" else commas parts)

/-- A delay in whole milliseconds, a half to the even one. -/
def milliseconds (delay : Binary64) : Except GraphTextError Int :=
  ((delay * Scalar.nat 1000).roundHalfEven).mapError .delay

def labels (names : List Label) : String :=
  String.join (names.map fun name => "[" ++ name ++ "]")

end GraphText

namespace FilterOp

open GraphText

/-- The operation without its labels. -/
def action : FilterOp Binary64 → Except GraphTextError String
  | colorSource _ color width height duration fps =>
    .ok (s!"color=c={color}:s={width}x{height}:r={fps}:d=" ++ duration.fixed)
  | crop _ _ rect => .ok s!"crop={rect.width}:{rect.height}:{rect.x}:{rect.y}"
  | trim _ _ start duration offset loop => .ok (commas (trimParts start duration offset loop))
  | colorAdjust _ _ brightness contrast saturation gamma ratio =>
    .ok ("eq=brightness=" ++ brightness.text ++ ":contrast=" ++ contrast.text
      ++ ":saturation=" ++ saturation.text ++ ":gamma=" ++ gamma.text ++ luminance ratio)
  | scale _ _ width height => .ok s!"scale={width}:{height}"
  | rotateFlip _ _ degrees flipH flipV => turnAndFlips degrees flipH flipV
  | overlay _ _ _ x y start stop =>
    .ok (s!"overlay=x={x}:y={y}:eof_action=pass:enable='gte(t," ++ start.fixed ++ ")*lt(t,"
      ++ stop.fixed ++ ")'")
  | audioTrim _ _ start duration delay gain => do
    let ms ← milliseconds delay
    .ok ("atrim=start=" ++ start.fixed ++ ":duration=" ++ duration.fixed
      ++ s!",asetpts=PTS-STARTPTS,adelay={ms}:all=1,volume=" ++ gain.text)
  | audioMix _ _ count normalize =>
    let flag := if normalize then 1 else 0
    .ok s!"amix=inputs={count}:duration=longest:normalize={flag}"

def text (op : FilterOp Binary64) : Except GraphTextError String := do
  let action ← op.action
  .ok (labels op.inputs ++ action ++ labels [op.output])

end FilterOp

/-- The text of a whole graph, an operation a line. Whole numbers are written at any length: one
of more than `Numeral.maxDigits` digits, for which the program's conversion gives up, can only be
a side of a canvas that is made by hand, since those of documents and reports have been read from
digits. -/
def graphText (ops : List (FilterOp Binary64)) : Except GraphTextError String := do
  let lines ← ops.mapM FilterOp.text
  .ok (String.intercalate ";\n" lines)

end Montage
