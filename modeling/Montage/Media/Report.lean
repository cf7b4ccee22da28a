import Montage.Json.Reader
import Montage.Media.Info
import Montage.Media.Type
import Montage.Number.Numeral
import Montage.Number.Scalar
import Montage.Text.Blank
import Montage.Text.DecimalDigit
import Montage.Text.Quoted

/-!
# Probe reports

A report is a JSON document that lists the streams of a media file and describes its format. The
picture size is that of the first video stream with a width, and there is sound if any stream is
an audio stream. A prober may state a size in any JSON value that can be taken as an integer.
-/
namespace Montage

/-- Why a report cannot be read or used. -/
inductive ReportError where
  /-- A value that has no fields stands where an object is looked into. -/
  | withoutFields (kind : String)
  /-- A value that holds no others stands where streams are listed. -/
  | withoutItems (kind : String)
  /-- A value that cannot be searched stands in place of the format. -/
  | withoutMembers (kind : String)
  | notNumeric (kind : String)
  | unreadableNumeral (text : String)
  | numeralTooLong (digits : Nat)
  /-- A side of the picture has too many digits to be written down. -/
  | sideTooLong
  | tooDeep (value : Json.Nesting)
  | conversion (error : ConversionError)
deriving DecidableEq

namespace ReportError

def message : ReportError → String
  | withoutFields kind => s!"'{kind}' object has no attribute 'get'"
  | withoutItems kind => s!"'{kind}' object is not iterable"
  | withoutMembers kind => s!"argument of type '{kind}' is not iterable"
  | notNumeric kind =>
    "int() argument must be a string, a bytes-like object or a real number, not "
      ++ s!"'{kind}'"
  | unreadableNumeral text =>
    "invalid literal for int() with base 10: "
      ++ String.ofList ((Text.quote text).toList.take 200)
  | numeralTooLong digits => Numeral.tooLongMessage digits
  | sideTooLong => Numeral.noTextMessage
  | tooDeep value => value.tooDeepMessage
  | conversion error => error.message

end ReportError

namespace Report

/-- The name of a kind of JSON value in messages. -/
def kindName : Json → String
  | .null => "NoneType"
  | .bool _ => "bool"
  | .int _ => "int"
  | .float _ => "float"
  | .text _ => "str"
  | .arr _ => "list"
  | .obj _ => "dict"

/-- A text as a numeral is read: without blanks around it, its digits in ASCII, and without the
underscores that group them. -/
def numeral? (text : String) : Option (List Char) :=
  Numeral.ungroupDigits? ((Text.trim Text.isBlank text.toList).map Text.plainDigit)

/-- A text as a number. -/
def number? (text : String) : Option Binary64 := (numeral? text).bind Numeral.number?

/-- A value as an integer; a fraction is cut off. -/
def integer : Json → Except ReportError Int
  | .int n => .ok n
  | .bool b => .ok (if b then 1 else 0)
  | .float x => x.truncate.mapError .conversion
  | .text s =>
    match ((numeral? s).map Numeral.whole).getD .malformed with
    | .value n => .ok n
    | .tooLong digits => .error (.numeralTooLong digits)
    | .malformed => .error (.unreadableNumeral s)
  | v => .error (.notNumeric (kindName v))

def fields : Json → Except ReportError (Json.Fields)
  | .obj fields => .ok fields
  | v => .error (.withoutFields (kindName v))

/-- The values that a value holds: items, keys or characters. -/
def items : Json → Except ReportError (List Json)
  | .arr items => .ok items
  | .obj fields => .ok (fields.map fun (key, _) => .text key)
  | .text s => .ok ((Text.letters s).map fun letter => .text (Text.ofLetters [letter]))
  | v => .error (.withoutItems (kindName v))

/-- A side of the picture; absent and empty values count as zero. -/
def side (fields : Json.Fields) (key : String) : Except ReportError Int :=
  match Json.lookup fields key with
  | some v => if v.truthy then integer v else .ok 0
  | none => .ok 0

def isStream (kind : String) (fields : Json.Fields) : Bool :=
  match Json.lookup fields "codec_type" with
  | some (.text s) => s = kind
  | _ => false

/-- What is known of the streams read so far. -/
structure Streams where
  width : Int
  height : Int
  hasAudio : Bool
deriving DecidableEq

def Streams.none : Streams := ⟨0, 0, false⟩

/-- A further stream. Once a video stream with a width has come, later ones do not count. -/
def Streams.add (known : Streams) (stream : Json) : Except ReportError Streams := do
  let fields ← fields stream
  if isStream "video" fields && known.width = 0 then
    let width ← side fields "width"
    let height ← side fields "height"
    .ok { known with width, height }
  else .ok { known with hasAudio := known.hasAudio || isStream "audio" fields }

/-- A value as a number of seconds; one that is not a number counts as zero. -/
def seconds : Json → Except ReportError Binary64
  | .int n => (Scalar.ofInt n).mapError .conversion
  | .bool b => .ok (Scalar.nat (if b then 1 else 0))
  | .float x => .ok x
  | .text s => .ok ((number? s).getD (Scalar.nat 0))
  | _ => .ok (Scalar.nat 0)

/-- The duration that a format states. -/
def duration : Json → Except ReportError Binary64
  | .obj fields =>
    match Json.lookup fields "duration" with
    | some v => seconds v
    | none => .ok (Scalar.nat 0)
  | .arr _ => .ok (Scalar.nat 0)
  | .text _ => .ok (Scalar.nat 0)
  | v => .error (.withoutMembers (kindName v))

end Report

/-- What a report says of a media file. -/
structure MediaSummary where
  streams : Report.Streams
  duration : Binary64

namespace MediaSummary

def ofReport (report : Json) : Except ReportError MediaSummary := do
  let fields ← Report.fields report
  let streams ← Report.items ((Json.lookup fields "streams").getD (.arr []))
  let streams ← streams.foldlM Report.Streams.add .none
  let duration ← Report.duration ((Json.lookup fields "format").getD (.obj []))
  .ok ⟨streams, duration⟩

end MediaSummary

/-- What a prober answers, as yet in JSON values. -/
structure Measures where
  width : Json
  height : Json
  hasAudio : Json

/-- The measures of a media file by its summary. -/
def MediaSummary.measures (s : MediaSummary) : Measures :=
  ⟨.int s.streams.width, .int s.streams.height, .bool s.streams.hasAudio⟩

/-- What a compile needs of the measures of a source. A still image is silent. -/
def SourceInfo.ofMeasures (path : String) (m : Measures) : Except ReportError SourceInfo := do
  let isImage := MediaType.isImage path
  let width ← Report.integer m.width
  let height ← Report.integer m.height
  .ok ⟨max width 0, max height 0, m.hasAudio.truthy && !isImage, isImage⟩

/-- A side of the picture written down. -/
def Report.sideText (n : Int) : Except ReportError String :=
  (Numeral.text? n).elim (.error .sideTooLong) .ok

/-- The line of the log for a source whose probe has succeeded. -/
def SourceInfo.line (path : String) (info : SourceInfo) : Except ReportError String := do
  let word (b : Bool) := if b then "True" else "False"
  let width ← Report.sideText info.width
  let height ← Report.sideText info.height
  .ok ("[PROBE] " ++ path ++ ": " ++ width ++ "x" ++ height ++ ", audio=" ++ word info.hasAudio
    ++ ", image=" ++ word info.isImage)

end Montage
