import Montage.Json.Reader
import Montage.Render.Failure

/-!
# Probing

The sources of a render are probed with an external tool, each distinct path once and a limited
number at a time. A probe that fails in an expected way leaves its source without size and sound;
any other failure ends the render.
-/
namespace Montage

/-- What running the probe tool on a file came to; what it wrote is as it came from outside. -/
inductive ProbeRun where
  | exited (returncode : Int) (report diagnostic : String)
  | timedOut
  | notStarted (failure : Failure)

namespace ProbeRun

/-- The words of the command that runs the tool. -/
def command (s : Settings) (path : String) : List String :=
  [s.ffprobePath, "-v", "error", "-print_format", "json", "-show_format", "-show_streams", path]

def refuse (message : String) : Failure := .coded (.say .probe message)

/-- The value of a report. Numbers and nestings beyond all limits are no faults of the notation. -/
def readReport (report : String) : Except Failure Json :=
  match Json.read report with
  | .ok value => .ok value
  | .error ⟨.integerTooLong digits, _⟩ => .error (.report (.numeralTooLong digits))
  | .error ⟨.tooDeep value, _⟩ => .error (.report (.tooDeep value))
  | .error e => .error (refuse ("Failed to parse ffprobe output: " ++ e.message report))

/-- What the run says of the file. -/
def summary (path : String) : ProbeRun → Except Failure MediaSummary
  | timedOut => .error (refuse ("ffprobe timed out: " ++ path))
  | notStarted failure =>
    if failure.isRefusal then .error (refuse ("ffprobe could not be started: " ++ failure.text))
    else .error failure
  | exited returncode report diagnostic =>
    if returncode ≠ 0 then
      let said := Text.trim Text.isSpacing diagnostic.toList
      .error (refuse ("ffprobe failed: " ++ Text.ofChars said))
    else do
      let value ← readReport report
      (MediaSummary.ofReport value).mapError .report

end ProbeRun

/-- A way to learn the measures of the source at a path. -/
abbrev Prober := String → Except Failure Measures

/-- The prober that runs the probe tool. -/
def Prober.ofRuns (run : String → ProbeRun) : Prober := fun path =>
  ((run path).summary path).map MediaSummary.measures

/-- What a source turns out to be, and the warning if its probe failed. -/
structure Inspection where
  finding : Except Failure Finding
  warning : Option String

/-- The failure that ends the render. -/
def Inspection.failure? (inspection : Inspection) : Option Failure :=
  match inspection.finding with
  | .ok _ => none
  | .error e => some e

/-- What the measures of a source say of it. They are taken, and the line about them is logged,
outside of what is awaited: a failure here ends a render, whatever its family. -/
def SourceInfo.told (path : String) (measures : Measures) : Except ReportError SourceInfo := do
  let info ← ofMeasures path measures
  let _ ← info.line path
  .ok info

/-- The inspection of one source. -/
def Prober.inspect (prober : Prober) (path : String) : Inspection :=
  match prober path with
  | .ok measures => ⟨((SourceInfo.told path measures).map .found).mapError .report, none⟩
  | .error failure =>
    if failure.isTolerated then
      ⟨.ok .unavailable,
        some ("[PROBE] " ++ path ++ ": " ++ failure.text ++ "; using zero-size silent defaults")⟩
    else ⟨.error failure, none⟩

end Montage
