import Montage.Proofs.Media.Digits
import Montage.Proofs.Media.Finish

/-!
# Probes that end a render

A probe that cannot start, runs out of time, exits with a code or prints no JSON leaves its source
without size and sound, and so does a report in which a size is a text that is no numeral. But a
report that is no object, that lists no streams or states no format where it should, or whose
picture has an infinite size or one that is a list or an object, fails in a way that is not
awaited, and ends the render. These are all the ways in which what a probe prints can end one.
-/
namespace Montage

/-- An error of a report that ends a render. -/
def ReportError.IsFatal (e : ReportError) : Prop := (Failure.report e).isTolerated = false

namespace Report

/-- A value that neither holds others nor is a text. -/
def IsAtom : Json → Prop
  | .null => True
  | .bool _ => True
  | .int _ => True
  | .float _ => True
  | _ => False

/-- A value of which no integer is made, whatever it holds. -/
def HasNoInteger : Json → Prop
  | .null => True
  | .float (.infinite _) => True
  | .arr _ => True
  | .obj _ => True
  | _ => False

/-- A stream that states a side of its picture, and in a way that gives no integer. -/
def HasOddSide (fields : Json.Fields) (key : String) : Prop :=
  ∃ v, Json.lookup fields key = some v ∧ v.truthy = true ∧ HasNoInteger v

/-- A stream that is no object, or that has an odd side while the picture is still looked for. -/
def Streams.IsBrokenBy (known : Streams) : Json → Prop
  | .obj fields => isStream "video" fields = true ∧ known.width = 0 ∧
      (HasOddSide fields "width" ∨
        (∃ width, side fields "width" = .ok width) ∧ HasOddSide fields "height")
  | _ => True

/-- The streams as a report lists them. -/
def listed (fields : Json.Fields) : Json := (Json.lookup fields "streams").getD (.arr [])

/-- A list of streams of which one is broken and all before it can be read. -/
def HasOddStream (fields : Json.Fields) : Prop :=
  ∃ before stream after known, items (listed fields) = .ok (before ++ stream :: after) ∧
    before.foldlM Streams.add .none = .ok known ∧ known.IsBrokenBy stream

/-- A list of streams that can all be read. -/
def ReadsStreams (fields : Json.Fields) : Prop :=
  ∃ streams known, items (listed fields) = .ok streams ∧
    streams.foldlM Streams.add .none = .ok known

/-- A format that cannot be searched, or whose duration is an integer beyond all doubles. -/
def IsOddFormat : Json → Prop
  | .obj fields => ∃ n, Json.lookup fields "duration" = some (.int n) ∧
      (Scalar.ratio n 1 : Binary64).isFinite = false
  | format => IsAtom format

/-- A report of a shape that ends a render. -/
def IsMisshapen : Json → Prop
  | .obj fields => IsAtom (listed fields) ∨ HasOddStream fields ∨
      ReadsStreams fields ∧ ∃ format, Json.lookup fields "format" = some format ∧
        IsOddFormat format
  | _ => True

theorem integer_fails_iff (v : Json) :
    (∃ e, integer v = .error e ∧ e.IsFatal) ↔ HasNoInteger v := by
  have fatal (kind : String) : (ReportError.notNumeric kind).IsFatal := rfl
  -- A conversion of `nan` or of a text fails too, but in a way that a probe awaits.
  cases v with
  | null => exact iff_of_true ⟨_, rfl, fatal _⟩ trivial
  | bool b => exact iff_of_false nofun id
  | int n => exact iff_of_false nofun id
  | float x =>
    cases x with
    | nan =>
      refine iff_of_false ?_ id
      rintro ⟨e, failed, tolerated⟩
      cases failed
      cases tolerated
    | infinite negative => exact iff_of_true ⟨_, rfl, rfl⟩ trivial
    | finite negative rank => exact iff_of_false nofun id
  | text s =>
    refine iff_of_false ?_ id
    rintro ⟨e, failed, tolerated⟩
    simp only [integer] at failed
    split at failed <;> cases failed <;> cases tolerated
  | arr items => exact iff_of_true ⟨_, rfl, fatal _⟩ trivial
  | obj fields => exact iff_of_true ⟨_, rfl, fatal _⟩ trivial

theorem side_fails_iff (fields : Json.Fields) (key : String) :
    (∃ e, side fields key = .error e ∧ e.IsFatal) ↔ HasOddSide fields key := by
  unfold HasOddSide side
  cases Json.lookup fields key with
  | none => simp
  | some v =>
    dsimp only
    split
    next full => simp [integer_fails_iff, full]
    next empty => simp [empty]

theorem Streams.add_obj (known : Streams) (fields : Json.Fields) :
    known.add (.obj fields) =
      if isStream "video" fields && known.width = 0 then do
        let width ← side fields "width"
        let height ← side fields "height"
        .ok { known with width, height }
      else .ok { known with hasAudio := known.hasAudio || isStream "audio" fields } :=
  rfl

theorem Streams.add_fails_iff (known : Streams) (stream : Json) :
    (∃ e, known.add stream = .error e ∧ e.IsFatal) ↔ known.IsBrokenBy stream := by
  -- An object fails through the sides that are read from it, and anything else is no stream at all.
  cases stream with
  | obj fields =>
    rw [add_obj]
    split
    next sought =>
      simp only [Bool.and_eq_true, decide_eq_true_eq] at sought
      simp [Except.exists_bind_eq_error_iff, side_fails_iff, IsBrokenBy, sought]
    next settled =>
      simp only [Bool.and_eq_true, decide_eq_true_eq] at settled
      exact iff_of_false nofun fun h => settled ⟨h.1, h.2.1⟩
  | null => exact iff_of_true ⟨_, rfl, rfl⟩ trivial
  | bool b => exact iff_of_true ⟨_, rfl, rfl⟩ trivial
  | int n => exact iff_of_true ⟨_, rfl, rfl⟩ trivial
  | float x => exact iff_of_true ⟨_, rfl, rfl⟩ trivial
  | text s => exact iff_of_true ⟨_, rfl, rfl⟩ trivial
  | arr items => exact iff_of_true ⟨_, rfl, rfl⟩ trivial

theorem items_fails_iff (v : Json) :
    (∃ e, items v = .error e ∧ e.IsFatal) ↔ IsAtom v := by
  cases v with
  | null => exact iff_of_true ⟨_, rfl, rfl⟩ trivial
  | bool b => exact iff_of_true ⟨_, rfl, rfl⟩ trivial
  | int n => exact iff_of_true ⟨_, rfl, rfl⟩ trivial
  | float x => exact iff_of_true ⟨_, rfl, rfl⟩ trivial
  | text s => exact iff_of_false nofun id
  | arr items => exact iff_of_false nofun id
  | obj fields => exact iff_of_false nofun id

theorem seconds_fails_iff (v : Json) :
    (∃ e, seconds v = .error e ∧ e.IsFatal) ↔
      ∃ n, v = .int n ∧ (Scalar.ratio n 1 : Binary64).isFinite = false := by
  -- Only an integer can be too large here, and all other values are read as some number.
  cases v with
  | int n =>
    simp only [seconds, Scalar.ofInt]
    split
    next finite =>
      refine iff_of_false nofun ?_
      rintro ⟨_, same, infinite⟩
      cases same
      exact absurd finite (Bool.eq_false_iff.mp infinite)
    next infinite => exact iff_of_true ⟨_, rfl, rfl⟩ ⟨n, rfl, Bool.eq_false_iff.mpr infinite⟩
  | null => exact iff_of_false nofun nofun
  | bool b => exact iff_of_false nofun nofun
  | float x => exact iff_of_false nofun nofun
  | text s => exact iff_of_false nofun nofun
  | arr items => exact iff_of_false nofun nofun
  | obj fields => exact iff_of_false nofun nofun

theorem duration_fails_iff (format : Json) :
    (∃ e, duration format = .error e ∧ e.IsFatal) ↔ IsOddFormat format := by
  cases format with
  | obj fields =>
    simp only [duration, IsOddFormat]
    cases Json.lookup fields "duration" with
    | none => simp
    | some v => simp [seconds_fails_iff]
  | null => exact iff_of_true ⟨_, rfl, rfl⟩ trivial
  | bool b => exact iff_of_true ⟨_, rfl, rfl⟩ trivial
  | int n => exact iff_of_true ⟨_, rfl, rfl⟩ trivial
  | float x => exact iff_of_true ⟨_, rfl, rfl⟩ trivial
  | text s => exact iff_of_false nofun id
  | arr items => exact iff_of_false nofun id

theorem isFatal_of_seconds {v : Json} {e : ReportError} (failed : seconds v = .error e) :
    e.IsFatal := by
  cases v with
  | int n =>
    simp only [seconds, Scalar.ofInt] at failed
    split at failed <;> cases failed
    rfl
  | null | bool | float | text | arr | obj => cases failed

theorem isFatal_of_duration {format : Json} {e : ReportError}
    (failed : duration format = .error e) : e.IsFatal := by
  cases format with
  | obj fields =>
    simp only [duration] at failed
    split at failed
    · exact isFatal_of_seconds failed
    · cases failed
  | arr | text => cases failed
  | null | bool | int | float =>
    cases failed
    rfl

/-- A format gives a duration exactly when it is not odd. -/
theorem exists_duration_iff (format : Json) :
    (∃ d, duration format = .ok d) ↔ ¬IsOddFormat format := by
  rw [← duration_fails_iff]
  cases found : duration format with
  | ok d => simp
  | error e => simp [isFatal_of_duration found]

end Report

namespace MediaSummary

open Report

theorem ofReport_obj (fields : Json.Fields) :
    ofReport (.obj fields) = (do
      let streams ← items (listed fields)
      let known ← streams.foldlM Streams.add .none
      let duration ← Report.duration ((Json.lookup fields "format").getD (.obj []))
      .ok ⟨known, duration⟩) :=
  rfl

/-- The reports that end a render are those of the shapes named. -/
theorem ofReport_fails_iff (report : Json) :
    (∃ e, ofReport report = .error e ∧ e.IsFatal) ↔ IsMisshapen report := by
  cases report with
  | obj fields =>
    have format : IsOddFormat ((Json.lookup fields "format").getD (.obj [])) ↔
        ∃ format, Json.lookup fields "format" = some format ∧ IsOddFormat format := by
      cases Json.lookup fields "format" with
      | none => exact iff_of_false nofun nofun
      | some format => simp
    -- The streams are listed, then read, then the format: a step fails where those before did not.
    rw [ofReport_obj, Except.exists_bind_eq_error_iff, items_fails_iff]
    refine or_congr_right ?_
    constructor
    · rintro ⟨streams, found, failed⟩
      rcases Except.exists_bind_eq_error_iff.mp failed with
        ⟨e, failed, fatal⟩ | ⟨known, read, failed⟩
      · obtain ⟨before, stream, after, known, rfl, folded, broken⟩ :=
          Except.foldlM_eq_error_iff.mp failed
        exact .inl ⟨before, stream, after, known, found, folded,
          (known.add_fails_iff stream).mp ⟨e, broken, fatal⟩⟩
      · rcases Except.exists_bind_eq_error_iff.mp failed with odd | ⟨_, _, e, done, _⟩
        · exact .inr ⟨⟨streams, known, found, read⟩, format.mp ((duration_fails_iff _).mp odd)⟩
        · cases done
    · rintro (⟨before, stream, after, known, found, folded, broken⟩ |
        ⟨⟨streams, known, found, read⟩, odd⟩)
      · obtain ⟨e, failed, fatal⟩ := (known.add_fails_iff stream).mpr broken
        refine ⟨_, found, Except.exists_bind_eq_error_iff.mpr (.inl ⟨e, ?_, fatal⟩)⟩
        exact Except.foldlM_eq_error_iff.mpr ⟨before, stream, after, known, rfl, folded, failed⟩
      · refine ⟨streams, found, Except.exists_bind_eq_error_iff.mpr (.inr ⟨known, read, ?_⟩)⟩
        exact Except.exists_bind_eq_error_iff.mpr
          (.inl ((duration_fails_iff _).mpr (format.mpr odd)))
  | null => exact iff_of_true ⟨_, rfl, rfl⟩ trivial
  | bool b => exact iff_of_true ⟨_, rfl, rfl⟩ trivial
  | int n => exact iff_of_true ⟨_, rfl, rfl⟩ trivial
  | float x => exact iff_of_true ⟨_, rfl, rfl⟩ trivial
  | text s => exact iff_of_true ⟨_, rfl, rfl⟩ trivial
  | arr items => exact iff_of_true ⟨_, rfl, rfl⟩ trivial

end MediaSummary

theorem Failure.isTolerated_of_isRefusal (failure : Failure) (refused : failure.isRefusal = true) :
    failure.isTolerated = true := by
  have family := of_decide_eq_true refused
  cases failure with
  | coded error => cases family
  | file error => simp [isTolerated, family]
  | conversion error => simp [isTolerated, family]
  | command error => simp [isTolerated, family]
  | report error => simp [isTolerated, family]
  | answer error => simp [isTolerated, family]
  | foreign _ name text => simp [isTolerated, family]

namespace ProbeRun

/-- A run that ends a render: the tool failed to start in a way that is not awaited, or it has
printed a report of a wrong shape. -/
def IsFatal : ProbeRun → Prop
  | timedOut => False
  | notStarted failure => failure.isTolerated = false
  | exited returncode report _ =>
    returncode = 0 ∧ ∃ value, Json.read report = .ok value ∧ Report.IsMisshapen value

/-- What a render makes of a run: what the report says, or nothing at all. -/
def finding (path : String) (run : ProbeRun) : Finding :=
  match run.summary path with
  | .ok summary =>
    let isImage := MediaType.isImage path
    .found ⟨max summary.streams.width 0, max summary.streams.height 0,
      summary.streams.hasAudio && !isImage, isImage⟩
  | .error _ => .unavailable

/-- A report that is not in the notation is tolerated, whatever is wrong with it. -/
theorem readReport_tolerated {report : String} {failure : Failure}
    (failed : readReport report = .error failure) : failure.isTolerated = true := by
  unfold readReport at failed
  split at failed <;> cases failed <;> rfl

theorem readReport_eq_ok_iff (report : String) (value : Json) :
    readReport report = .ok value ↔ Json.read report = .ok value := by
  unfold readReport
  split <;> simp_all

/-- A refusal of the tool itself is tolerated. -/
theorem isTolerated_refuse (message : String) : (refuse message).isTolerated = true := rfl

theorem summary_fails_iff (path : String) (run : ProbeRun) :
    (∃ failure, run.summary path = .error failure ∧ failure.isTolerated = false) ↔
      run.IsFatal := by
  have refused (message : String) :
      ¬∃ failure, (Except.error (refuse message) : Except Failure MediaSummary) = .error failure ∧
        failure.isTolerated = false := by
    rintro ⟨failure, failed, fatal⟩
    cases failed
    rw [isTolerated_refuse] at fatal
    cases fatal
  -- The tool's own refusals are awaited. Only a report that was printed can be fatal beside them.
  cases run with
  | timedOut => exact iff_of_false (refused _) id
  | notStarted cause =>
    simp only [summary, IsFatal]
    split
    next unavailable =>
      rw [cause.isTolerated_of_isRefusal unavailable]
      exact iff_of_false (refused _) (by decide)
    next => simp
  | exited returncode report diagnostic =>
    simp only [summary, IsFatal]
    split
    next broken => exact iff_of_false (refused _) fun h => broken h.1
    next done =>
      rw [Except.exists_bind_eq_error_iff]
      constructor
      · rintro (⟨failure, failed, fatal⟩ | ⟨value, read, failure, failed, fatal⟩)
        · rw [readReport_tolerated failed] at fatal
          cases fatal
        · obtain ⟨e, unusable, rfl⟩ := Except.mapError_eq_error_iff.mp failed
          exact ⟨not_not.mp done, value, (readReport_eq_ok_iff _ _).mp read,
            (MediaSummary.ofReport_fails_iff value).mp ⟨e, unusable, fatal⟩⟩
      · rintro ⟨_, value, read, misshapen⟩
        obtain ⟨e, failed, fatal⟩ := (MediaSummary.ofReport_fails_iff value).mpr misshapen
        exact .inr ⟨value, (readReport_eq_ok_iff _ _).mpr read, .report e,
          Except.mapError_eq_error_iff.mpr ⟨e, failed, rfl⟩, fatal⟩

end ProbeRun

section

variable {run : String → ProbeRun} {path : String}

/-- A probe whose run is not fatal comes to a finding. -/
theorem Prober.inspect_of_not_isFatal (h : ¬(run path).IsFatal) :
    ((ofRuns run).inspect path).finding = .ok ((run path).finding path) := by
  rw [← ProbeRun.summary_fails_iff path] at h
  unfold inspect ofRuns ProbeRun.finding
  cases read : (run path).summary path with
  | ok summary =>
    have told := SourceInfo.told_of_isShort (ProbeRun.isShort_summary read) path
    simp only [Except.map, told]
    rfl
  | error failure =>
    have tolerated : failure.isTolerated = true := by
      by_contra fatal
      exact h ⟨failure, read, Bool.eq_false_iff.mpr fatal⟩
    simp [Except.map, tolerated]

theorem Prober.inspect_of_isFatal (h : (run path).IsFatal) :
    ∃ failure, ((ofRuns run).inspect path).finding = .error failure := by
  obtain ⟨failure, failed, fatal⟩ := (ProbeRun.summary_fails_iff path _).mpr h
  refine ⟨failure, ?_⟩
  simp [inspect, ofRuns, failed, Except.map, fatal]

end

/-- A survey of any paths, whatever their probes come to and in whatever order they run, goes on
until every probe has finished. Then it has one finding for each distinct path, its own, unless
the run of one of them is fatal; in that case it has failed. -/
theorem Survey.finds_unless_fatal (run : String → ProbeRun) (paths : List String) (maxWorkers : Int)
    (events : List ProbeEvent) :
    let prober := Prober.ofRuns run
    let survey := (ofPaths paths maxWorkers).after prober events
    (∀ event next, survey.step? prober event = some next → next.remaining < survey.remaining) ∧
    (survey.remaining ≠ 0 → ∃ event next, survey.step? prober event = some next) ∧
    (survey.remaining = 0 →
      ((∀ path ∈ paths, ¬(run path).IsFatal) →
        survey.cache = .ok ((distinct paths).map fun path => (path, (run path).finding path))) ∧
      ((∃ path ∈ paths, (run path).IsFatal) → ∃ failure, survey.cache = .error failure)) := by
  intro prober survey
  have follows : survey.Follows paths maxWorkers := (follows_ofPaths paths maxWorkers).after events
  have serves : survey.Serves prober paths := (serves_ofPaths paths maxWorkers).after events
  refine ⟨fun _ _ => step?_remaining, follows.exists_step?, fun finished => ?_⟩
  constructor
  · intro awaited
    have inspected (path : String) (member : path ∈ paths) :=
      Prober.inspect_of_not_isFatal (awaited path member)
    have clean : survey.failure = none :=
      serves.failure_eq_none fun path member => ⟨_, inspected path member⟩
    obtain ⟨cache, found⟩ : ∃ cache, survey.cache = .ok cache := ⟨_, by rw [Survey.cache, clean]⟩
    rw [found, ← follows.mapM_eq_of_cache serves finished found]
    refine Except.mapM_eq_ok_map fun path member => ?_
    rw [inspected path ((mem_distinct path paths).mp member)]
    rfl
  · rintro ⟨path, listed, fatal⟩
    cases found : survey.cache with
    | error failure => exact ⟨failure, rfl⟩
    | ok cache =>
      -- Every finding of a survey that has not failed is one that its prober gives.
      obtain ⟨failure, failed⟩ := Prober.inspect_of_isFatal fatal
      obtain ⟨entry, _, kept⟩ := (Except.mem_of_mapM_eq_ok
        (follows.mapM_eq_of_cache serves finished found)).1 path
          ((mem_distinct path paths).mpr listed)
      rw [failed] at kept
      cases kept

/-- One file whose report is of use, and others that the tool refuses. -/
def ProbeRun.sample (path : String) : ProbeRun :=
  if path = "a.mp4" then
    .exited 0 ("\x7b\"streams\": [\x7b\"codec_type\": \"video\", \"width\": 64, "
      ++ "\"height\": 48\x7d]\x7d") ""
  else .exited 1 "" "no such file"

theorem ProbeRun.sample_not_isFatal (path : String) : ¬(ProbeRun.sample path).IsFatal := by
  by_cases known : path = "a.mp4"
  · subst known
    rw [← ProbeRun.summary_fails_iff "a.mp4"]
    rintro ⟨failure, failed, _⟩
    have read : ((ProbeRun.sample "a.mp4").summary "a.mp4").isOk = true := by decide +kernel
    rw [failed] at read
    cases read
  · simp [ProbeRun.sample, known, ProbeRun.IsFatal]

/-- Two probes that finish in another order than they started in. -/
theorem Survey.finds_unless_fatal_crossed :
    let survey := (Survey.ofPaths ["a.mp4", "b.mp4", "a.mp4"] 2).after (.ofRuns ProbeRun.sample)
      [.start 1, .start 0, .finish 0, .finish 1]
    survey.remaining = 0 ∧ survey.cache =
      .ok [("a.mp4", .found ⟨64, 48, false, false⟩), ("b.mp4", .unavailable)] := by
  intro survey
  have finished : survey.remaining = 0 := by decide +kernel
  have found := (Survey.finds_unless_fatal ProbeRun.sample ["a.mp4", "b.mp4", "a.mp4"] 2
    [.start 1, .start 0, .finish 0, .finish 1]).2.2 finished
  refine ⟨finished, (found.1 fun path _ => ProbeRun.sample_not_isFatal path).trans ?_⟩
  decide +kernel

/-- A probe that prints an empty list ends the survey. -/
theorem Survey.fails_for_list :
    let survey := Survey.complete (.ofRuns fun _ => .exited 0 "[]" "") ["a.mp4"] 4
    survey.remaining = 0 ∧ survey.cache = .error (.report (.withoutFields "list")) := by
  decide +kernel

end Montage
