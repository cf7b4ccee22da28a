import Mathlib.Data.List.Induction
import Montage.Proofs.Media.Tolerance

/-!
# The streams of a report

The streams of a report are read one after the other, and both sides of the picture are overwritten
until a video stream with a width has come. So the two sides always are those of one stream: of the
first video stream with a width, or of the last video stream where none has a width. Sound is found
wherever an audio stream stands.
-/
namespace Montage

namespace Report

/-- A stream that states each side of its picture as an integer or not at all. -/
def IsSized (stream : Json.Fields) : Prop :=
  ∀ key ∈ ["width", "height"], ∀ v, Json.lookup stream key = some v → ∃ n, v = .int n

/-- The integer that a stream states for a side, and zero where it states none. -/
def stated (stream : Json.Fields) (key : String) : Int :=
  match Json.lookup stream key with
  | some (.int n) => n
  | _ => 0

def hasWidth (stream : Json.Fields) : Bool := stated stream "width" ≠ 0

def videos (streams : List Json.Fields) : List Json.Fields := streams.filter (isStream "video")

/-- The stream whose picture counts: the first video stream with a width, else the last one. -/
def pictureStream? (streams : List Json.Fields) : Option Json.Fields :=
  ((videos streams).find? hasWidth).or (videos streams).getLast?

/-- The size that the stream states whose picture counts; zero if there is no video stream. -/
def pictureSize (streams : List Json.Fields) : Int × Int :=
  match pictureStream? streams with
  | some stream => (stated stream "width", stated stream "height")
  | none => (0, 0)

theorem side_eq_stated {stream : Json.Fields} (sized : IsSized stream) {key : String}
    (isSide : key ∈ ["width", "height"]) : side stream key = .ok (stated stream key) := by
  unfold side stated
  cases found : Json.lookup stream key with
  | none => rfl
  | some v =>
    obtain ⟨n, rfl⟩ := sized key isSide v found
    dsimp only
    split
    next => rfl
    next empty =>
      have zero : n = 0 := by simpa [Json.truthy] using empty
      rw [zero]

/-- A stream is of one kind only. -/
theorem isStream_audio_of_video {stream : Json.Fields} (video : isStream "video" stream = true) :
    isStream "audio" stream = false := by
  unfold isStream at *
  split at video
  next s _ =>
    rw [of_decide_eq_true video]
    rfl
  next => cases video

theorem videos_append_singleton (streams : List Json.Fields) (stream : Json.Fields) :
    videos (streams ++ [stream]) =
      if isStream "video" stream then videos streams ++ [stream] else videos streams := by
  unfold videos
  rw [List.filter_append]
  split
  next video => rw [List.filter_cons_of_pos video, List.filter_nil]
  next other => rw [List.filter_cons_of_neg other, List.filter_nil, List.append_nil]

theorem pictureStream?_eq_of_find? {streams : List Json.Fields} {first : Json.Fields}
    (found : (videos streams).find? hasWidth = some first) :
    pictureStream? streams = some first := by
  rw [pictureStream?, found, Option.some_or]

/-- The picture has a width if and only if some video stream has one. -/
theorem pictureSize_fst_eq_zero_iff (streams : List Json.Fields) :
    (pictureSize streams).1 = 0 ↔ (videos streams).find? hasWidth = none := by
  cases found : (videos streams).find? hasWidth with
  | some first =>
    have wide : stated first "width" ≠ 0 := by simpa [hasWidth] using List.find?_some found
    rw [pictureSize, pictureStream?_eq_of_find? found]
    exact iff_of_false wide nofun
  -- Without a wide stream the last video stream counts, which has no width either.
  | none =>
    refine iff_of_true ?_ rfl
    rw [pictureSize, pictureStream?, found, Option.none_or]
    split
    next stream last =>
      have narrow := List.find?_eq_none.mp found stream (List.mem_of_getLast? last)
      simpa [hasWidth] using narrow
    next => rfl

/-- A further stream takes the picture over if it is a video stream and there is no width yet. -/
theorem pictureStream?_append_singleton (streams : List Json.Fields) (stream : Json.Fields) :
    pictureStream? (streams ++ [stream]) =
      if isStream "video" stream && (pictureSize streams).1 = 0 then some stream
      else pictureStream? streams := by
  by_cases video : isStream "video" stream = true
  case neg => simp [pictureStream?, videos_append_singleton, video]
  have more : videos (streams ++ [stream]) = videos streams ++ [stream] := by
    rw [videos_append_singleton, if_pos video]
  simp only [video, Bool.true_and, decide_eq_true_eq, pictureSize_fst_eq_zero_iff]
  cases found : (videos streams).find? hasWidth with
  | some first =>
    have kept : (videos (streams ++ [stream])).find? hasWidth = some first := by
      rw [more, List.find?_append, found, Option.some_or]
    rw [pictureStream?_eq_of_find? found, pictureStream?_eq_of_find? kept]
    rfl
  | none =>
    rw [if_pos rfl, pictureStream?, more, List.find?_append, found, Option.none_or,
      List.getLast?_concat]
    -- It is the first with a width if it has one, and the last of all in any case.
    cases wide : hasWidth stream <;> simp [wide]

/-- What is known when streams have been read: the picture that counts, and whether there is
sound. -/
def Streams.seen (streams : List Json.Fields) : Streams :=
  ⟨(pictureSize streams).1, (pictureSize streams).2, streams.any (isStream "audio")⟩

/-- What is known stays in step with the streams that have been read. -/
theorem Streams.add_seen (before : List Json.Fields) {stream : Json.Fields}
    (sized : IsSized stream) :
    (seen before).add (.obj stream) = .ok (seen (before ++ [stream])) := by
  rw [add_obj]
  unfold seen
  rw [List.any_append, List.any_cons, List.any_nil, Bool.or_false]
  -- A video stream is taken while no width is known, and any other leaves the size as it is.
  split
  next takes =>
    have taken : pictureSize (before ++ [stream]) =
        (stated stream "width", stated stream "height") := by
      rw [pictureSize, pictureStream?_append_singleton, if_pos takes]
    obtain ⟨video, _⟩ := Bool.and_eq_true_iff.mp takes
    rw [taken, isStream_audio_of_video video, Bool.or_false,
      side_eq_stated sized (by decide), side_eq_stated sized (by decide)]
    rfl
  next keeps =>
    have kept : pictureSize (before ++ [stream]) = pictureSize before := by
      rw [pictureSize, pictureStream?_append_singleton, if_neg keeps, pictureSize]
    rw [kept]

/-- Streams that are sized can all be read, and what is known then is what they state. -/
theorem Streams.foldlM_add (streams : List Json.Fields)
    (sized : ∀ stream ∈ streams, IsSized stream) :
    (streams.map Json.obj).foldlM add none = .ok (seen streams) := by
  -- What is known depends on the streams read so far, so the list grows at its end.
  induction streams using List.reverseRecOn with
  | nil => rfl
  | append_singleton before stream ih =>
    obtain ⟨earlier, own⟩ := List.forall_mem_append.mp sized
    have step := add_seen before (own stream List.mem_cons_self)
    rw [List.map_append, List.foldlM_append]
    exact Except.bind_eq_ok_iff.mpr
      ⟨_, ih earlier, Except.bind_eq_ok_iff.mpr ⟨_, step, rfl⟩⟩

end Report

namespace MediaSummary

open Report

variable {fields : Json.Fields} {streams : List Json.Fields}

/-- Once the streams are read, only the format can keep a report from being summed up. -/
theorem ofReport_eq_map (lists : listed fields = .arr (streams.map .obj))
    (sized : ∀ stream ∈ streams, IsSized stream) :
    ofReport (.obj fields) =
      (Report.duration ((Json.lookup fields "format").getD (.obj []))).map
        (mk (Streams.seen streams)) := by
  have found : items (listed fields) = .ok (streams.map .obj) := by rw [lists]; rfl
  rw [ofReport_obj, found]
  change (streams.map Json.obj).foldlM Streams.add .none >>= _ = _
  rw [Streams.foldlM_add streams sized]
  cases Report.duration ((Json.lookup fields "format").getD (.obj [])) <;> rfl

/-- A report whose streams state integers for their sides, or nothing, is summed up unless its
format is odd, however many streams there are and in whatever order. The summary has the picture
size of the first video stream with a width; of the last video stream if none has a width; and
without video streams it is zero. It has sound if and only if some stream is an audio stream. This
is what a run of the tool comes to that prints such a report. -/
theorem sums_up_streams (fields : Json.Fields) (streams : List Json.Fields)
    (lists : listed fields = .arr (streams.map .obj))
    (sized : ∀ stream ∈ streams, IsSized stream) :
    ((∃ summary, ofReport (.obj fields) = .ok summary) ↔
      ¬IsOddFormat ((Json.lookup fields "format").getD (.obj []))) ∧
    (∀ summary, ofReport (.obj fields) = .ok summary →
      (summary.streams.width, summary.streams.height) = pictureSize streams ∧
      (summary.streams.hasAudio = true ↔ ∃ stream ∈ streams, isStream "audio" stream = true)) ∧
    ∀ path report diagnostic, Json.read report = .ok (.obj fields) → ∀ summary,
      ((ProbeRun.exited 0 report diagnostic).summary path = .ok summary ↔
        ofReport (.obj fields) = .ok summary) := by
  have eq := ofReport_eq_map lists sized
  refine ⟨?sumsUp, ?tells, ?prints⟩
  case sumsUp =>
    rw [eq, ← exists_duration_iff]
    constructor
    · rintro ⟨summary, found⟩
      obtain ⟨d, known, _⟩ := Except.map_eq_ok_iff.mp found
      exact ⟨d, known⟩
    · rintro ⟨d, known⟩
      exact ⟨_, Except.map_eq_ok_iff.mpr ⟨d, known, rfl⟩⟩
  case tells =>
    intro summary found
    obtain ⟨d, _, rfl⟩ := Except.map_eq_ok_iff.mp (eq.symm.trans found)
    exact ⟨rfl, List.any_eq_true⟩
  -- A run that exits well comes to what its report says.
  case prints =>
    intro path report diagnostic read summary
    change (ProbeRun.readReport report >>= fun value =>
      (ofReport value).mapError Failure.report) = _ ↔ _
    rw [(ProbeRun.readReport_eq_ok_iff report _).mpr read]
    exact Except.mapError_eq_ok_iff

end MediaSummary

/-- Streams of which the first has sound only, the next is a cover without a width, and two more
have pictures of different sizes. -/
def Report.mixed : List Json.Fields :=
  [[("codec_type", .text "audio")],
    [("codec_type", .text "video"), ("height", .int 9)],
    [("codec_type", .text "video"), ("width", .int 64), ("height", .int 48)],
    [("codec_type", .text "subtitle"), ("width", .int 5)],
    [("codec_type", .text "video"), ("width", .int 32), ("height", .int 32)]]

theorem Report.isSized_of_mem_mixed : ∀ stream ∈ mixed, IsSized stream := by
  simp [mixed, IsSized, Json.lookup]

/-- The cover counts for nothing, and neither does what comes after the picture with a width. -/
theorem MediaSummary.sums_up_streams_mixed :
    ∃ summary, ofReport (.obj [("streams", .arr (Report.mixed.map .obj))]) = .ok summary ∧
      (summary.streams.width, summary.streams.height) = (64, 48) ∧
      summary.streams.hasAudio = true := by
  obtain ⟨sumsUp, tells, _⟩ := sums_up_streams [("streams", .arr (Report.mixed.map .obj))]
    Report.mixed rfl Report.isSized_of_mem_mixed
  have dated : ¬Report.IsOddFormat (.obj []) := nofun
  obtain ⟨summary, found⟩ := sumsUp.mpr dated
  obtain ⟨picture, sound⟩ := tells summary found
  exact ⟨summary, found, picture.trans (by decide), sound.mpr (by decide)⟩

/-- Without any width the last video stream counts, with the height that it states. -/
example :
    ((ProbeRun.exited 0 ("\x7b\"streams\": [\x7b\"codec_type\": \"video\", \"height\": 9\x7d, "
      ++ "\x7b\"codec_type\": \"video\", \"width\": 0, \"height\": 7\x7d, "
      ++ "\x7b\"codec_type\": \"audio\"\x7d]\x7d") "").summary "a.mp4").toOption.map
        MediaSummary.streams = some ⟨0, 7, true⟩ := by
  decide +kernel

end Montage
