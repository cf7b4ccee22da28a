import Mathlib.Algebra.BigOperators.Group.List.Basic
import Mathlib.Algebra.Ring.Rat
import Mathlib.Algebra.Group.Action.Defs
import Montage.Proofs.Graph.Meaning

/-!
# What a compiled graph sounds like

A sound has an amount at every time. Amounts can be added up and scaled: they may be single
numbers, or one number for each channel. The operations of a graph are read as sounds of the labels
that they make, and the sound of a compiled graph is compared with the timeline itself, in which
every clip that runs adds its part.
-/
namespace Montage

/-- What is heard at each time. -/
abbrev Sound (α β : Type) := α → β

variable {α β : Type} [Scalar α] [AddCommMonoid β] [SMul α β]

/-- The span of `duration` from `start`, begun after a delay and scaled by a gain; silence outside
it. -/
def Sound.excerpt (sound : Sound α β) (start duration delay gain : α) : Sound α β := fun t =>
  if delay ≤ t ∧ t < delay + duration then gain • sound (start + (t - delay)) else 0

/-- The sound that an operation makes of those that it reads; pictures have none. A mix adds up
all that it reads and makes none of it quieter. -/
def FilterOp.sound? (op : FilterOp α) (sounds : Meanings (Sound α β)) : Option (Sound α β) :=
  match op with
  | audioTrim source _ start duration delay gain =>
    (sounds source).map (·.excerpt start duration delay gain)
  | audioMix sources _ count normalize =>
    if count = sources.length ∧ normalize = false then
      (sources.mapM sounds).map fun parts t => (parts.map fun part => part t).sum
    else none
  | _ => none

theorem FilterOp.sound?_mix (sources : List Label) (output : Label)
    (sounds : Meanings (Sound α β)) :
    (FilterOp.mix (α := α) sources output).sound? sounds =
      (sources.mapM sounds).map fun parts t => (parts.map fun part => part t).sum :=
  if_pos ⟨rfl, rfl⟩

/-- The sounds of the inputs that have any, each at its index. -/
def soundsOfInputs (voice : String → Sound α β) (cache : SourceCache) (inputs : List String) :
    Meanings (Sound α β) := fun l =>
  (inputs.zipIdx.find? fun (_, k) => streamRef k "a" = l).bind fun (path, _) =>
    if (cache.info path).hasAudio then some (voice path) else none

/-- The sounds of all labels of a graph, where each source has the sound that is given. -/
def CompiledGraph.sounds (g : CompiledGraph α) (voice : String → Sound α β)
    (cache : SourceCache) : Meanings (Sound α β) :=
  FilterOp.assignAll FilterOp.sound? g.ops (soundsOfInputs voice cache g.inputs)

/-- The kept clips whose sources have sound, whatever their kinds and tracks. -/
def Timeline.audible (timeline : Timeline α) (cache : SourceCache) (minimum : α) :
    List (Clip α) :=
  (timeline.kept minimum).filter fun clip => (cache.info clip.sourcePath).hasAudio

def Clip.runsAt (clip : Clip α) (t : α) : Bool :=
  decide (clip.timelineOffset ≤ t) && decide (t < clip.timelineEnd)

/-- What a clip that runs adds to the sound: the moment of its source, scaled by its volume. -/
def Clip.heardAt (clip : Clip α) (voice : String → Sound α β) (t : α) : β :=
  (clip.volume / Scalar.nat 100 : α) •
    voice clip.sourcePath (clip.sourceIn + (t - clip.timelineOffset))

/-- What a timeline sounds like: all audible clips that run, added up. -/
def Timeline.heardAt (timeline : Timeline α) (cache : SourceCache) (minimum : α)
    (voice : String → Sound α β) (t : α) : β :=
  (((timeline.audible cache minimum).filter (·.runsAt t)).map (·.heardAt voice t)).sum

/-- The part of a clip in the sound at every time, silent while it does not run. -/
def Clip.part (clip : Clip α) (voice : String → Sound α β) : Sound α β :=
  (voice clip.sourcePath).excerpt clip.sourceIn clip.sourceDuration clip.timelineOffset
    (clip.volume / Scalar.nat 100)

theorem Clip.part_eq (clip : Clip α) (voice : String → Sound α β) (t : α) :
    clip.part voice t = if clip.runsAt t then clip.heardAt voice t else 0 := by
  have runs : clip.runsAt t = true ↔ clip.timelineOffset ≤ t ∧ t < clip.timelineEnd := by
    simp only [runsAt, Bool.and_eq_true, decide_eq_true_eq]
  simp only [runs]
  rfl

/-- Clips that do not run add nothing. -/
theorem Clip.sum_parts (clips : List (Clip α)) (voice : String → Sound α β) (t : α) :
    (clips.map fun clip => clip.part voice t).sum =
      ((clips.filter (·.runsAt t)).map (·.heardAt voice t)).sum := by
  induction clips with
  | nil => rfl
  | cons clip rest ih =>
    rw [List.map_cons, List.sum_cons, ih, part_eq, List.filter_cons]
    by_cases runs : clip.runsAt t = true
    · rw [if_pos runs, if_pos runs, List.map_cons, List.sum_cons]
    · rw [if_neg runs, if_neg runs, zero_add]

omit [AddCommMonoid β] [SMul α β] in
/-- The clips that a compile keeps are those of all tracks that are long enough. -/
theorem Timeline.kept_eq (timeline : Timeline α) (minimum : α) :
    timeline.kept minimum =
      (timeline.clips.map (·.2)).filter fun clip => !decide (clip.sourceDuration ≤ minimum) := by
  rw [kept, selected, List.filter_map]
  rfl

omit [AddCommMonoid β] [SMul α β] in
theorem Timeline.kept_perm (timeline other : Timeline α) (minimum : α)
    (h : (timeline.clips.map (·.2)).Perm (other.clips.map (·.2))) :
    (timeline.kept minimum).Perm (other.kept minimum) := by
  rw [kept_eq, kept_eq]
  exact h.filter _

/-- The order in which clips are declared, and their tracks, do not matter to the sound. -/
theorem Timeline.heardAt_perm (timeline other : Timeline α) (cache : SourceCache) (minimum : α)
    (voice : String → Sound α β) (t : α)
    (h : (timeline.clips.map (·.2)).Perm (other.clips.map (·.2))) :
    timeline.heardAt cache minimum voice t = other.heardAt cache minimum voice t :=
  ((((timeline.kept_perm other minimum h).filter _).filter _).map _).sum_eq

/-- The segment of a clip whose source has sound. -/
def Clip.segment (clip : Clip α) (inputs : List String) : AudioSegment α :=
  ⟨streamRef (inputIndex inputs clip.sourcePath) "a", clip.sourceIn, clip.sourceDuration,
    clip.timelineOffset, clip.volume / Scalar.nat 100⟩

omit [AddCommMonoid β] [SMul α β] in
theorem audioSegments_eq (timeline : Timeline α) (cache : SourceCache) (inputs : List String)
    (minimum : α) : audioSegments cache inputs (timeline.kept minimum) =
      (timeline.audible cache minimum).map (·.segment inputs) := by
  rw [Timeline.audible]
  induction timeline.kept minimum with
  | nil => rfl
  | cons clip rest ih =>
    rw [audioSegments, List.filterMap_cons, List.filter_cons, AudioSegment.ofClip?]
    by_cases sounding : (cache.info clip.sourcePath).hasAudio = true
    · rw [if_pos sounding, if_pos sounding, List.map_cons, ← ih]
      rfl
    · rw [if_neg sounding, if_neg sounding, ← ih]
      rfl

/-- The voices of clips under the labels that refer to their sources. -/
def HasVoices (sounds : Meanings (Sound α β)) (voice : String → Sound α β)
    (inputs : List String) (clips : List (Clip α)) : Prop :=
  ∀ clip ∈ clips,
    sounds (streamRef (inputIndex inputs clip.sourcePath) "a") = some (voice clip.sourcePath)

omit [Scalar α] [AddCommMonoid β] [SMul α β] in
theorem hasVoices_soundsOfInputs (voice : String → Sound α β) (cache : SourceCache)
    (inputs : List String) (clips : List (Clip α))
    (known : ∀ clip ∈ clips, clip.sourcePath ∈ inputs)
    (sounding : ∀ clip ∈ clips, (cache.info clip.sourcePath).hasAudio = true) :
    HasVoices (soundsOfInputs voice cache inputs) voice inputs clips := by
  intro clip member
  rw [soundsOfInputs, find?_streamRef inputs clip.sourcePath "a" (known clip member)]
  exact if_pos (sounding clip member)

omit [Scalar α] [AddCommMonoid β] [SMul α β] in
/-- Labels that are handed out are none of the inputs' streams, so these keep their voices. -/
theorem HasVoices.later {sounds : Meanings (Sound α β)} {voice : String → Sound α β}
    {inputs : List String} {clips : List (Clip α)} (h : HasVoices sounds voice inputs clips)
    (sound? : FilterOp α → Meanings (Sound α β) → Option (Sound α β))
    {ops : List (FilterOp α)} {labels labels' : Labels}
    (issues : labels.Issues (ops.map FilterOp.output) labels') :
    HasVoices (FilterOp.assignAll sound? ops sounds) voice inputs clips := by
  intro clip member
  rw [FilterOp.assignAll_of_not_mem]
  · exact h clip member
  · intro issued
    exact Labels.not_issued_streamRef _ _ _ ((issues.issued _).mpr (.inr issued))

namespace AudioSegment

/-- The trims of clips' segments make the clips' parts. -/
theorem mapM_trims (clips : List (Clip α)) (inputs : List String) (labels : Labels)
    (sounds : Meanings (Sound α β)) (voice : String → Sound α β)
    (voices : HasVoices sounds voice inputs clips) :
    ((trims (clips.map (·.segment inputs)) labels).1.map FilterOp.output).mapM
        (FilterOp.assignAll FilterOp.sound?
          (trims (clips.map (·.segment inputs)) labels).1 sounds) =
      some (clips.map (·.part voice)) := by
  induction clips generalizing labels sounds with
  | nil => rfl
  | cons clip rest ih =>
    let output := Labels.label "aseg" (labels.count "aseg")
    let op : FilterOp α := .audioTrim (clip.segment inputs).source output clip.sourceIn
      clip.sourceDuration clip.timelineOffset (clip.volume / Scalar.nat 100)
    let later := trims (rest.map (·.segment inputs)) (labels.advance "aseg")
    have taken : labels.Issues ([op].map FilterOp.output) (labels.advance "aseg") :=
      .take labels "aseg" (by decide)
    have issued := trims_issues (rest.map (·.segment inputs)) (labels.advance "aseg")
    have source : sounds (clip.segment inputs).source = some (voice clip.sourcePath) :=
      voices clip List.mem_cons_self
    have own : FilterOp.assign FilterOp.sound? sounds op op.output = some (clip.part voice) := by
      rw [FilterOp.assign_output]
      change (sounds (clip.segment inputs).source).map _ = _
      rw [source]
      rfl
    have tail := ih (labels.advance "aseg") (FilterOp.assign FilterOp.sound? sounds op)
      (HasVoices.later (fun c member => voices c (List.mem_cons_of_mem _ member))
        FilterOp.sound? taken)
    -- No later trim makes the label of the first one again.
    have kept : FilterOp.assignAll FilterOp.sound? later.1
        (FilterOp.assign FilterOp.sound? sounds op) op.output = some (clip.part voice) := by
      rw [FilterOp.assignAll_of_not_mem, own]
      intro remade
      have made : (labels.advance "aseg").Issued op.output :=
        (taken.issued _).mpr (.inr List.mem_cons_self)
      exact issued.fresh op.output remade made
    change (op.output :: later.1.map FilterOp.output).mapM
      (FilterOp.assignAll FilterOp.sound? later.1 (FilterOp.assign FilterOp.sound? sounds op)) = _
    rw [List.mapM_cons, kept, tail]
    rfl

/-- The mix of clips' segments makes the sum of the clips' parts. -/
theorem sounds_mix (clips : List (Clip α)) (inputs : List String) (labels : Labels)
    (sounds : Meanings (Sound α β)) (voice : String → Sound α β)
    (voices : HasVoices sounds voice inputs clips) (label : Label)
    (mixed : (mix (clips.map (·.segment inputs)) labels).1.2 = some label) :
    FilterOp.assignAll FilterOp.sound? (mix (clips.map (·.segment inputs)) labels).1.1 sounds
        label =
      some fun t => (clips.map fun clip => clip.part voice t).sum := by
  have parts := mapM_trims clips inputs labels sounds voice voices
  unfold mix at mixed ⊢
  split at mixed
  · cases mixed
  next some_segment =>
    rw [if_neg some_segment]
    let trimmed := trims (clips.map (·.segment inputs)) labels
    let op : FilterOp α := .mix (trimmed.1.map FilterOp.output) label
    obtain rfl : Labels.label "aout" (trimmed.2.count "aout") = label := Option.some.inj mixed
    change FilterOp.assignAll FilterOp.sound? (trimmed.1 ++ [op]) sounds op.output = _
    -- The mix comes last, and all that it mixes has been made before it.
    rw [FilterOp.assignAll_append]
    change FilterOp.assign FilterOp.sound? (FilterOp.assignAll FilterOp.sound? trimmed.1 sounds) op
      op.output = _
    rw [FilterOp.assign_output]
    rw [FilterOp.sound?_mix, parts, Option.map_some]
    simp only [List.map_map, Function.comp_def]

omit [Scalar α] [AddCommMonoid β] [SMul α β] in
/-- A mix has a label where there is something to mix. -/
theorem mix_eq_none_iff (segments : List (AudioSegment α)) (labels : Labels) :
    (mix segments labels).1.2 = none ↔ segments = [] := by
  cases segments with
  | nil => exact ⟨fun _ => rfl, fun _ => rfl⟩
  | cons s rest => exact ⟨fun h => (nomatch h), fun h => (nomatch h)⟩

end AudioSegment

/-- The sound of a graph adds up the parts of the audible clips. -/
theorem sounds_graphOps (clips : List (Clip α)) (inputs : List String)
    (placed : List (PlacedClip α)) (width height fps : Int) (duration : α) (labels : Labels)
    (sounds : Meanings (Sound α β)) (voice : String → Sound α β)
    (voices : HasVoices sounds voice inputs clips) (label : Label)
    (mixed : (graphOps width height fps duration placed (clips.map (·.segment inputs))
      labels).1.2.2 = some label) :
    FilterOp.assignAll FilterOp.sound?
        (graphOps width height fps duration placed (clips.map (·.segment inputs)) labels).1.1
        sounds label =
      some fun t => (clips.map fun clip => clip.part voice t).sum := by
  obtain ⟨base, chains, overlays, sound, layers, video, audio, l₁, l₂, l₃, l₄, hbase, hchains,
    hoverlays, hsound, parts⟩ :=
    graphOps_parts width height fps duration placed (clips.map (·.segment inputs)) labels
  rw [parts] at mixed ⊢
  dsimp only at mixed ⊢
  -- The picture's operations make labels of their own and leave the inputs' sounds alone.
  have issuesBase : labels.Issues ([base].map FilterOp.output) l₁ := by
    cases hbase
    exact .take labels "base" (by decide)
  have issuesChains := PlacedClip.layers_issues placed l₁
  have issuesOverlays := Layer.composite_issues layers base.output l₂
  rw [hchains] at issuesChains
  rw [hoverlays] at issuesOverlays
  have voices' := ((voices.later FilterOp.sound? issuesBase).later FilterOp.sound?
    issuesChains).later FilterOp.sound? issuesOverlays
  have whole := AudioSegment.sounds_mix clips inputs l₃ _ voice voices' label
  rw [hsound] at whole
  rw [← List.singleton_append, FilterOp.assignAll_append, FilterOp.assignAll_append,
    FilterOp.assignAll_append]
  exact whole mixed

namespace CompiledGraph.Assembled

variable {timeline : Timeline α} {cache : SourceCache} {options : CompileOptions α}
  {g : CompiledGraph α} {placed : List (PlacedClip α)}

omit [AddCommMonoid β] [SMul α β] in
theorem audio_eq_none_iff (h : g.Assembled timeline cache options placed) :
    g.audio = none ↔ timeline.audible cache options.minClipDuration = [] := by
  have audio := congrArg (fun outputs => outputs.2.2) h.ops_eq
  dsimp only at audio
  rw [audioSegments_eq] at audio
  let segments :=
    (timeline.audible cache options.minClipDuration).map (·.segment g.inputs)
  obtain ⟨_, _, _, _, _, _, _, _, _, l₃, _, _, _, _, sound, parts⟩ :=
    graphOps_parts g.width g.height options.fps g.duration placed segments Labels.none
  have none_iff := AudioSegment.mix_eq_none_iff segments l₃
  rw [sound] at none_iff
  rw [audio, parts, none_iff, List.map_eq_nil_iff]

theorem sounds_eq (h : g.Assembled timeline cache options placed) (voice : String → Sound α β)
    (label : Label) (labelled : g.audio = some label) :
    g.sounds voice cache label =
      some (timeline.heardAt cache options.minClipDuration voice) := by
  have parts := h.ops_eq
  have ops := congrArg Prod.fst parts
  have audio := congrArg (fun outputs => outputs.2.2) parts
  dsimp only at ops audio
  rw [audioSegments_eq] at ops audio
  have kept : ∀ clip ∈ timeline.audible cache options.minClipDuration,
      clip ∈ timeline.kept options.minClipDuration :=
    fun clip member => (List.mem_filter.mp member).1
  -- Each audible clip reads the sound of its own source, wherever that is listed.
  have voices := hasVoices_soundsOfInputs voice cache g.inputs
    (timeline.audible cache options.minClipDuration)
    (fun clip member => h.mem_inputs clip (kept clip member))
    (fun clip member => (List.mem_filter.mp member).2)
  rw [labelled] at audio
  have whole := sounds_graphOps _ g.inputs placed g.width g.height options.fps g.duration
    Labels.none _ voice voices label audio.symm
  rw [← ops] at whole
  rw [sounds, whole]
  congr 1
  funext t
  exact Clip.sum_parts _ voice t

end CompiledGraph.Assembled

/-- The sound of a compiled graph is that of the timeline: there is one if the source of a kept
clip has sound, and then all audible clips that run at a time add up in it. The same clips in any
other order and on any other tracks make the same sound. -/
theorem sounds_compileTimeline (timeline : Timeline α) (cache : SourceCache)
    (options : CompileOptions α) (g : CompiledGraph α) (voice : String → Sound α β)
    (h : (compileTimeline timeline cache options).graph = .ok g) :
    (g.audio = none ↔ ∀ clip ∈ timeline.kept options.minClipDuration,
      (cache.info clip.sourcePath).hasAudio = false) ∧
    (∀ label, g.audio = some label → g.sounds voice cache label =
      some (timeline.heardAt cache options.minClipDuration voice)) ∧
    ∀ (other : Timeline α) (g' : CompiledGraph α),
      (compileTimeline other cache options).graph = .ok g' →
      (timeline.clips.map (·.2)).Perm (other.clips.map (·.2)) →
      g'.audio.bind (g'.sounds voice cache) = g.audio.bind (g.sounds voice cache) := by
  obtain ⟨placed, assembled⟩ := compileTimeline_assembled timeline cache options g h
  refine ⟨?_, fun label labelled => assembled.sounds_eq voice label labelled, ?_⟩
  · rw [assembled.audio_eq_none_iff, Timeline.audible, List.filter_eq_nil_iff]
    simp only [Bool.not_eq_true]
  -- Neither graph has a sound or both have, and a sum is the same in any order.
  · intro other g' h' perm
    obtain ⟨placed', assembled'⟩ := compileTimeline_assembled other cache options g' h'
    have audible : (timeline.audible cache options.minClipDuration).Perm
        (other.audible cache options.minClipDuration) :=
      (timeline.kept_perm other options.minClipDuration perm).filter _
    cases labelled : g.audio with
    | none =>
      have silent := assembled.audio_eq_none_iff.mp labelled
      rw [silent] at audible
      rw [assembled'.audio_eq_none_iff.mpr audible.nil_eq.symm]
      rfl
    | some label =>
      cases labelled' : g'.audio with
      | none =>
        have silent := assembled'.audio_eq_none_iff.mp labelled'
        rw [silent] at audible
        rw [assembled.audio_eq_none_iff.mpr audible.eq_nil] at labelled
        cases labelled
      | some label' =>
        have same : timeline.heardAt cache options.minClipDuration voice =
            other.heardAt cache options.minClipDuration voice :=
          funext fun t => timeline.heardAt_perm other cache _ voice t perm
        rw [Option.bind_some, Option.bind_some, assembled.sounds_eq voice label labelled,
          assembled'.sounds_eq voice label' labelled', same]

/-- A clip on a video track, and under it on an audio track the same source at half its loudness. -/
def Timeline.underscored : Timeline Rat :=
  let shown := Clip.ofSpan "shown" "a.mp4" (Scalar.nat 0) (Scalar.nat 4) (Scalar.nat 0)
  let heard := Clip.ofSpan "heard" "a.mp4" (Scalar.nat 1) (Scalar.nat 4) (Scalar.nat 2)
  ⟨⟨64, 64⟩, [⟨"v1", .video, [shown]⟩,
    ⟨"a1", .audio, [{ heard with kind := .audio, volume := Scalar.nat 50 }]⟩]⟩

theorem sounds_compileTimeline_underscored :
    ∃ g label sound, (compileTimeline Timeline.underscored SourceCache.sounding .standard).graph =
        .ok g ∧ g.audio = some label ∧
      g.sounds (fun _ t => t) SourceCache.sounding label = some sound ∧
      sound 1 = 1 ∧ sound 3 = 3 + 1 / 2 * 2 ∧ sound 5 = 1 / 2 * 4 ∧ sound 6 = (0 : Rat) := by
  obtain ⟨g, compiled⟩ := CompileOutcome.exists_graph
    (compileTimeline Timeline.underscored SourceCache.sounding .standard) (by decide +kernel)
  obtain ⟨silent, heard, _⟩ :=
    sounds_compileTimeline _ _ _ g (fun _ t => t : String → Sound Rat Rat) compiled
  cases labelled : g.audio with
  | none => exact absurd (silent.mp labelled) (by decide +kernel)
  | some label =>
    refine ⟨g, label, _, compiled, labelled, heard label labelled, ?_, ?_, ?_, ?_⟩
    · decide +kernel
    · decide +kernel
    · decide +kernel
    · decide +kernel

end Montage
