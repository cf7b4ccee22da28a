import Montage.Proofs.Graph.Parts
import Montage.Proofs.Graph.Pruning

/-!
# One more clip

A clip that is declared after all others adds to the end of every part of a graph and changes
nothing that is there already. The labels of a part and the indices of the inputs are given out in
declaration order, so those that are given out already stay as they are, even where the canvas or
the duration becomes another one.
-/
namespace Montage

variable {α : Type}

/-- The track with one more clip at its end. -/
def Track.push (track : Track α) (clip : Clip α) : Track α :=
  { track with clips := track.clips ++ [clip] }

/-- A clip is declared after all others: at the end of the last track, or on a new track. -/
inductive Timeline.Appends (track : Track α) (clip : Clip α) : Timeline α → Timeline α → Prop
  | toLast (canvas : Canvas) (tracks : List (Track α)) :
      Appends track clip ⟨canvas, tracks ++ [track]⟩ ⟨canvas, tracks ++ [track.push clip]⟩
  | onNew (canvas : Canvas) (tracks : List (Track α)) (empty : track.clips = []) :
      Appends track clip ⟨canvas, tracks⟩ ⟨canvas, tracks ++ [track.push clip]⟩

theorem distinct_append_singleton {β : Type} [DecidableEq β] (bs : List β) (b : β) :
    distinct (bs ++ [b]) = distinct bs ++ if b ∈ bs then [] else [b] := by
  induction bs with
  | nil => rfl
  | cons c rest ih =>
    simp only [List.cons_append, distinct, ih, List.filter_append, List.mem_cons]
    by_cases same : b = c
    · subst same
      by_cases member : b ∈ rest <;> simp [member]
    · by_cases member : b ∈ rest <;> simp [member, same]

theorem inputIndex_append {inputs : List String} {path : String} (known : path ∈ inputs)
    (more : List String) : inputIndex (inputs ++ more) path = inputIndex inputs path := by
  rw [inputIndex, inputIndex, List.idxOf_append_of_mem known]

/-- An overlay more lies over what was the whole picture before. -/
theorem Layer.exists_composite_append (layers : List (Layer α)) (layer : Layer α) (base : Label)
    (labels : Labels) :
    ∃ output, (Layer.composite (layers ++ [layer]) base labels).1 =
      ((Layer.composite layers base labels).1.1 ++
          [.overlay (Layer.composite layers base labels).1.2 layer.label output
            layer.placement.x layer.placement.y layer.placement.start layer.placement.stop],
        output) := by
  refine ⟨Labels.label "comp" ((Layer.composite layers base labels).2.count "comp"), ?_⟩
  unfold Layer.composite
  rw [List.map_append, Stage.thread_append]
  rfl

theorem AudioSegment.exists_trims_append (segments : List (AudioSegment α)) (s : AudioSegment α)
    (labels : Labels) :
    ∃ output, (AudioSegment.trims (segments ++ [s]) labels).1 =
      (AudioSegment.trims segments labels).1 ++
        [.audioTrim s.source output s.start s.duration s.delay s.gain] := by
  refine ⟨Labels.label "aseg" ((AudioSegment.trims segments labels).2.count "aseg"), ?_⟩
  rw [AudioSegment.trims_append]
  rfl

section

variable [Scalar α]

theorem PlacedClip.layers_append_singleton (placed : List (PlacedClip α)) (p : PlacedClip α)
    (labels : Labels) :
    (PlacedClip.layers (placed ++ [p]) labels).1 =
      let own := (p.clip.chain p.info p.placement p.source (PlacedClip.layers placed labels).2).1
      ((PlacedClip.layers placed labels).1.1 ++ own.1,
        (PlacedClip.layers placed labels).1.2 ++ [⟨own.2, p.placement⟩]) := by
  let own := (p.clip.chain p.info p.placement p.source (PlacedClip.layers placed labels).2).1
  rw [PlacedClip.layers_append]
  change ((PlacedClip.layers placed labels).1.1 ++ (own.1 ++ []),
    (PlacedClip.layers placed labels).1.2 ++ [⟨own.2, p.placement⟩]) = _
  rw [List.append_nil]

/-- Whether a clip is long enough to show. -/
def Clip.lasts (clip : Clip α) (minimum : α) : Bool := !decide (clip.sourceDuration ≤ minimum)

/-- A clip that is too short to show is cut away again. -/
theorem Track.clips_pruned_push (track : Track α) (clip : Clip α) (minimum : α) :
    ((track.push clip).pruned minimum).clips =
      (track.pruned minimum).clips ++ if clip.lasts minimum then [clip] else [] := by
  change (track.clips ++ [clip]).filter (·.lasts minimum) =
    track.clips.filter (·.lasts minimum) ++ _
  rw [List.filter_append]
  cases long : clip.lasts minimum <;> simp [long]

namespace Timeline.Appends

variable {track : Track α} {clip : Clip α} {before after : Timeline α}

omit [Scalar α] in
/-- What is gathered from all tracks grows at its end. -/
theorem flatMap_eq {β : Type} (h : Appends track clip before after) (f : Track α → List β)
    (own : List β) (none : ∀ track, track.clips = [] → f track = [])
    (pushed : f (track.push clip) = f track ++ own) :
    after.tracks.flatMap f = before.tracks.flatMap f ++ own := by
  cases h with
  | toLast canvas tracks =>
    simp only [List.flatMap_append, List.flatMap_singleton, pushed, List.append_assoc]
  | onNew canvas tracks empty =>
    rw [none track empty, List.nil_append] at pushed
    simp only [List.flatMap_append, List.flatMap_singleton, pushed]

theorem kept_eq (h : Appends track clip before after) (minimum : α) :
    after.kept minimum =
      before.kept minimum ++ if clip.lasts minimum then [clip] else [] := by
  rw [kept_eq_flatMap, kept_eq_flatMap]
  apply h.flatMap_eq
  case none =>
    intro track empty
    rw [Track.pruned, empty]
    rfl
  case pushed => exact track.clips_pruned_push clip minimum

theorem visual_eq (h : Appends track clip before after) (cache : SourceCache) (minimum : α) :
    after.visual cache minimum = before.visual cache minimum ++
      if clip.lasts minimum && isVisual track clip (cache.info clip.sourcePath) then [clip]
      else [] := by
  rw [visual_eq_flatMap, visual_eq_flatMap]
  apply h.flatMap_eq
  case none =>
    intro track empty
    rw [Track.pruned, empty]
    rfl
  case pushed =>
    -- Whether a clip has a picture depends on the kind of its track, which stays the same.
    change List.filter (fun c => isVisual track c (cache.info c.sourcePath)) _ =
      List.filter (fun c => isVisual track c (cache.info c.sourcePath)) _ ++ _
    rw [track.clips_pruned_push clip minimum, List.filter_append]
    cases long : clip.lasts minimum <;> simp [List.filter_singleton]

end Timeline.Appends

/-- A clip has one place only on each index of its source. -/
theorem PlacedClip.Places.unique {cache : SourceCache} {inputs others : List String}
    {clip : Clip α} {p q : PlacedClip α} (first : PlacedClip.Places cache inputs clip p)
    (second : PlacedClip.Places cache others clip q)
    (same : inputIndex others clip.sourcePath = inputIndex inputs clip.sourcePath) : q = p := by
  have placement : q.placement = p.placement :=
    Except.ok.inj (second.placed.symm.trans first.placed)
  have source : q.source = p.source := by rw [second.source_eq, first.source_eq, same]
  cases p
  cases q
  rw [PlacedClip.mk.injEq]
  exact ⟨second.clip_eq.trans first.clip_eq.symm, second.info_eq.trans first.info_eq.symm,
    placement, source⟩

/-- Clips that are placed once more keep their places if their sources keep their indices. -/
theorem PlacedClip.Places.exists_append {cache : SourceCache} {inputs others : List String}
    {clips own : List (Clip α)} {placed again : List (PlacedClip α)}
    (places : List.Forall₂ (PlacedClip.Places cache inputs) clips placed)
    (more : List.Forall₂ (PlacedClip.Places cache others) (clips ++ own) again)
    (same : ∀ clip ∈ clips,
      inputIndex others clip.sourcePath = inputIndex inputs clip.sourcePath) :
    ∃ added, again = placed ++ added ∧
      List.Forall₂ (PlacedClip.Places cache others) own added := by
  induction places generalizing again with
  | nil => exact ⟨again, rfl, more⟩
  | @cons clip p clips placed first _ ih =>
    obtain ⟨index, indices⟩ := List.forall_mem_cons.mp same
    -- The first clip is placed as before, since its source has kept its index.
    obtain ⟨q, rest, second, others, rfl⟩ := List.forall₂_cons_left_iff.mp more
    obtain ⟨added, rfl, own⟩ := ih others indices
    refine ⟨added, ?_, own⟩
    rw [first.unique second index, List.cons_append]

theorem audioSegments_append (cache : SourceCache) {inputs others : List String}
    (clips own : List (Clip α))
    (same : ∀ clip ∈ clips,
      inputIndex others clip.sourcePath = inputIndex inputs clip.sourcePath) :
    audioSegments cache others (clips ++ own) =
      audioSegments cache inputs clips ++ audioSegments cache others own := by
  rw [audioSegments, List.filterMap_append]
  congr 1
  apply List.filterMap_congr
  intro clip member
  rw [same clip member]

/-- The segment of one clip, if it is long enough and has sound. -/
theorem audioSegments_own (cache : SourceCache) (inputs : List String) (clip : Clip α)
    (minimum : α) :
    audioSegments cache inputs (if clip.lasts minimum then [clip] else []) =
      if clip.lasts minimum && (cache.info clip.sourcePath).hasAudio then
        [⟨streamRef (inputIndex inputs clip.sourcePath) "a", clip.sourceIn, clip.sourceDuration,
          clip.timelineOffset, clip.volume / Scalar.nat 100⟩]
      else [] := by
  cases clip.lasts minimum with
  | false => rfl
  | true =>
    cases sounds : (cache.info clip.sourcePath).hasAudio <;>
      simp [audioSegments, AudioSegment.ofClip?, sounds]

/-- One more clip at the end of all. What was in the chains, the overlays and the trims stays where
it is, and the clip's own operations follow; the base and the mix are those of the new size,
duration and trims. -/
structure CompiledGraph.Grows (track : Track α) (clip : Clip α) (cache : SourceCache)
    (options : CompileOptions α) (old new : CompiledGraph α) : Prop where
  inputs : new.inputs = old.inputs ++
    if clip.lasts options.minClipDuration && !decide (clip.sourcePath ∈ old.inputs)
    then [clip.sourcePath] else []
  /-- A clip that is too short or without a picture adds nothing to the picture. -/
  unseen : (clip.lasts options.minClipDuration
      && isVisual track clip (cache.info clip.sourcePath)) = false →
    new.part .chains = old.part .chains ∧ new.part .overlays = old.part .overlays ∧
      new.video = old.video
  /-- Any other clip adds its own chain, and one overlay of it over the whole picture before. -/
  seen : (clip.lasts options.minClipDuration
      && isVisual track clip (cache.info clip.sourcePath)) = true →
    ∃ placement labels, Placement.ofClip clip (cache.info clip.sourcePath) = .ok placement ∧
      let own := (clip.chain (cache.info clip.sourcePath) placement
        (streamRef (inputIndex new.inputs clip.sourcePath) "v") labels).1
      new.part .chains = old.part .chains ++ own.1 ∧
        new.part .overlays = old.part .overlays ++
          [.overlay old.video own.2 new.video placement.x placement.y placement.start
            placement.stop]
  /-- A clip that is too short or without sound adds nothing to the sound. -/
  unheard : (clip.lasts options.minClipDuration
      && (cache.info clip.sourcePath).hasAudio) = false →
    new.part .trims = old.part .trims
  /-- Any other clip adds its own trim. -/
  heard : (clip.lasts options.minClipDuration && (cache.info clip.sourcePath).hasAudio) = true →
    ∃ output, new.part .trims = old.part .trims ++
      [.audioTrim (streamRef (inputIndex new.inputs clip.sourcePath) "a") output clip.sourceIn
        clip.sourceDuration clip.timelineOffset (clip.volume / Scalar.nat 100)]
  oldArranged : old.Arranged options.fps
  newArranged : new.Arranged options.fps

/-- The inputs of a graph with one more clip. -/
theorem Timeline.Appends.inputs_eq {track : Track α} {clip : Clip α} {before after : Timeline α}
    (h : Timeline.Appends track clip before after) (minimum : α) :
    distinct ((after.kept minimum).map (·.sourcePath)) =
      distinct ((before.kept minimum).map (·.sourcePath)) ++
        if clip.lasts minimum &&
          !decide (clip.sourcePath ∈ distinct ((before.kept minimum).map (·.sourcePath)))
        then [clip.sourcePath] else [] := by
  rw [h.kept_eq]
  cases long : clip.lasts minimum with
  | false => simp
  | true =>
    rw [if_pos rfl, List.map_append, List.map_singleton, distinct_append_singleton]
    simp only [mem_distinct]
    by_cases known : clip.sourcePath ∈ (before.kept minimum).map (·.sourcePath) <;> simp [known]

/-- Declaring one more clip after all others is a local change of the graph. -/
theorem grows_compileTimeline (track : Track α) (clip : Clip α) (before after : Timeline α)
    (cache : SourceCache) (options : CompileOptions α) (old new : CompiledGraph α)
    (appends : Timeline.Appends track clip before after)
    (compiles : (compileTimeline before cache options).graph = .ok old)
    (compilesStill : (compileTimeline after cache options).graph = .ok new) :
    old.Grows track clip cache options new := by
  let minimum := options.minClipDuration
  obtain ⟨placed, old_assembled⟩ := compileTimeline_assembled before cache options old compiles
  obtain ⟨again, new_assembled⟩ := compileTimeline_assembled after cache options new compilesStill
  obtain ⟨old_arranged, old_parted⟩ := old_assembled.parted
  obtain ⟨new_arranged, new_parted⟩ := new_assembled.parted
  have inputs := appends.inputs_eq minimum
  rw [← new_assembled.inputs_eq, ← old_assembled.inputs_eq] at inputs
  -- No input that the old graph has gets another index.
  have same : ∀ c ∈ before.kept minimum,
      inputIndex new.inputs c.sourcePath = inputIndex old.inputs c.sourcePath := by
    intro c kept
    rw [inputs]
    exact inputIndex_append (old_assembled.mem_inputs c kept) _
  have places := new_assembled.places
  rw [appends.visual_eq] at places
  obtain ⟨added, rfl, own⟩ := PlacedClip.Places.exists_append old_assembled.places places
    fun c seen => same c (before.mem_kept_of_mem_visual cache minimum c seen)
  have trims := new_parted.trims
  rw [appends.kept_eq, audioSegments_append cache _ _ same, audioSegments_own] at trims
  refine ⟨inputs, ?unseen, ?seen, ?unheard, ?heard, old_arranged, new_arranged⟩
  case unseen =>
    intro hidden
    rw [hidden] at own
    cases own
    rw [List.append_nil] at new_parted
    have overlays := new_parted.overlays.trans old_parted.overlays.symm
    obtain ⟨overlays, video⟩ := Prod.mk.inj overlays
    exact ⟨new_parted.chains.trans old_parted.chains.symm, overlays, video⟩
  case seen =>
    intro shown
    rw [shown, if_pos rfl] at own
    cases own with
    | @cons _ p _ _ place none =>
    cases none
    have chains := new_parted.chains
    have overlays := new_parted.overlays
    rw [PlacedClip.layers_append_singleton] at chains overlays
    dsimp only at chains overlays
    obtain ⟨output, laid⟩ := Layer.exists_composite_append _ _ _ _
    rw [laid, ← old_parted.overlays] at overlays
    rw [← old_parted.chains] at chains
    obtain ⟨overlays, rfl⟩ := Prod.mk.inj overlays
    rw [place.clip_eq, place.info_eq, place.source_eq] at chains overlays
    exact ⟨p.placement, _, place.placed, chains, overlays⟩
  case unheard =>
    intro silent
    rw [silent, if_neg Bool.false_ne_true, List.append_nil] at trims
    exact trims.trans old_parted.trims.symm
  case heard =>
    intro sounding
    rw [sounding, if_pos rfl] at trims
    obtain ⟨output, trimmed⟩ := AudioSegment.exists_trims_append
      (audioSegments cache old.inputs (before.kept minimum)) _ Labels.none
    rw [trimmed, ← old_parted.trims] at trims
    exact ⟨output, trims⟩

end

/-- The overlapping clips with another one of a second file after them. -/
def Timeline.prolonged : Timeline Binary64 :=
  let late := Clip.ofSpan "late" "b.mp4" (Scalar.nat 0) (Scalar.nat 2) (Scalar.nat 5)
  ⟨Timeline.overlapping.canvas, Timeline.overlapping.tracks.modifyLast (·.push late)⟩

theorem grows_compileTimeline_prolonged :
    let cache : SourceCache := ("b.mp4", .found ⟨32, 32, true, false⟩) :: SourceCache.sounding
    ∃ track clip old new,
      Timeline.Appends track clip Timeline.overlapping Timeline.prolonged ∧
        (compileTimeline Timeline.overlapping cache .standard).graph = .ok old ∧
        (compileTimeline Timeline.prolonged cache .standard).graph = .ok new ∧
        old.Grows track clip cache .standard new := by
  intro cache
  obtain ⟨old, compiles⟩ := CompileOutcome.exists_graph
    (compileTimeline Timeline.overlapping cache .standard) (by decide +kernel)
  obtain ⟨new, compilesStill⟩ := CompileOutcome.exists_graph
    (compileTimeline Timeline.prolonged cache .standard) (by decide +kernel)
  refine ⟨_, _, old, new, .toLast _ [_], compiles, compilesStill, ?_⟩
  exact grows_compileTimeline _ _ _ _ cache .standard old new (.toLast _ [_]) compiles
    compilesStill

end Montage
