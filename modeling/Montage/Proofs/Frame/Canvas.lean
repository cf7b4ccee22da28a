import Mathlib.Order.Bounds.Basic
import Montage.Proofs.Frame.Inside
import Montage.Proofs.Graph.Domain
import Montage.Proofs.Number.Exact
import Montage.Proofs.Number.Order

/-!
# A canvas derived from the clips

Where no canvas is asked for, it is as wide as the widest cropped clip and as high as the highest
one, both made even. The crop of a clip in pixels is computed elsewhere from the same percentages:
it is cut at the far edge, at least a pixel long, and even if it is longer. All the same no crop
is longer than the canvas, on any source, since the cut only ever shortens it. So a clip that is
left in the corner, at its own size and upright, shows all of its crop, even a single pixel, which
is scaled up to two.
-/
namespace Montage

namespace Frame

theorem evenSide_le_evenDown {m n : Int} (le : m ≤ n) : evenSide m ≤ evenDown n := by
  simp only [evenSide, evenDown, Bool.and_eq_true, decide_eq_true_eq]
  split <;> omega

theorem evenDown_mono {m n : Int} (le : m ≤ n) : evenDown m ≤ evenDown n := by
  unfold evenDown
  omega

/-- A single pixel is scaled up to two, and other crops have even sides already. -/
theorem evenUp_le {m n : Int} (crop : IsCropSide m) (le : m ≤ n) (side : IsEvenSide n) :
    evenUp m ≤ n := by
  have least := side.least
  unfold evenUp
  rcases crop with rfl | even
  · exact max_le least least
  · have rest := even.even
    split <;> omega

section

variable {α : Type} [Scalar α]

/-- The cut at the far edge can only shorten the span that the canvas counts with. -/
theorem cropAxis_le {offset size : Percent α} {source n : Int} {span : Int × Int} {share : α}
    (found : cropAxis offset size source = .ok span) (shared : size.share source = .ok share)
    (rounded : Scalar.roundHalfUp share = .ok n) : span.2 ≤ evenDown n := by
  obtain ⟨_, start, share', length, _, _, shared', rounded', rfl⟩ := exists_of_cropAxis found
  cases shared.symm.trans shared'
  cases rounded.symm.trans rounded'
  rw [fitSpan_snd]
  exact evenSide_le_evenDown (min_le_left n _)

theorem cropRect_le {clip : Clip α} {info : SourceInfo} {size : Int × Int} {rect : PixelRect}
    (found : cropRect clip.crop info.width info.height = .ok rect)
    (sized : croppedSize clip info = .ok size) :
    rect.width ≤ evenDown size.1 ∧ rect.height ≤ evenDown size.2 := by
  obtain ⟨across, down⟩ := axes_of_cropRect found
  obtain ⟨_, sharedX, sized⟩ := Except.bind_eq_ok_iff.mp sized
  obtain ⟨w, roundedX, sized⟩ := Except.bind_eq_ok_iff.mp sized
  obtain ⟨_, sharedY, sized⟩ := Except.bind_eq_ok_iff.mp sized
  obtain ⟨h, roundedY, sized⟩ := Except.bind_eq_ok_iff.mp sized
  cases sized
  exact ⟨cropAxis_le across sharedX roundedX, cropAxis_le down sharedY roundedY⟩

/-- The sides that clips have after their crops, across or down. -/
def croppedSides (side : Int × Int → Int) (clips : List (Clip α)) (cache : SourceCache) :
    Set Int :=
  {n | ∃ clip ∈ clips, ∃ size,
    croppedSize clip (cache.info clip.sourcePath) = .ok size ∧ side size = n}

/-- Nothing but the clips themselves matters, neither their order nor how often they occur. -/
theorem croppedSides_congr (side : Int × Int → Int) {clips others : List (Clip α)}
    (same : ∀ clip, clip ∈ others ↔ clip ∈ clips) (cache : SourceCache) :
    croppedSides side others cache = croppedSides side clips cache := by
  unfold croppedSides
  simp only [same]

theorem croppedSides_eq (side : Int × Int → Int) {clips : List (Clip α)} {cache : SourceCache}
    {sizes : List (Int × Int)}
    (found : (clips.mapM fun clip => croppedSize clip (cache.info clip.sourcePath)) = .ok sizes) :
    croppedSides side clips cache = {n | n ∈ sizes.map side} := by
  obtain ⟨forth, back⟩ := Except.mem_of_mapM_eq_ok found
  ext n
  simp only [croppedSides, Set.mem_ofPred_eq, List.mem_map]
  constructor
  · rintro ⟨clip, member, size, sized, eq⟩
    obtain ⟨size', listed, sized'⟩ := forth clip member
    cases sized.symm.trans sized'
    exact ⟨size, listed, eq⟩
  · rintro ⟨size, listed, eq⟩
    obtain ⟨clip, member, sized⟩ := back size listed
    exact ⟨clip, member, size, sized, eq⟩

end

/-- Each of the two greatest sides is taken without regard to the other. -/
theorem largestSides_eq (sizes : List (Int × Int)) :
    largestSides sizes = ((sizes.map Prod.fst).foldl max 0, (sizes.map Prod.snd).foldl max 0) := by
  rw [List.foldl_map, List.foldl_map]
  exact List.foldl_hom₂ sizes Prod.mk _ _ _ 0 0 fun _ _ _ => rfl

/-- Zero, from which the greatest side is sought, is not found where some side is positive. -/
theorem isGreatest_foldl_max {l : List Int} (positive : ∃ n ∈ l, 0 < n) :
    IsGreatest {n | n ∈ l} (l.foldl max 0) ∧ 0 < l.foldl max 0 := by
  have found : (0 :: l).max? = some (l.foldl max 0) := List.max?_cons'
  obtain ⟨member, most⟩ := List.max?_eq_some_iff.mp found
  obtain ⟨n, listed, above⟩ := positive
  have large := most n (List.mem_cons_of_mem 0 listed)
  refine ⟨⟨?_, fun m found => most m (List.mem_cons_of_mem 0 found)⟩, by omega⟩
  rcases List.mem_cons.mp member with zero | found
  · omega
  · exact found

section

variable {α : Type} [Scalar α] {canvas : Canvas} {clips : List (Clip α)} {cache : SourceCache}

/-- Where some side is positive on both axes the canvas is made of the greatest ones, and its
default size is not asked for. -/
theorem exists_greatest_sides
    (sized : ∀ clip ∈ clips, ∃ size, croppedSize clip (cache.info clip.sourcePath) = .ok size)
    (derived : canvas.isExplicit = false) (wide : ∃ n ∈ croppedSides Prod.fst clips cache, 0 < n)
    (high : ∃ n ∈ croppedSides Prod.snd clips cache, 0 < n) :
    ∃ w h, IsGreatest (croppedSides Prod.fst clips cache) w ∧
      IsGreatest (croppedSides Prod.snd clips cache) h ∧
      ∀ defaultWidth defaultHeight, canvasSize canvas clips cache defaultWidth defaultHeight =
        .ok (evenDown w, evenDown h) := by
  obtain ⟨sizes, found⟩ := Except.exists_mapM_eq_ok_iff.mpr sized
  rw [croppedSides_eq Prod.fst found] at wide ⊢
  rw [croppedSides_eq Prod.snd found] at high ⊢
  obtain ⟨widest, width⟩ := isGreatest_foldl_max wide
  obtain ⟨tallest, height⟩ := isGreatest_foldl_max high
  refine ⟨_, _, widest, tallest, fun defaultWidth defaultHeight => ?_⟩
  -- Each axis has a positive side, so that the default size is not fallen back on.
  rw [canvasSize, derived, found]
  have known : ¬((sizes.map Prod.fst).foldl max 0 ≤ 0 ∨ (sizes.map Prod.snd).foldl max 0 ≤ 0) := by
    omega
  simp [bind, Except.bind, largestSides_eq, known]

end

/-- A crop on an axis that has pixels or none: it is no longer than the axis, or a single pixel. -/
theorem IsFitted.side {source : Int} {span : Int × Int} (h : IsFitted source span)
    (sized : 0 ≤ source) : IsCropSide span.2 ∧ 0 ≤ span.2 ∧ span.2 ≤ max 1 source := by
  rcases eq_or_lt_of_le sized with none | some
  · rw [h.blank none.symm]
    exact ⟨.inl rfl, Int.one_nonneg, le_max_left 1 source⟩
  · -- On the axis the offset is not negative, so the end bounds the length.
    obtain ⟨begins, long, ends, even⟩ := h.inside some
    refine ⟨?_, by omega, by omega⟩
    by_cases single : span.2 = 1
    · exact .inl single
    · exact .inr ⟨even single, by omega⟩

end Frame

namespace Binary64

theorem roundHalfUp_of_equal_zero {x : Binary64} (zero : Scalar.equal x (Scalar.nat 0) = true) :
    Scalar.roundHalfUp x = .ok 0 := by
  rw [equal_iff_place place_zero] at zero
  rcases eq_or_zero_of_place zero place_zero with rfl | ⟨_, s, _, rfl, _⟩
  · decide +kernel
  · cases s <;> decide +kernel

theorem isWhole_of_equal_one {x : Binary64} (unit : Scalar.equal x (Scalar.nat 1) = true) :
    x.IsWhole 1 := by
  have here : place (Scalar.nat 1) = some (1023 <<< 52) := by decide +kernel
  rw [equal_iff_place here] at unit
  rcases eq_or_zero_of_place unit here with same | ⟨origin, _⟩
  · rw [same]
    exact isWhole_ratio 1 (by omega)
  · exact absurd origin (by decide)

end Binary64

/-- Below `2 ^ 52` a side is scaled by one without being rounded. -/
theorem Frame.scaledSide_one {side : Int} {scale : Binary64} (unit : scale.IsWhole 1)
    (least : 0 ≤ side) (small : side < 2 ^ 52) : scaledSide side scale = .ok (evenUp side) := by
  obtain ⟨n, rfl⟩ := Int.eq_ofNat_of_zero_le least
  have bound : n < 2 ^ 52 := by omega
  have length := Binary64.isWhole_ratio n (by omega)
  have scaled := (length.mul_one unit (by omega)).roundHalfUp bound
  refine Except.bind_eq_ok_iff.mpr ⟨_, (Scalar.ofInt_eq_ok_iff _ _).mpr ⟨length.isFinite, rfl⟩, ?_⟩
  exact Except.bind_eq_ok_iff.mpr ⟨_, scaled, rfl⟩

/-- A clip in the upper left corner of the canvas, at its own size and upright. -/
structure Clip.IsStill (clip : Clip Binary64) : Prop where
  x : Scalar.equal clip.transform.x (Scalar.nat 0) = true
  y : Scalar.equal clip.transform.y (Scalar.nat 0) = true
  scale : Scalar.equal clip.transform.scale (Scalar.nat 1) = true
  upright : clip.rotate = .upright

namespace Placement

/-- A placed clip all of whose footprint lies on the canvas. -/
structure IsInside {α : Type} (p : Placement α) (width height : Int) : Prop where
  left : 0 ≤ p.x
  top : 0 ≤ p.y
  right : p.x + p.footprintWidth ≤ width
  bottom : p.y + p.footprintHeight ≤ height

/-- Such a clip stays in the corner and is as large as its crop, made even upward. -/
theorem exists_ofClip_of_isStill {clip : Clip Binary64} {info : SourceInfo} {rect : PixelRect}
    (still : clip.IsStill) (found : Frame.cropRect clip.crop info.width info.height = .ok rect)
    (width : 0 ≤ rect.width ∧ rect.width < 2 ^ 52)
    (height : 0 ≤ rect.height ∧ rect.height < 2 ^ 52) :
    ∃ placement, ofClip clip info = .ok placement ∧ placement.x = 0 ∧ placement.y = 0 ∧
      placement.footprintWidth = Frame.evenUp rect.width ∧
      placement.footprintHeight = Frame.evenUp rect.height := by
  -- Scaling by one keeps sides that a double can hold exactly.
  have unit := Binary64.isWhole_of_equal_one still.scale
  have scaled : Frame.scaledSize rect.width rect.height clip.transform.scale =
      .ok (Frame.evenUp rect.width, Frame.evenUp rect.height) :=
    Except.bind_eq_ok_iff.mpr ⟨_, Frame.scaledSide_one unit width.1 width.2,
      Except.bind_eq_ok_iff.mpr ⟨_, Frame.scaledSide_one unit height.1 height.2, rfl⟩⟩
  refine ⟨_, Except.bind_eq_ok_iff.mpr ⟨rect, found, Except.bind_eq_ok_iff.mpr ⟨_, scaled,
    Except.bind_eq_ok_iff.mpr ⟨0, Binary64.roundHalfUp_of_equal_zero still.x,
    Except.bind_eq_ok_iff.mpr ⟨0, Binary64.roundHalfUp_of_equal_zero still.y, rfl⟩⟩⟩⟩, rfl, rfl,
    ?_, ?_⟩
  · rw [still.upright]
    rfl
  · rw [still.upright]
    rfl

end Placement

/-- A clip of a source, on a canvas that is large enough for it. -/
structure Clip.HasRoom (clip : Clip Binary64) (info : SourceInfo) (width height : Int) : Prop where
  /-- On sides of moderate length there is a crop. -/
  cropped : info.width ≤ moderate → info.height ≤ moderate →
    ∃ rect, Frame.cropRect clip.crop info.width info.height = .ok rect
  crop : ∀ rect, Frame.cropRect clip.crop info.width info.height = .ok rect →
    rect.width ≤ width ∧ rect.height ≤ height
  /-- A clip that is left as it is shows all of its crop. -/
  still : clip.IsStill → info.width < 2 ^ 52 → info.height < 2 ^ 52 →
    ∃ placement, Placement.ofClip clip info = .ok placement ∧ placement.IsInside width height

namespace Frame

/-- A canvas that is made of the greatest sides of clips, with room for each of them. -/
structure IsDerived (clips : List (Clip Binary64)) (cache : SourceCache) (width height : Int) :
    Prop where
  even_width : IsEvenSide width
  even_height : IsEvenSide height
  widest : ∃ w, IsGreatest (croppedSides Prod.fst clips cache) w ∧ width = evenDown w
  tallest : ∃ h, IsGreatest (croppedSides Prod.snd clips cache) h ∧ height = evenDown h
  room : ∀ clip ∈ clips, clip.HasRoom (cache.info clip.sourcePath) width height

end Frame

/-- A clip whose crop was read has room on a canvas that is no smaller than its cropped size. -/
theorem Clip.hasRoom_of_croppedSize {clip : Clip Binary64} {info : SourceInfo} {width height : Int}
    (read : clip.crop.IsValidated) (finite : clip.crop.IsFinite) (sized : info.HasSize)
    {size : Int × Int} (cropped : Frame.croppedSize clip info = .ok size)
    (wide : Frame.evenDown size.1 ≤ width) (high : Frame.evenDown size.2 ≤ height)
    (even_width : IsEvenSide width) (even_height : IsEvenSide height) :
    clip.HasRoom info width height := by
  have exists_rect (wide : info.width ≤ moderate) (high : info.height ≤ moderate) :
      ∃ rect, Frame.cropRect clip.crop info.width info.height = .ok rect := by
    have left := sized.width
    have top := sized.height
    exact Frame.exists_cropRect read.isProper finite (by omega) (by omega)
  have crop (rect : PixelRect)
      (found : Frame.cropRect clip.crop info.width info.height = .ok rect) :
      rect.width ≤ width ∧ rect.height ≤ height := by
    obtain ⟨across, down⟩ := Frame.cropRect_le found cropped
    exact ⟨across.trans wide, down.trans high⟩
  refine ⟨exists_rect, crop, fun still narrow low => ?_⟩
  -- A side below `2 ^ 52` is moderate, so there is a crop, and it is short enough to scale exactly.
  have large : (2 ^ 52 : Int) ≤ moderate := by decide +kernel
  obtain ⟨rect, found⟩ := exists_rect (by omega) (by omega)
  obtain ⟨across, down⟩ := Frame.isFitted_of_cropRect read.isProper finite found
  obtain ⟨sideX, leastX, mostX⟩ := across.side sized.width
  obtain ⟨sideY, leastY, mostY⟩ := down.side sized.height
  dsimp only at leastX mostX leastY mostY
  obtain ⟨placement, placed, x, y, footprintX, footprintY⟩ :=
    Placement.exists_ofClip_of_isStill still found ⟨leastX, by omega⟩ ⟨leastY, by omega⟩
  have right := Frame.evenUp_le sideX (crop rect found).1 even_width
  have bottom := Frame.evenUp_le sideY (crop rect found).2 even_height
  refine ⟨placement, placed, ?_, ?_, ?_, ?_⟩
  · exact x.ge
  · exact y.ge
  · rw [x, footprintX, Int.zero_add]
    exact right
  · rw [y, footprintY, Int.zero_add]
    exact bottom

namespace Frame

/-- On sources of moderate sides every crop that was read has a size. -/
theorem exists_croppedSize_of_moderate {clip : Clip Binary64} {info : SourceInfo}
    (read : clip.crop.IsValidated) (finite : clip.crop.IsFinite)
    (wide : info.width.natAbs ≤ moderate) (high : info.height.natAbs ≤ moderate) :
    ∃ size, croppedSize clip info = .ok size :=
  exists_croppedSize clip info ((read.isProper.w.isModerate finite.w).isMeasured wide)
    ((read.isProper.h.isModerate finite.h).isMeasured high)

/-- Where the visual clips give a positive maximum on both axes, that is each of them has a
cropped size and some side of these is positive across and some down, a canvas that is not asked
for is derived from them: the same in whatever order they come, and the graph's own. -/
theorem derives_canvas (timeline : Timeline Binary64) (cache : SourceCache)
    (options : CompileOptions Binary64) (derived : timeline.canvas.isExplicit = false)
    (crops : ∀ clip ∈ timeline.visual cache options.minClipDuration,
      clip.crop.IsValidated ∧ clip.crop.IsFinite)
    (sizes : ∀ entry ∈ cache, entry.2.info.HasSize)
    (sized : ∀ clip ∈ timeline.visual cache options.minClipDuration,
      ∃ size, croppedSize clip (cache.info clip.sourcePath) = .ok size)
    (wide : ∃ n ∈ croppedSides Prod.fst (timeline.visual cache options.minClipDuration) cache,
      0 < n)
    (high : ∃ n ∈ croppedSides Prod.snd (timeline.visual cache options.minClipDuration) cache,
      0 < n) :
    ∃ width height,
      (∀ clips, clips.Perm (timeline.visual cache options.minClipDuration) →
        ∀ defaultWidth defaultHeight,
          canvasSize timeline.canvas clips cache defaultWidth defaultHeight =
            .ok (width, height)) ∧
      IsDerived (timeline.visual cache options.minClipDuration) cache width height ∧
      ∀ g, (compileTimeline timeline cache options).graph = .ok g →
        g.width = width ∧ g.height = height := by
  obtain ⟨w, h, widest, tallest, canvas⟩ := exists_greatest_sides sized derived wide high
  have ordered (clips : List (Clip Binary64))
      (perm : clips.Perm (timeline.visual cache options.minClipDuration))
      (defaultWidth defaultHeight : Int) :
      canvasSize timeline.canvas clips cache defaultWidth defaultHeight =
        .ok (evenDown w, evenDown h) := by
    -- In another order the clips have the same sides, and so the same greatest ones.
    have same (clip : Clip Binary64) := perm.mem_iff (a := clip)
    rw [← croppedSides_congr Prod.fst same] at wide widest
    rw [← croppedSides_congr Prod.snd same] at high tallest
    obtain ⟨w', h', widest', tallest', canvas'⟩ := exists_greatest_sides
      (fun clip member => sized clip (perm.mem_iff.mp member)) derived wide high
    rw [widest.unique widest', tallest.unique tallest']
    exact canvas' defaultWidth defaultHeight
  refine ⟨evenDown w, evenDown h, ordered, ?_, ?_⟩
  · refine ⟨evenDown_isEvenSide w, evenDown_isEvenSide h, ⟨w, widest, rfl⟩, ⟨h, tallest, rfl⟩, ?_⟩
    intro clip member
    -- What a clip needs is not more than the greatest sides, of which its own are two.
    obtain ⟨read, finite⟩ := crops clip member
    obtain ⟨size, cropped⟩ := sized clip member
    exact Clip.hasRoom_of_croppedSize read finite (SourceCache.hasSize_info sizes _) cropped
      (evenDown_mono (widest.2 ⟨clip, member, size, cropped, rfl⟩))
      (evenDown_mono (tallest.2 ⟨clip, member, size, cropped, rfl⟩))
      (evenDown_isEvenSide w) (evenDown_isEvenSide h)
  · intro g compiled
    obtain ⟨_, assembled⟩ := compileTimeline_assembled timeline cache options g compiled
    exact Prod.mk.inj (Except.ok.inj (assembled.canvas.symm.trans (canvas _ _)))

end Frame

theorem Crop.isValidated_full : IsValidated full :=
  ⟨.value, .obj [], by decide +kernel⟩

theorem Crop.isFinite_full : IsFinite full := by
  constructor <;> decide +kernel

/-- A wide source, three percent of a tall one, and one of a single pixel, on a canvas whose
height is not given. -/
def Timeline.uneven : Timeline Binary64 :=
  let clip (path : String) := Clip.ofSpan path path (Scalar.nat 0) (Scalar.nat 1) (Scalar.nat 0)
  ⟨⟨1920, 0⟩, [⟨"v1", .video,
    [clip "wide.mp4", { clip "tall.mp4" with crop := .rightEdge }, clip "dot.png"]⟩]⟩

def SourceCache.uneven : SourceCache :=
  [("wide.mp4", .found ⟨1001, 200, true, false⟩), ("tall.mp4", .found ⟨300, 801, false, false⟩),
    ("dot.png", .found ⟨1, 1, false, true⟩)]

/-- The clips of that timeline, all of which have pictures. -/
def Timeline.unevenClips : List (Clip Binary64) :=
  Timeline.uneven.visual .uneven CompileOptions.standard.minClipDuration

/-- The width is that of the first clip, and the height that of the second. -/
theorem Frame.derives_canvas_uneven :
    canvasSize Timeline.uneven.canvas Timeline.unevenClips .uneven 1920 1080 = .ok (1000, 800) ∧
      IsDerived Timeline.unevenClips .uneven 1000 800 := by
  have canvas : canvasSize Timeline.uneven.canvas Timeline.unevenClips .uneven 1920 1080 =
      .ok (1000, 800) := by
    decide +kernel
  have known : ∀ clip ∈ Timeline.unevenClips, clip.crop = .full ∨ clip.crop = .rightEdge := by
    decide +kernel
  have crops : ∀ clip ∈ Timeline.unevenClips, clip.crop.IsValidated ∧ clip.crop.IsFinite := by
    intro clip member
    rcases known clip member with full | edge
    · rw [full]
      exact ⟨Crop.isValidated_full, Crop.isFinite_full⟩
    · rw [edge]
      exact ⟨Crop.isValidated_rightEdge, Crop.isFinite_rightEdge⟩
  have moderate : ∀ clip ∈ Timeline.unevenClips,
      (SourceCache.uneven.info clip.sourcePath).width.natAbs ≤ moderate ∧
        (SourceCache.uneven.info clip.sourcePath).height.natAbs ≤ moderate := by
    decide +kernel
  have sizes : ∀ entry ∈ SourceCache.uneven, entry.2.info.HasSize := by
    have least : ∀ entry ∈ SourceCache.uneven,
        0 ≤ entry.2.info.width ∧ 0 ≤ entry.2.info.height := by decide
    exact fun entry member => ⟨(least entry member).1, (least entry member).2⟩
  -- One clip is wide and another one high; either shows that some side is positive.
  obtain ⟨clip, member, size⟩ : ∃ clip ∈ Timeline.unevenClips,
      croppedSize clip (SourceCache.uneven.info clip.sourcePath) = .ok (1001, 200) := by
    decide +kernel
  obtain ⟨width, height, ordered, derived, _⟩ := derives_canvas Timeline.uneven .uneven .standard
    (by decide) crops sizes
    (fun clip member => exists_croppedSize_of_moderate (crops clip member).1 (crops clip member).2
      (moderate clip member).1 (moderate clip member).2)
    ⟨1001, ⟨clip, member, _, size, rfl⟩, by decide⟩ ⟨200, ⟨clip, member, _, size, rfl⟩, by decide⟩
  cases canvas.symm.trans (ordered _ (.refl _) 1920 1080)
  exact ⟨canvas, derived⟩

end Montage
