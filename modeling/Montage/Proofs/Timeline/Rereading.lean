import Mathlib.Data.List.Pairwise
import Montage.Proofs.Timeline.Clamps

/-!
# Timelines that are written and read again

A timeline that was read is settled: every number that is moved or refused when it is out of its
range is in it. A document that states the fields of a settled timeline, under either spelling of
each key and in whatever way its numbers are written, is read as that timeline again. Only the
percentages of a crop that were left at their defaults come back as doubles of the same value.
-/
namespace Montage

open Document (Checked Fields Key Origin)
open Document.Checked (seq_eq_valid_iff functor_eq_valid_iff map_eq_valid_iff)

namespace Document

variable {α β : Type} {key : Key} {fields : Fields}

/-- An object with certain fields. -/
def IsObject (P : Fields → Prop) (v : Json) : Prop := ∃ fields, v = .obj fields ∧ P fields

/-- A list of values that stand in a relation to the members of another list. -/
def IsList (P : α → Json → Prop) (as : List α) (v : Json) : Prop :=
  ∃ vs, v = .arr vs ∧ List.Forall₂ P as vs

/-- Under one of its spellings the key has a value of a certain kind. -/
def Key.Finds (key : Key) (fields : Fields) (P : Json → Prop) : Prop :=
  ∃ spelling v, key.find fields = some (spelling, v) ∧ P v

namespace Key.Finds

variable {check : Json → Checked α} {a : α} {P : Json → Prop}

theorem required (h : key.Finds fields P) (read : ∀ v, P v → check v = .valid a) :
    key.required check fields = .valid a := by
  obtain ⟨spelling, v, found, holds⟩ := h
  rw [Key.required, found]
  dsimp only
  rw [read v holds]
  rfl

theorem withDefault (h : key.Finds fields P) (default : α)
    (read : ∀ v, P v → check v = .valid a) : key.withDefault default check fields = .valid a := by
  obtain ⟨spelling, v, found, holds⟩ := h
  rw [Key.withDefault, found]
  dsimp only
  rw [read v holds]
  rfl

end Key.Finds

theorem items_of_forall₂ {P : α → Json → Prop} {f : α → β} {check : Json → Checked β}
    {as : List α} {vs : List Json} (h : List.Forall₂ P as vs)
    (read : ∀ a ∈ as, ∀ v, P a v → check v = .valid (f a)) (i : Nat) :
    Checked.items check i vs = .valid (as.map f) := by
  induction h generalizing i with
  | nil => rfl
  | cons first _ ih =>
    rw [List.forall_mem_cons] at read
    rw [Checked.items, read.1 _ first, ih read.2]
    rfl

theorem IsList.list {P : α → Json → Prop} {as : List α} {v : Json} (h : IsList P as v)
    {f : α → β} {check : Json → Checked β}
    (read : ∀ a ∈ as, ∀ v, P a v → check v = .valid (f a)) :
    list check v = .valid (as.map f) := by
  obtain ⟨vs, rfl, each⟩ := h
  exact items_of_forall₂ each read 0

theorem nonnegative_eq_valid_iff {check : Json → Checked Binary64} {v : Json} {x : Binary64} :
    nonnegative check v = .valid x ↔ check v = .valid x ∧ Binary64.zero false ≤ x := by
  unfold nonnegative Checked.andThen
  cases check v with
  | invalid ps => simp
  | valid y =>
    dsimp only
    split
    next least => grind
    next below =>
      simp only [Checked.fail, reduceCtorEq, Checked.valid.injEq, false_iff]
      rintro ⟨rfl, least⟩
      exact below least

/-- A default that is not negative stands for a number that is not. -/
theorem least_of_withDefault {default x : Binary64} (least : Binary64.zero false ≤ default)
    (read : key.withDefault default (nonnegative number) fields = .valid x) :
    Binary64.zero false ≤ x := by
  rcases Key.withDefault_eq_valid read with rfl | ⟨v, read⟩
  · exact least
  · exact (nonnegative_eq_valid_iff.mp read).2

theorem isClamped_of_withDefault {low high default x : Binary64} (ordered : ¬high < low)
    (kept : Binary64.IsClamped low high default)
    (read : key.withDefault default (clamped low high) fields = .valid x) :
    Binary64.IsClamped low high x := by
  rcases Key.withDefault_eq_valid read with rfl | ⟨v, read⟩
  · exact kept
  · obtain ⟨y, _, rfl⟩ := map_eq_valid_iff.mp read
    exact Binary64.isClamped_clamp ordered y

theorem clamped_eq_valid {low high x : Binary64} (kept : Binary64.IsClamped low high x) {v : Json}
    (read : number v = .valid x) : clamped low high v = .valid x := by
  rw [clamped_eq]
  dsimp only
  rw [read, Checked.map, kept.clamp_eq]

theorem percent_eq_valid {x : Binary64}
    (kept : Binary64.IsClamped (Scalar.nat 0) (Scalar.nat 100) x) {v : Json}
    (read : number v = .valid x) : percent v = .valid (.measured x) := by
  rw [percent, clamped_eq_valid kept read, Checked.map]

end Document

namespace Crop

/-- The crop with each percentage as the double that it stands for. -/
def measured (c : Crop Binary64) : Crop Binary64 :=
  ⟨.measured c.x.value, .measured c.y.value, .measured c.w.value, .measured c.h.value⟩

/-- Fields from which the numbers of a crop are read. -/
structure IsStatedIn (c : Crop Binary64) (fields : Fields) : Prop where
  x : xKey.Finds fields (Document.number · = .valid c.x.value)
  y : yKey.Finds fields (Document.number · = .valid c.y.value)
  w : wKey.Finds fields (Document.number · = .valid c.w.value)
  h : hKey.Finds fields (Document.number · = .valid c.h.value)

theorem isSettled_full : (full : Crop Binary64).IsSettled := by
  constructor <;> constructor
  all_goals first | constructor <;> decide +kernel | decide +kernel

variable {c : Crop Binary64}

theorem IsSettled.settled_eq (h : c.IsSettled) : c.settled = c := by
  have wide : c.w.atLeast (Scalar.nat 1) = c.w := if_neg h.across.wide.least
  have high : c.h.atLeast (Scalar.nat 1) = c.h := if_neg h.down.wide.least
  have across : c.x.atMost (Scalar.nat 100 - c.w.value) = c.x := if_neg h.across.ends
  have down : c.y.atMost (Scalar.nat 100 - c.h.value) = c.y := if_neg h.down.ends
  rw [settled, wide, high, across, down]

theorem fromDocument_of_isObject (origin : Origin) (h : c.IsSettled) {v : Json}
    (made : Document.IsObject c.IsStatedIn v) : fromDocument origin v = .valid c.measured := by
  obtain ⟨fields, rfl, stated⟩ := made
  -- Each percentage is in its range, so its clamps give it back as a double.
  have kept : c.measured.IsSettled := ⟨h.across, h.down⟩
  have x := stated.x.withDefault (.whole 0) fun _ => Document.percent_eq_valid h.across.begins
  have y := stated.y.withDefault (.whole 0) fun _ => Document.percent_eq_valid h.down.begins
  have w := stated.w.withDefault (.whole 100) fun _ => Document.percent_eq_valid h.across.side
  have h := stated.h.withDefault (.whole 100) fun _ => Document.percent_eq_valid h.down.side
  change fromFields fields = _
  rw [fromFields, x, y, w, h]
  exact congrArg Checked.valid kept.settled_eq

theorem isSettled_of_withDefault {key : Key} {origin : Origin} {fields : Fields}
    (read : key.withDefault full (fromDocument origin) fields = .valid c) : c.IsSettled := by
  rcases Document.Key.withDefault_eq_valid read with rfl | ⟨v, read⟩
  · exact isSettled_full
  · exact IsValidated.isSettled ⟨origin, v, read⟩

end Crop

namespace Transform

structure IsStatedIn (t : Transform Binary64) (fields : Fields) : Prop where
  x : xKey.Finds fields (Document.number · = .valid t.x)
  y : yKey.Finds fields (Document.number · = .valid t.y)
  scale : scaleKey.Finds fields (Document.number · = .valid t.scale)

variable {t : Transform Binary64}

/-- A transform of no negative scale. -/
def IsSettled (t : Transform Binary64) : Prop := Binary64.zero false ≤ t.scale

theorem fromDocument_of_isObject (origin : Origin) (h : t.IsSettled) {v : Json}
    (made : Document.IsObject t.IsStatedIn v) : fromDocument origin v = .valid t := by
  obtain ⟨fields, rfl, stated⟩ := made
  have x := stated.x.withDefault still.x fun _ read => read
  have y := stated.y.withDefault still.y fun _ read => read
  have scale := stated.scale.withDefault still.scale fun _ read =>
    Document.nonnegative_eq_valid_iff.mpr ⟨read, h⟩
  change fromFields fields = _
  rw [fromFields, x, y, scale]
  rfl

theorem isSettled_of_withDefault {key : Key} {origin : Origin} {fields : Fields}
    (read : key.withDefault still (fromDocument origin) fields = .valid t) : t.IsSettled := by
  have least : Binary64.zero false ≤ (still : Transform Binary64).scale := by decide +kernel
  rcases Document.Key.withDefault_eq_valid read with rfl | ⟨v, read⟩
  · exact least
  · obtain ⟨fields, read⟩ := Document.exists_of_object read
    unfold fromFields at read
    simp only [functor_eq_valid_iff, seq_eq_valid_iff] at read
    obtain ⟨_, ⟨_, ⟨_, _, rfl⟩, _, _, rfl⟩, scale, readScale, rfl⟩ := read
    exact Document.least_of_withDefault least readScale

end Transform

namespace ColorFilters

structure IsStatedIn (c : ColorFilters Binary64) (fields : Fields) : Prop where
  brightness : brightnessKey.Finds fields (Document.number · = .valid c.brightness)
  contrast : contrastKey.Finds fields (Document.number · = .valid c.contrast)
  saturation : saturationKey.Finds fields (Document.number · = .valid c.saturation)
  gamma : gammaKey.Finds fields (Document.number · = .valid c.gamma)

variable {c : ColorFilters Binary64}

theorem fromDocument_of_isObject (origin : Origin) (h : c.IsSettled) {v : Json}
    (made : Document.IsObject c.IsStatedIn v) : fromDocument origin v = .valid c := by
  obtain ⟨fields, rfl, stated⟩ := made
  have brightness := stated.brightness.withDefault neutral.brightness fun _ =>
    Document.clamped_eq_valid h.brightness
  have contrast := stated.contrast.withDefault neutral.contrast fun _ =>
    Document.clamped_eq_valid h.contrast
  have saturation := stated.saturation.withDefault neutral.saturation fun _ =>
    Document.clamped_eq_valid h.saturation
  have gamma := stated.gamma.withDefault neutral.gamma fun _ => Document.clamped_eq_valid h.gamma
  change fromFields fields = _
  rw [fromFields]
  dsimp only
  rw [brightness, contrast, saturation, gamma]
  rfl

theorem isSettled_of_withDefault {key : Key} {origin : Origin} {fields : Fields}
    (read : key.withDefault neutral (fromDocument origin) fields = .valid c) : c.IsSettled := by
  have kept := isSettled_neutral
  rcases Document.Key.withDefault_eq_valid read with rfl | ⟨v, read⟩
  · exact kept
  · obtain ⟨fields, read⟩ := Document.exists_of_object read
    unfold fromFields at read
    simp only [functor_eq_valid_iff, seq_eq_valid_iff] at read
    obtain ⟨_, ⟨_, ⟨_, ⟨b, readB, rfl⟩, c, readC, rfl⟩, s, readS, rfl⟩, g, readG, rfl⟩ := read
    constructor
    · exact Document.isClamped_of_withDefault (by decide +kernel) kept.brightness readB
    · exact Document.isClamped_of_withDefault (by decide +kernel) kept.contrast readC
    · exact Document.isClamped_of_withDefault (by decide +kernel) kept.saturation readS
    · exact Document.isClamped_of_withDefault (by decide +kernel) kept.gamma readG

end ColorFilters

namespace Clip

/-- A clip of which no number would be moved or refused. -/
structure IsSettled (c : Clip Binary64) : Prop where
  sourceIn : Binary64.zero false ≤ c.sourceIn
  timelineOffset : Binary64.zero false ≤ c.timelineOffset
  crop : c.crop.IsSettled
  transform : c.transform.IsSettled
  colorFilters : c.colorFilters.IsSettled
  volume : Binary64.zero false ≤ c.volume

def measured (c : Clip Binary64) : Clip Binary64 := { c with crop := c.crop.measured }

/-- Fields that state a clip, the parts of it as objects. -/
structure IsStatedIn (c : Clip Binary64) (fields : Fields) : Prop where
  id : idKey.Finds fields (Document.text · = .valid c.id)
  sourcePath : sourcePathKey.Finds fields (Document.text · = .valid c.sourcePath)
  kind : kindKey.Finds fields (ClipKind.fromDocument · = .valid c.kind)
  sourceIn : sourceInKey.Finds fields (Document.number · = .valid c.sourceIn)
  sourceDuration : sourceDurationKey.Finds fields (Document.number · = .valid c.sourceDuration)
  timelineOffset : timelineOffsetKey.Finds fields (Document.number · = .valid c.timelineOffset)
  crop : cropKey.Finds fields (Document.IsObject c.crop.IsStatedIn)
  transform : transformKey.Finds fields (Document.IsObject c.transform.IsStatedIn)
  rotate : rotateKey.Finds fields (Rotation.fromDocument · = .valid c.rotate)
  flipH : flipHKey.Finds fields (Document.boolean · = .valid c.flipH)
  flipV : flipVKey.Finds fields (Document.boolean · = .valid c.flipV)
  colorFilters : colorFiltersKey.Finds fields (Document.IsObject c.colorFilters.IsStatedIn)
  volume : volumeKey.Finds fields (Document.number · = .valid c.volume)

variable {c : Clip Binary64}

theorem fromDocument_of_isObject (origin : Origin) (h : c.IsSettled) {v : Json}
    (made : Document.IsObject c.IsStatedIn v) : fromDocument origin v = .valid c.measured := by
  obtain ⟨fields, rfl, stated⟩ := made
  -- The numbers with a least value have been read with it, so they are not refused.
  have number {key : Key} {x default : Binary64} (least : Binary64.zero false ≤ x)
      (found : key.Finds fields (Document.number · = .valid x)) :
      key.withDefault default (Document.nonnegative Document.number) fields = .valid x :=
    found.withDefault default fun _ read => Document.nonnegative_eq_valid_iff.mpr ⟨read, least⟩
  change fromFields origin fields = _
  rw [fromFields, stated.id.required fun _ read => read,
    stated.sourcePath.required fun _ read => read,
    stated.kind.withDefault .video fun _ read => read,
    number h.sourceIn stated.sourceIn,
    stated.sourceDuration.withDefault _ fun _ read => read,
    number h.timelineOffset stated.timelineOffset,
    stated.crop.withDefault .full fun _ => Crop.fromDocument_of_isObject origin h.crop,
    stated.transform.withDefault .still fun _ =>
      Transform.fromDocument_of_isObject origin h.transform,
    stated.rotate.withDefault .upright fun _ read => read,
    stated.flipH.withDefault false fun _ read => read,
    stated.flipV.withDefault false fun _ read => read,
    stated.colorFilters.withDefault .neutral fun _ =>
      ColorFilters.fromDocument_of_isObject origin h.colorFilters,
    number h.volume stated.volume]
  rfl

theorem isSettled_of_fromDocument {origin : Origin} {v : Json}
    (h : fromDocument origin v = .valid c) : c.IsSettled := by
  obtain ⟨fields, read⟩ := Document.exists_of_object h
  clear h
  unfold fromFields at read
  dsimp only at read
  simp only [functor_eq_valid_iff, seq_eq_valid_iff] at read
  -- One layer for each field that is read, the last one outermost.
  obtain ⟨_, ⟨_, ⟨_, ⟨_, ⟨_, ⟨_, ⟨_, ⟨_, ⟨_, ⟨_, ⟨_, ⟨_, ⟨_, _, rfl⟩, _, _, rfl⟩, _, _, rfl⟩, _,
    start, rfl⟩, _, _, rfl⟩, _, offset, rfl⟩, _, crop, rfl⟩, _, transform, rfl⟩, _, _, rfl⟩, _,
    _, rfl⟩, _, _, rfl⟩, _, filters, rfl⟩, _, volume, rfl⟩ := read
  have zero : Binary64.zero false ≤ Scalar.nat 0 := by decide
  constructor
  · exact Document.least_of_withDefault zero start
  · exact Document.least_of_withDefault zero offset
  · exact Crop.isSettled_of_withDefault crop
  · exact Transform.isSettled_of_withDefault transform
  · exact ColorFilters.isSettled_of_withDefault filters
  · exact Document.least_of_withDefault (by decide +kernel) volume

end Clip

namespace Track

def IsSettled (t : Track Binary64) : Prop := ∀ clip ∈ t.clips, clip.IsSettled

def measured (t : Track Binary64) : Track Binary64 := { t with clips := t.clips.map .measured }

structure IsStatedIn (t : Track Binary64) (fields : Fields) : Prop where
  id : idKey.Finds fields (Document.text · = .valid t.id)
  kind : kindKey.Finds fields (TrackKind.fromDocument · = .valid t.kind)
  clips : clipsKey.Finds fields
    (Document.IsList (fun clip => Document.IsObject clip.IsStatedIn) t.clips)

variable {t : Track Binary64}

theorem fromDocument_of_isObject (origin : Origin) (h : t.IsSettled) {v : Json}
    (made : Document.IsObject t.IsStatedIn v) : fromDocument origin v = .valid t.measured := by
  obtain ⟨fields, rfl, stated⟩ := made
  have clips := stated.clips.withDefault [] fun _ listed => listed.list fun clip member _ =>
    Clip.fromDocument_of_isObject origin (h clip member)
  change fromFields origin fields = _
  rw [fromFields, stated.id.required fun _ read => read,
    stated.kind.withDefault .video fun _ read => read, clips]
  rfl

theorem isSettled_of_fromDocument {origin : Origin} {v : Json}
    (h : fromDocument origin v = .valid t) : t.IsSettled := by
  intro clip member
  obtain ⟨w, read⟩ := exists_clip_document h clip member
  exact Clip.isSettled_of_fromDocument read

end Track

namespace Canvas

structure IsStatedIn (c : Canvas) (fields : Fields) : Prop where
  width : widthKey.Finds fields (Document.natural · = .valid c.width)
  height : heightKey.Finds fields (Document.natural · = .valid c.height)

theorem fromDocument_of_isObject (origin : Origin) {c : Canvas} {v : Json}
    (made : Document.IsObject c.IsStatedIn v) : fromDocument origin v = .valid c := by
  obtain ⟨fields, rfl, stated⟩ := made
  change fromFields fields = _
  rw [fromFields, stated.width.withDefault 0 fun _ read => read,
    stated.height.withDefault 0 fun _ read => read]
  rfl

end Canvas

namespace Timeline

def IsSettled (t : Timeline Binary64) : Prop := ∀ track ∈ t.tracks, track.IsSettled

/-- The timeline with each percentage of a crop as the double that it stands for. -/
def measured (t : Timeline Binary64) : Timeline Binary64 :=
  { t with tracks := t.tracks.map .measured }

structure IsStatedIn (t : Timeline Binary64) (fields : Fields) : Prop where
  canvas : canvasKey.Finds fields (Document.IsObject t.canvas.IsStatedIn)
  tracks : tracksKey.Finds fields
    (Document.IsList (fun track => Document.IsObject track.IsStatedIn) t.tracks)

variable {t : Timeline Binary64}

/-- What states a settled timeline is read as it. -/
theorem fromDocument_of_isObject (origin : Origin) (h : t.IsSettled) {v : Json}
    (made : Document.IsObject t.IsStatedIn v) : fromDocument origin v = .valid t.measured := by
  obtain ⟨fields, rfl, stated⟩ := made
  have tracks := stated.tracks.withDefault [] fun _ listed => listed.list fun track member _ =>
    Track.fromDocument_of_isObject origin (h track member)
  change fromFields origin fields = _
  rw [fromFields, stated.canvas.withDefault ⟨0, 0⟩ fun _ => Canvas.fromDocument_of_isObject origin,
    tracks]
  rfl

/-- What was read is settled. -/
theorem isSettled_of_fromDocument {origin : Origin} {document : Json}
    (h : fromDocument origin document = .valid t) : t.IsSettled := by
  intro track member
  obtain ⟨v, read⟩ := exists_track_document h track member
  exact Track.isSettled_of_fromDocument read

end Timeline

/-! ### Documents that are written -/

namespace Document

theorem isList_map {α : Type} {P : α → Json → Prop} {write : α → Json}
    (each : ∀ a, P a (write a)) (as : List α) : IsList P as (.arr (as.map write)) :=
  ⟨_, rfl, List.forall₂_map_right_iff.mpr (List.forall₂_same.mpr fun a _ => each a)⟩

theorem natural_natCast (n : Nat) : natural (.int n) = .valid n := by
  rw [natural, integer, Checked.andThen, if_pos (Int.natCast_nonneg n), Int.toNat_natCast]

/-- A way to spell keys, which may be another one for each key. -/
def IsSpelling (spelling : Key → String) : Prop :=
  ∀ key, spelling key = key.name ∨ spelling key = key.documentName

/-- Keys that share no spelling. -/
def Key.Apart (a b : Key) : Prop :=
  ∀ s ∈ [a.name, a.documentName], s ∉ [b.name, b.documentName]

instance (a b : Key) : Decidable (a.Apart b) :=
  inferInstanceAs (Decidable (∀ s ∈ [a.name, a.documentName], s ∉ [b.name, b.documentName]))

/-- Values under their keys. -/
def Key.written (spelling : Key → String) (entries : List (Key × Json)) : Fields :=
  entries.map fun entry => (spelling entry.1, entry.2)

namespace Key

variable {spelling : Key → String} {entries : List (Key × Json)} {key : Key} {v : Json}

theorem lookup_written (name : String) : Json.lookup (written spelling entries) name =
    (entries.find? (spelling ·.1 = name)).map (·.2) := by
  rw [Json.lookup, written, List.find?_map, Option.map_map]
  simp only [Function.comp_def]

/-- What is written under a key is found there, if no other key has one of its spellings. -/
theorem find_written (spelled : IsSpelling spelling)
    (apart : (entries.map (·.1)).Pairwise Apart) (member : (key, v) ∈ entries) :
    key.find (written spelling entries) = some (spelling key, v) := by
  have symm : Std.Symm fun a b : Key × Json => a.1.Apart b.1 :=
    ⟨fun _ _ apart s here there => apart s there here⟩
  -- An entry under a spelling of the key is the key's own.
  have own (entry : Key × Json) (listed : entry ∈ entries)
      (shared : spelling entry.1 ∈ [key.name, key.documentName]) : entry = (key, v) := by
    by_contra other
    have apart' : entry.1.Apart key := (List.pairwise_map.mp apart).forall listed member other
    refine apart' (spelling entry.1) ?_ shared
    rcases spelled entry.1 with plain | camel
    · rw [plain]
      exact List.mem_cons_self
    · rw [camel]
      exact List.mem_cons_of_mem _ List.mem_cons_self
  have found (name : String) (here : spelling key = name)
      (shared : name ∈ [key.name, key.documentName]) :
      entries.find? (spelling ·.1 = name) = some (key, v) := by
    cases first : entries.find? (spelling ·.1 = name) with
    | none => exact absurd here (by simpa using List.find?_eq_none.mp first _ member)
    | some entry =>
      have same : spelling entry.1 = name := by simpa using List.find?_some first
      rw [own entry (List.mem_of_find?_eq_some first) (same ▸ shared)]
  rw [find]
  by_cases camel : spelling key = key.documentName
  · rw [lookup_written, found key.documentName camel (by simp), camel]
    rfl
  · -- The document's own spelling is looked up first, and nothing stands under it.
    have plain := (spelled key).resolve_right camel
    have free : entries.find? (spelling ·.1 = key.documentName) = none := by
      rw [List.find?_eq_none]
      intro entry listed same
      rw [decide_eq_true_iff] at same
      rw [own entry listed (by simp [same])] at same
      exact camel same
    rw [lookup_written, free, lookup_written, found key.name plain (by simp), plain]
    rfl

/-- The same for fields of which the keys are given in order. -/
theorem finds_of_keyed (spelled : IsSpelling spelling) {keys : List Key}
    (apart : keys.Pairwise Apart) {fields : Fields}
    (keyed : fields.map (·.1) = keys.map spelling) (i : Nat)
    (here : keys[i]? = some key) (value : (fields.map (·.2))[i]? = some v) {P : Json → Prop}
    (holds : P v) : key.Finds fields P := by
  have lengths : keys.length ≤ (fields.map (·.2)).length := by
    have same := congrArg List.length keyed
    rw [List.length_map, List.length_map] at same
    rw [List.length_map, same]
  -- The fields are their keys, spelled in one way, beside their values.
  have shape : fields = written spelling (keys.zip (fields.map (·.2))) := by
    conv_lhs => rw [List.zip_of_prod keyed rfl, List.zip_map_left]
    rfl
  refine ⟨spelling key, v, ?_, holds⟩
  rw [shape]
  refine find_written spelled ?_
    (List.mem_of_getElem? (List.getElem?_zip_eq_some.mpr ⟨here, value⟩))
  rwa [List.map_fst_zip lengths]

end Key

end Document

theorem ClipKind.fromDocument_name (kind : ClipKind) :
    fromDocument (.text kind.name) = .valid kind := by
  cases kind <;> decide

theorem TrackKind.fromDocument_name (kind : TrackKind) :
    fromDocument (.text kind.name) = .valid kind := by
  cases kind <;> decide

theorem Rotation.fromDocument_degrees (r : Rotation) :
    fromDocument (.int r.degrees) = .valid r := by
  cases r <;> decide

open Document (IsSpelling)

section

variable {spelling : Key → String} (spelled : IsSpelling spelling)

include spelled

theorem Crop.isObject_toDocument (c : Crop Binary64) :
    Document.IsObject c.IsStatedIn (c.toDocument spelling) := by
  have apart : [xKey, yKey, wKey, hKey].Pairwise Key.Apart := by decide
  refine ⟨_, rfl, ?_⟩
  constructor
  · exact Key.finds_of_keyed spelled apart rfl 0 rfl rfl rfl
  · exact Key.finds_of_keyed spelled apart rfl 1 rfl rfl rfl
  · exact Key.finds_of_keyed spelled apart rfl 2 rfl rfl rfl
  · exact Key.finds_of_keyed spelled apart rfl 3 rfl rfl rfl

theorem Transform.isObject_toDocument (t : Transform Binary64) :
    Document.IsObject t.IsStatedIn (t.toDocument spelling) := by
  have apart : [xKey, yKey, scaleKey].Pairwise Key.Apart := by decide
  refine ⟨_, rfl, ?_⟩
  constructor
  · exact Key.finds_of_keyed spelled apart rfl 0 rfl rfl rfl
  · exact Key.finds_of_keyed spelled apart rfl 1 rfl rfl rfl
  · exact Key.finds_of_keyed spelled apart rfl 2 rfl rfl rfl

theorem ColorFilters.isObject_toDocument (c : ColorFilters Binary64) :
    Document.IsObject c.IsStatedIn (c.toDocument spelling) := by
  have apart : [brightnessKey, contrastKey, saturationKey, gammaKey].Pairwise Key.Apart := by
    decide
  refine ⟨_, rfl, ?_⟩
  constructor
  · exact Key.finds_of_keyed spelled apart rfl 0 rfl rfl rfl
  · exact Key.finds_of_keyed spelled apart rfl 1 rfl rfl rfl
  · exact Key.finds_of_keyed spelled apart rfl 2 rfl rfl rfl
  · exact Key.finds_of_keyed spelled apart rfl 3 rfl rfl rfl

theorem Clip.isObject_toDocument (c : Clip Binary64) :
    Document.IsObject c.IsStatedIn (c.toDocument spelling) := by
  have apart : [idKey, sourcePathKey, kindKey, sourceInKey, sourceDurationKey, timelineOffsetKey,
      cropKey, transformKey, rotateKey, flipHKey, flipVKey, colorFiltersKey,
      volumeKey].Pairwise Key.Apart := by
    decide
  refine ⟨_, rfl, ?_⟩
  constructor
  · exact Key.finds_of_keyed spelled apart rfl 0 rfl rfl rfl
  · exact Key.finds_of_keyed spelled apart rfl 1 rfl rfl rfl
  · exact Key.finds_of_keyed spelled apart rfl 2 rfl rfl (ClipKind.fromDocument_name _)
  · exact Key.finds_of_keyed spelled apart rfl 3 rfl rfl rfl
  · exact Key.finds_of_keyed spelled apart rfl 4 rfl rfl rfl
  · exact Key.finds_of_keyed spelled apart rfl 5 rfl rfl rfl
  · exact Key.finds_of_keyed spelled apart rfl 6 rfl rfl (c.crop.isObject_toDocument spelled)
  · exact Key.finds_of_keyed spelled apart rfl 7 rfl rfl (c.transform.isObject_toDocument spelled)
  · exact Key.finds_of_keyed spelled apart rfl 8 rfl rfl (Rotation.fromDocument_degrees _)
  · exact Key.finds_of_keyed spelled apart rfl 9 rfl rfl rfl
  · exact Key.finds_of_keyed spelled apart rfl 10 rfl rfl rfl
  · exact Key.finds_of_keyed spelled apart rfl 11 rfl rfl
      (c.colorFilters.isObject_toDocument spelled)
  · exact Key.finds_of_keyed spelled apart rfl 12 rfl rfl rfl

theorem Track.isObject_toDocument (t : Track Binary64) :
    Document.IsObject t.IsStatedIn (t.toDocument spelling) := by
  have apart : [idKey, kindKey, clipsKey].Pairwise Key.Apart := by decide
  have clips := Document.isList_map (Clip.isObject_toDocument spelled) t.clips
  refine ⟨_, rfl, ?_⟩
  constructor
  · exact Key.finds_of_keyed spelled apart rfl 0 rfl rfl rfl
  · exact Key.finds_of_keyed spelled apart rfl 1 rfl rfl (TrackKind.fromDocument_name _)
  · exact Key.finds_of_keyed spelled apart rfl 2 rfl rfl clips

theorem Canvas.isObject_toDocument (c : Canvas) :
    Document.IsObject c.IsStatedIn (c.toDocument spelling) := by
  have apart : [widthKey, heightKey].Pairwise Key.Apart := by decide
  refine ⟨_, rfl, ?_⟩
  constructor
  · exact Key.finds_of_keyed spelled apart rfl 0 rfl rfl (Document.natural_natCast _)
  · exact Key.finds_of_keyed spelled apart rfl 1 rfl rfl (Document.natural_natCast _)

theorem Timeline.isObject_toDocument (t : Timeline Binary64) :
    Document.IsObject t.IsStatedIn (t.toDocument spelling) := by
  have apart : [canvasKey, tracksKey].Pairwise Key.Apart := by decide
  have tracks := Document.isList_map (Track.isObject_toDocument spelled) t.tracks
  refine ⟨_, rfl, ?_⟩
  constructor
  · exact Key.finds_of_keyed spelled apart rfl 0 rfl rfl (t.canvas.isObject_toDocument spelled)
  · exact Key.finds_of_keyed spelled apart rfl 1 rfl rfl tracks

end

namespace Timeline

/-- Written out, the values of all fields are the same. -/
theorem toDocument_measured (spelling : Key → String) (t : Timeline Binary64) :
    t.measured.toDocument spelling = t.toDocument spelling := by
  have clips (clip : Clip Binary64) :
      clip.measured.toDocument spelling = clip.toDocument spelling := rfl
  have tracks (track : Track Binary64) :
      track.measured.toDocument spelling = track.toDocument spelling := by
    simp only [Track.toDocument, Track.measured, List.map_map, Function.comp_def, clips]
  simp only [toDocument, measured, List.map_map, Function.comp_def, tracks]

/-- A timeline that was read and is written under any spelling of the keys is read again, with the
same value of every field. So is what states these values in any other way. -/
theorem rereads {origin : Origin} {document : Json} {t : Timeline Binary64}
    (read : fromDocument origin document = .valid t) (again : Origin) :
    (∀ spelling, IsSpelling spelling →
      fromDocument again (t.toDocument spelling) = .valid t.measured ∧
        t.measured.toDocument spelling = t.toDocument spelling) ∧
    ∀ v, Document.IsObject t.IsStatedIn v → fromDocument again v = .valid t.measured := by
  have settled := isSettled_of_fromDocument read
  refine ⟨fun spelling spelled => ⟨?_, toDocument_measured spelling t⟩, fun v stated => ?_⟩
  · exact fromDocument_of_isObject again settled (t.isObject_toDocument spelled)
  · exact fromDocument_of_isObject again settled stated

/-- A document with numbers in texts, a crop past the frame's edge and no number for a duration. -/
def draftDocument : Json :=
  .obj [("canvas", .obj [("width", .text "1_920"), ("height", .float (Scalar.nat 1080))]),
    ("tracks", .arr [.obj [("id", .text "v1"), ("clips", .arr [.obj [("id", .text "c1"),
      ("sourcePath", .text "a.mp4"), ("source_duration", .text "nan"), ("rotate", .int 90),
      ("flipH", .text "yes"), ("crop", .obj [("x", .int 99), ("w", .int 3)]),
      ("colorFilters", .obj [("gamma", .int 20)])]])]])]

def draft : Timeline Binary64 :=
  ⟨⟨1920, 1080⟩, [⟨"v1", .video, [{
    id := "c1"
    sourcePath := "a.mp4"
    kind := .video
    sourceIn := Scalar.nat 0
    sourceDuration := .nan
    timelineOffset := Scalar.nat 0
    crop := ⟨.measured (Scalar.nat 97), .whole 0, .measured (Scalar.nat 3), .whole 100⟩
    transform := .still
    rotate := .quarter
    flipH := true
    flipV := false
    colorFilters := { ColorFilters.neutral with gamma := Scalar.nat 10 }
    volume := Scalar.nat 100 }]⟩]⟩

theorem rereads_draft : fromDocument .body draftDocument = .valid draft ∧
    IsSpelling Key.documentName ∧
    fromDocument .value (draft.toDocument Key.documentName) = .valid draft.measured ∧
    Document.IsObject draft.IsStatedIn (draft.toDocument Key.name) ∧
    fromDocument .value (draft.toDocument Key.name) = .valid draft.measured := by
  have read : fromDocument .body draftDocument = .valid draft := by decide +kernel
  have spelled : IsSpelling Key.documentName := fun _ => .inr rfl
  have plain : IsSpelling Key.name := fun _ => .inl rfl
  obtain ⟨spells, states⟩ := rereads read .value
  have stated := draft.isObject_toDocument plain
  exact ⟨read, spelled, (spells _ spelled).1, stated, states _ stated⟩

end Timeline

end Montage
