import Montage.Proofs.Number.Sign
import Montage.Proofs.Timeline.Sources
import Montage.Timeline.Document

/-!
# Timelines that were read

Every clip of a timeline that a document was read as was read from some document itself, and so
was its crop, unless it is the default one. The percentages of a crop are moved into their range
when they are read, and its corner is moved back until it ends inside the frame, at the frame's
corner at the furthest. So the corner of a crop is never before the frame's.
-/
namespace Montage

namespace Document

namespace Checked

variable {α β : Type}

theorem seq_eq_valid_iff {f : Checked (α → β)} {a : Checked α} {b : β} :
    f <*> a = .valid b ↔ ∃ g, f = .valid g ∧ ∃ x, a = .valid x ∧ g x = b := by
  change apply f a = .valid b ↔ _
  cases f <;> cases a <;> simp [apply]

theorem functor_eq_valid_iff {f : α → β} {a : Checked α} {b : β} :
    f <$> a = .valid b ↔ ∃ x, a = .valid x ∧ f x = b := by
  change apply (.valid f) a = .valid b ↔ _
  cases a <;> simp [apply]

theorem map_eq_valid_iff {f : α → β} {a : Checked α} {b : β} :
    a.map f = .valid b ↔ ∃ x, a = .valid x ∧ f x = b := by
  cases a <;> simp [map]

theorem under_eq_valid_iff {place : Place} {a : Checked α} {b : α} :
    a.under place = .valid b ↔ a = .valid b := by
  cases a <;> simp [under]

theorem exists_of_items {check : β → Checked α} {values : List β} {i : Nat} {as : List α}
    (h : items check i values = .valid as) : ∀ a ∈ as, ∃ b ∈ values, check b = .valid a := by
  induction values generalizing i as with
  | nil =>
    cases h
    exact List.forall_mem_nil _
  | cons b rest ih =>
    obtain ⟨first, head, later, tail, rfl⟩ := seq_eq_valid_iff.mp h
    obtain ⟨a, checked, rfl⟩ := map_eq_valid_iff.mp head
    refine List.forall_mem_cons.mpr ⟨⟨b, List.mem_cons_self, under_eq_valid_iff.mp checked⟩, ?_⟩
    intro a member
    obtain ⟨b', listed, checked⟩ := ih tail a member
    exact ⟨b', List.mem_cons_of_mem _ listed, checked⟩

end Checked

theorem exists_of_list {α : Type} {check : Json → Checked α} {v : Json} {as : List α}
    (h : list check v = .valid as) : ∀ a ∈ as, ∃ w, check w = .valid a := by
  cases v with
  | arr values =>
    intro a member
    obtain ⟨w, _, checked⟩ := Checked.exists_of_items h a member
    exact ⟨w, checked⟩
  | _ => cases h

theorem exists_of_object {α : Type} {origin : Origin} {name : String} {check : Fields → Checked α}
    {v : Json} {a : α} (h : object origin name check v = .valid a) :
    ∃ fields, check fields = .valid a := by
  cases v with
  | obj fields => exact ⟨fields, h⟩
  | _ => cases origin <;> cases h

theorem Key.withDefault_eq_valid {α : Type} {key : Key} {default a : α}
    {check : Json → Checked α} {fields : Fields}
    (h : key.withDefault default check fields = .valid a) :
    a = default ∨ ∃ v, check v = .valid a := by
  unfold withDefault at h
  split at h
  next _ v _ => exact .inr ⟨v, Checked.under_eq_valid_iff.mp h⟩
  next =>
    cases h
    exact .inl rfl

/-- The members of a list that may be left out. -/
theorem Key.exists_of_listed {α : Type} {key : Key} {check : Json → Checked α} {fields : Fields}
    {as : List α} (h : key.withDefault [] (list check) fields = .valid as) :
    ∀ a ∈ as, ∃ v, check v = .valid a := by
  rcases withDefault_eq_valid h with rfl | ⟨v, read⟩
  · exact List.forall_mem_nil _
  · exact exists_of_list read

end Document

open Document (Origin)
open Document.Checked (seq_eq_valid_iff functor_eq_valid_iff map_eq_valid_iff)

/-- A percentage that is in its range, or no number. -/
structure Percent.InRange (p : Percent Binary64) : Prop where
  least : p.value.NotNegative
  most : ¬Scalar.nat 100 < p.value

namespace Percent

theorem inRange_of_percent {v : Json} {p : Percent Binary64}
    (h : Document.percent v = .valid p) : p.InRange := by
  obtain ⟨_, clamped, rfl⟩ := map_eq_valid_iff.mp h
  obtain ⟨x, _, rfl⟩ := map_eq_valid_iff.mp clamped
  -- The number is raised to zero first, then lowered to a hundred. Both leave `nan` as it is.
  have raised : (Scalar.larger x (Scalar.nat 0)).NotNegative := by
    unfold Scalar.larger
    split
    · exact Binary64.notNegative_nat 0
    next above => exact above
  constructor
  · change Binary64.NotNegative (Scalar.smaller _ _)
    unfold Scalar.smaller
    split
    · exact Binary64.notNegative_nat 100
    · exact raised
  · change ¬(Scalar.nat 100 : Binary64) < Scalar.smaller _ _
    unfold Scalar.smaller
    split
    · decide +kernel
    next below => exact below

theorem inRange_of_withDefault {key : Document.Key} {n : Nat}
    (most : ¬(Scalar.nat 100 : Binary64) < Scalar.nat n) {fields : Document.Fields}
    {p : Percent Binary64}
    (h : key.withDefault (.whole n) Document.percent fields = .valid p) : p.InRange := by
  rcases Document.Key.withDefault_eq_valid h with rfl | ⟨v, read⟩
  · exact ⟨Binary64.notNegative_nat n, most⟩
  · exact inRange_of_percent read

end Percent

/-- A crop whose corner is at the frame's corner or after it on both axes. -/
structure Crop.BeginsInside (crop : Crop Binary64) : Prop where
  x : crop.x.value.NotNegative
  y : crop.y.value.NotNegative

theorem Percent.notNegative_atMost {p : Percent Binary64} {bound : Binary64}
    (h : p.value.NotNegative) (most : bound.NotNegative) :
    (p.atMost bound).value.NotNegative := by
  unfold Percent.atMost
  split
  · exact most
  · exact h

theorem Percent.InRange.atLeast_one {p : Percent Binary64} (h : p.InRange) :
    ¬Scalar.nat 100 < (p.atLeast (Scalar.nat 1)).value := by
  unfold Percent.atLeast
  split
  · change ¬(Scalar.nat 100 : Binary64) < Scalar.nat 1
    decide +kernel
  · exact h.most

namespace Crop

/-- A corner that is moved back for a side that is in its range is not moved below zero. -/
theorem beginsInside_settled {crop : Crop Binary64} (x : crop.x.InRange) (y : crop.y.InRange)
    (w : crop.w.InRange) (h : crop.h.InRange) : crop.settled.BeginsInside := by
  rw [settled]
  constructor
  · dsimp only
    exact Percent.notNegative_atMost x.least (Binary64.notNegative_hundred_sub w.atLeast_one)
  · dsimp only
    exact Percent.notNegative_atMost y.least (Binary64.notNegative_hundred_sub h.atLeast_one)

theorem beginsInside_full : (full : Crop Binary64).BeginsInside :=
  ⟨Binary64.notNegative_nat 0, Binary64.notNegative_nat 0⟩

/-- A crop that was read is four percentages of the document, settled. -/
theorem exists_of_fromDocument {origin : Origin} {v : Json} {crop : Crop Binary64}
    (read : fromDocument origin v = .valid crop) : ∃ fields x y w h,
      xKey.withDefault (.whole 0) Document.percent fields = .valid x ∧
      yKey.withDefault (.whole 0) Document.percent fields = .valid y ∧
      wKey.withDefault (.whole 100) Document.percent fields = .valid w ∧
      hKey.withDefault (.whole 100) Document.percent fields = .valid h ∧
      settled ⟨x, y, w, h⟩ = crop := by
  obtain ⟨fields, read⟩ := Document.exists_of_object read
  unfold fromFields at read
  simp only [functor_eq_valid_iff, seq_eq_valid_iff] at read
  obtain ⟨_, ⟨_, ⟨_, ⟨_, ⟨x, readX, rfl⟩, y, readY, rfl⟩, w, readW, rfl⟩, h, readH, rfl⟩, rfl⟩ :=
    read
  exact ⟨fields, x, y, w, h, readX, readY, readW, readH, rfl⟩

theorem beginsInside_of_fromDocument {origin : Origin} {v : Json} {crop : Crop Binary64}
    (h : fromDocument origin v = .valid crop) : crop.BeginsInside := by
  obtain ⟨fields, x, y, w, h, readX, readY, readW, readH, rfl⟩ := exists_of_fromDocument h
  have none : ¬(Scalar.nat 100 : Binary64) < Scalar.nat 0 := by decide +kernel
  have all : ¬(Scalar.nat 100 : Binary64) < Scalar.nat 100 := by decide +kernel
  apply beginsInside_settled
  · exact Percent.inRange_of_withDefault none readX
  · exact Percent.inRange_of_withDefault none readY
  · exact Percent.inRange_of_withDefault all readW
  · exact Percent.inRange_of_withDefault all readH

end Crop

theorem Clip.beginsInside_of_fromDocument {origin : Origin} {v : Json} {clip : Clip Binary64}
    (h : fromDocument origin v = .valid clip) : clip.crop.BeginsInside := by
  obtain ⟨fields, read⟩ := Document.exists_of_object h
  clear h
  unfold fromFields at read
  dsimp only at read
  -- Six fields stand behind the crop.
  iterate 6
    rw [seq_eq_valid_iff] at read
    obtain ⟨_, read, _, _, rfl⟩ := read
  rw [seq_eq_valid_iff] at read
  obtain ⟨_, before, crop, read, rfl⟩ := read
  simp only [functor_eq_valid_iff, seq_eq_valid_iff] at before
  obtain ⟨_, ⟨_, ⟨_, ⟨_, ⟨_, ⟨_, _, rfl⟩, _, _, rfl⟩, _, _, rfl⟩, _, _, rfl⟩, _, _, rfl⟩, _, _,
    rfl⟩ := before
  change crop.BeginsInside
  rcases Document.Key.withDefault_eq_valid read with rfl | ⟨v, read⟩
  · exact Crop.beginsInside_full
  · exact Crop.beginsInside_of_fromDocument read

theorem Track.exists_clip_document {origin : Origin} {v : Json} {track : Track Binary64}
    (h : fromDocument origin v = .valid track) :
    ∀ clip ∈ track.clips, ∃ w, Clip.fromDocument origin w = .valid clip := by
  obtain ⟨fields, read⟩ := Document.exists_of_object h
  clear h
  unfold fromFields at read
  simp only [functor_eq_valid_iff, seq_eq_valid_iff] at read
  obtain ⟨_, ⟨_, ⟨_, _, rfl⟩, _, _, rfl⟩, clips, read, rfl⟩ := read
  exact Document.Key.exists_of_listed read

namespace Timeline

theorem exists_track_document {origin : Origin} {document : Json} {timeline : Timeline Binary64}
    (h : fromDocument origin document = .valid timeline) :
    ∀ track ∈ timeline.tracks, ∃ v, Track.fromDocument origin v = .valid track := by
  obtain ⟨fields, read⟩ := Document.exists_of_object h
  clear h
  unfold fromFields at read
  simp only [functor_eq_valid_iff, seq_eq_valid_iff] at read
  obtain ⟨_, ⟨_, _, rfl⟩, tracks, read, rfl⟩ := read
  exact Document.Key.exists_of_listed read

/-- Every clip's crop begins inside the frame. -/
def IsFramed (timeline : Timeline Binary64) : Prop :=
  ∀ entry ∈ timeline.clips, entry.2.crop.BeginsInside

/-- The timelines that documents are read as are framed. -/
theorem isFramed_of_fromDocument {origin : Origin} {document : Json}
    {timeline : Timeline Binary64} (h : fromDocument origin document = .valid timeline) :
    timeline.IsFramed := by
  intro entry member
  obtain ⟨track, listed, member⟩ := List.mem_flatMap.mp member
  obtain ⟨clip, clipped, rfl⟩ := List.mem_map.mp member
  obtain ⟨v, read⟩ := exists_track_document h track listed
  obtain ⟨w, read⟩ := Track.exists_clip_document read clip clipped
  exact Clip.beginsInside_of_fromDocument read

/-- And they stay so when their source paths are resolved. -/
theorem IsFramed.mapSources {timeline : Timeline Binary64} (h : timeline.IsFramed)
    (f : String → String) : (timeline.mapSources f).IsFramed := by
  intro entry member
  rw [clips_mapSources] at member
  obtain ⟨original, listed, rfl⟩ := List.mem_map.mp member
  exact h original listed

end Timeline

end Montage
