import Montage.Graph.Text
import Montage.Proofs.Graph.Assembly
import Montage.Proofs.Graph.Labels

/-!
# The marks that divide a graph's text

Brackets stand around labels, and a semicolon and a line break between operations. Numbers in
either notation have none of these marks, and neither have the labels of a compile.
-/
namespace Montage

namespace GraphText

/-- The characters that divide the text of a graph. -/
def isMark (c : Char) : Bool := c = '[' || c = ']' || c = ';' || c = '\n'

/-- Characters among which there is no mark. -/
def IsUnmarked (chars : List Char) : Prop := ∀ c ∈ chars, isMark c = false

instance (chars : List Char) : Decidable (IsUnmarked chars) :=
  List.decidableBAll (fun c => isMark c = false) chars

theorem isUnmarked_nil : IsUnmarked [] := List.forall_mem_nil _

theorem isUnmarked_append {xs ys : List Char} :
    IsUnmarked (xs ++ ys) ↔ IsUnmarked xs ∧ IsUnmarked ys :=
  List.forall_mem_append

theorem isUnmarked_cons {c : Char} {chars : List Char} :
    IsUnmarked (c :: chars) ↔ isMark c = false ∧ IsUnmarked chars :=
  List.forall_mem_cons

theorem IsUnmarked.of_subset {xs ys : List Char} (h : IsUnmarked ys) (subset : ∀ c ∈ xs, c ∈ ys) :
    IsUnmarked xs :=
  fun c member => h c (subset c member)

/-- No digit is a mark. -/
theorem isMark_of_isDigit {c : Char} (h : c.isDigit = true) : isMark c = false := by
  rw [Bool.eq_false_iff]
  intro mark
  simp only [isMark, Bool.or_eq_true, decide_eq_true_eq] at mark
  rcases mark with ((rfl | rfl) | rfl) | rfl <;> exact absurd h (by decide)

theorem isUnmarked_digits (n : Nat) : IsUnmarked (Nat.toDigits 10 n) :=
  fun c member => isMark_of_isDigit (Labels.isDigit_of_mem_digits n c member)

theorem isUnmarked_natural (n : Nat) : IsUnmarked (toString n).toList := by
  rw [Nat.toString_eq_ofList_toDigits, String.toList_ofList]
  exact isUnmarked_digits n

theorem isUnmarked_integer (n : Int) : IsUnmarked (toString n).toList := by
  cases n with
  | ofNat n =>
    rw [Int.ofNat_eq_natCast, Labels.toList_toString_natCast]
    exact isUnmarked_digits n
  | negSucc n =>
    rw [Labels.toList_toString_negSucc, isUnmarked_cons]
    exact ⟨by decide, isUnmarked_digits (n + 1)⟩

theorem isUnmarked_zeros (n : Nat) : IsUnmarked (Notation.zeros n) := by
  intro c member
  rw [List.eq_of_mem_replicate member]
  decide

theorem isUnmarked_positional (digits : List Char) (point : Int) (h : IsUnmarked digits) :
    IsUnmarked (Notation.positional digits point) := by
  unfold Notation.positional
  split
  · refine isUnmarked_append.mpr ⟨?_, h⟩
    exact isUnmarked_cons.mpr ⟨by decide, isUnmarked_cons.mpr ⟨by decide, isUnmarked_zeros _⟩⟩
  · split
    · refine isUnmarked_append.mpr ⟨isUnmarked_append.mpr ⟨h, isUnmarked_zeros _⟩, by decide⟩
    · refine isUnmarked_append.mpr
        ⟨h.of_subset fun c => List.mem_of_mem_take, isUnmarked_cons.mpr ⟨by decide, ?_⟩⟩
      exact h.of_subset fun c => List.mem_of_mem_drop

theorem isUnmarked_scientific (digits : List Char) (exponent : Int) (h : IsUnmarked digits) :
    IsUnmarked (Notation.scientific digits exponent) := by
  have fraction : IsUnmarked (if digits.length ≤ 1 then [] else '.' :: digits.drop 1) := by
    split
    · exact isUnmarked_nil
    · exact isUnmarked_cons.mpr ⟨by decide, h.of_subset fun c => List.mem_of_mem_drop⟩
  have sign : isMark (if exponent < 0 then '-' else '+') = false := by
    split <;> decide
  unfold Notation.scientific
  refine isUnmarked_append.mpr
    ⟨isUnmarked_append.mpr ⟨h.of_subset fun c => List.mem_of_mem_take, fraction⟩, ?_⟩
  refine isUnmarked_cons.mpr ⟨by decide, isUnmarked_cons.mpr ⟨sign, ?_⟩⟩
  exact isUnmarked_append.mpr ⟨isUnmarked_zeros _, isUnmarked_digits _⟩

theorem isUnmarked_ofDecimal (d : Decimal) : IsUnmarked (Notation.ofDecimal d) := by
  have kept : IsUnmarked (Notation.withoutTrailingZeros (Decimal.digitsOf d.digits)) := by
    refine IsUnmarked.of_subset (isUnmarked_digits d.digits) ?_
    intro c member
    have inReverse := (List.dropWhile_sublist _).mem (List.mem_reverse.mp member)
    exact List.mem_reverse.mp inReverse
  unfold Notation.ofDecimal
  dsimp only
  split
  · exact isUnmarked_positional _ _ kept
  · exact isUnmarked_scientific _ _ kept

theorem isUnmarked_sixPlaces (millionths : Nat) : IsUnmarked (Notation.sixPlaces millionths) := by
  unfold Notation.sixPlaces
  refine isUnmarked_append.mpr ⟨isUnmarked_append.mpr ⟨isUnmarked_digits _, ?_⟩,
    isUnmarked_digits _⟩
  exact isUnmarked_cons.mpr ⟨by decide, isUnmarked_zeros _⟩

theorem isUnmarked_signed (negative : Bool) (text : List Char) (h : IsUnmarked text) :
    IsUnmarked (Notation.signed negative text).toList := by
  rw [Notation.signed, String.toList_ofList]
  split
  · exact isUnmarked_cons.mpr ⟨by decide, h⟩
  · exact h

theorem isUnmarked_infinite (negative : Bool) :
    IsUnmarked (if negative then "-inf" else "inf").toList := by
  cases negative <;> decide

/-- However a double is written, there is no mark in it. -/
theorem isUnmarked_text (x : Binary64) : IsUnmarked x.text.toList := by
  cases x with
  | nan => decide
  | infinite negative => exact isUnmarked_infinite negative
  | finite negative rank =>
    refine isUnmarked_signed negative _ ?_
    split
    · decide
    · exact isUnmarked_ofDecimal _

/-- Neither is there one in a double with six places. -/
theorem isUnmarked_fixed (x : Binary64) : IsUnmarked x.fixed.toList := by
  cases x with
  | nan => decide
  | infinite negative => exact isUnmarked_infinite negative
  | finite negative rank => exact isUnmarked_signed negative _ (isUnmarked_sixPlaces _)

theorem isUnmarked_label (stem : String) (n : Nat) (h : IsUnmarked stem.toList) :
    IsUnmarked (Labels.label stem n).toList := by
  rw [Labels.toList_label]
  exact isUnmarked_append.mpr ⟨h, isUnmarked_digits n⟩

theorem isUnmarked_streamRef (input : Int) (stream : String) (h : IsUnmarked stream.toList) :
    IsUnmarked (streamRef input stream).toList := by
  rw [streamRef, String.toList_append, String.toList_append]
  exact isUnmarked_append.mpr
    ⟨isUnmarked_append.mpr ⟨isUnmarked_integer input, by decide⟩, h⟩

end GraphText

open GraphText

variable {α : Type}

/-- An operation that can be told from its text: no label has a mark, and all color is black. -/
structure FilterOp.IsWritable (op : FilterOp α) : Prop where
  inputs : ∀ l ∈ op.inputs, IsUnmarked l.toList
  output : IsUnmarked op.output.toList
  black : ∀ output color width height duration fps,
    op = .colorSource output color width height duration fps → color = "black"

/-- A stage whose operation can be told from its text if its source can. -/
structure Stage.IsWritable (stage : Stage α) : Prop where
  stem : IsUnmarked stage.stem.toList
  op : ∀ source output, IsUnmarked source.toList → IsUnmarked output.toList →
    (stage.op source output).IsWritable

theorem Stage.isWritable_of_reads (stage : Stage α) (others : List Label)
    (stem : IsUnmarked stage.stem.toList)
    (inputs : ∀ source output, (stage.op source output).inputs = source :: others)
    (output : ∀ source output, (stage.op source output).output = output)
    (unmarked : ∀ l ∈ others, IsUnmarked l.toList)
    (uncolored : ∀ source output, (stage.op source output).kind ≠ .colorSource) :
    stage.IsWritable := by
  refine ⟨stem, fun source label fromSource made => ⟨?_, ?_, ?_⟩⟩
  · rw [inputs]
    exact List.forall_mem_cons.mpr ⟨fromSource, unmarked⟩
  · rw [output]
    exact made
  · intro _ _ _ _ _ _ color
    exact absurd (congrArg FilterOp.kind color) (uncolored source label)

/-- Stages one after the other are writable if each of them is. -/
theorem Stage.thread_isWritable (stages : List (Stage α))
    (writable : ∀ stage ∈ stages, stage.IsWritable) (source : Label)
    (unmarked : IsUnmarked source.toList) (labels : Labels) :
    (∀ op ∈ (Stage.thread stages source labels).1.1, op.IsWritable) ∧
      IsUnmarked (Stage.thread stages source labels).1.2.toList := by
  induction stages generalizing source labels with
  | nil => exact ⟨List.forall_mem_nil _, unmarked⟩
  | cons stage rest ih =>
    have first := writable stage List.mem_cons_self
    have made := isUnmarked_label stage.stem (labels.count stage.stem) first.stem
    obtain ⟨ops, last⟩ := ih (fun s member => writable s (List.mem_cons_of_mem _ member)) _ made
      (labels.advance stage.stem)
    exact ⟨List.forall_mem_cons.mpr ⟨first.op source _ unmarked made, ops⟩, last⟩

theorem AudioSegment.trims_isWritable (segments : List (AudioSegment α))
    (unmarked : ∀ s ∈ segments, IsUnmarked s.source.toList) (labels : Labels) :
    ∀ op ∈ (AudioSegment.trims segments labels).1, op.IsWritable := by
  induction segments generalizing labels with
  | nil => exact List.forall_mem_nil _
  | cons s rest ih =>
    have later := ih (fun s member => unmarked s (List.mem_cons_of_mem _ member))
      (labels.advance "aseg")
    refine List.forall_mem_cons.mpr ⟨⟨?_, ?_, ?_⟩, later⟩
    · exact List.forall_mem_singleton.mpr (unmarked s List.mem_cons_self)
    · exact isUnmarked_label "aseg" _ (by decide)
    · intro _ _ _ _ _ _ color
      cases color

theorem AudioSegment.mix_isWritable (segments : List (AudioSegment α))
    (unmarked : ∀ s ∈ segments, IsUnmarked s.source.toList) (labels : Labels) :
    ∀ op ∈ (AudioSegment.mix segments labels).1.1, op.IsWritable := by
  unfold AudioSegment.mix
  split
  · exact List.forall_mem_nil _
  · have trims := AudioSegment.trims_isWritable segments unmarked labels
    refine List.forall_mem_append.mpr ⟨trims, List.forall_mem_singleton.mpr ⟨?_, ?_, ?_⟩⟩
    · exact List.forall_mem_map.mpr fun op member => (trims op member).output
    · exact isUnmarked_label "aout" _ (by decide)
    · intro _ _ _ _ _ _ color
      cases color

section

variable [Scalar α]

namespace Clip

/-- All stages of a clip are writable. -/
theorem isWritable_of_mem_stages (clip : Clip α) (info : SourceInfo) (placement : Placement α) :
    ∀ stage ∈ clip.stages info placement, stage.IsWritable := by
  have alone (stem : String) (op : Label → Label → FilterOp α) (unmarked : IsUnmarked stem.toList)
      (inputs : ∀ source output, (op source output).inputs = [source])
      (output : ∀ source output, (op source output).output = output)
      (uncolored : ∀ source output, (op source output).kind ≠ .colorSource) :
      (⟨stem, op⟩ : Stage α).IsWritable :=
    Stage.isWritable_of_reads _ [] unmarked inputs output (List.forall_mem_nil _) uncolored
  refine clip.forall_mem_stages info placement ?_ ?_ ?_ ?_ ?_
  · exact alone "crop" _ (by decide) (fun _ _ => rfl) (fun _ _ => rfl) (fun _ _ => nofun)
  · exact alone "trim" _ (by decide) (fun _ _ => rfl) (fun _ _ => rfl) (fun _ _ => nofun)
  · exact alone "color" _ (by decide) (fun _ _ => rfl) (fun _ _ => rfl) (fun _ _ => nofun)
  · exact alone "scale" _ (by decide) (fun _ _ => rfl) (fun _ _ => rfl) (fun _ _ => nofun)
  · exact alone "rot" _ (by decide) (fun _ _ => rfl) (fun _ _ => rfl) (fun _ _ => nofun)

end Clip

theorem PlacedClip.layers_isWritable (placed : List (PlacedClip α))
    (unmarked : ∀ p ∈ placed, IsUnmarked p.source.toList) (labels : Labels) :
    (∀ op ∈ (PlacedClip.layers placed labels).1.1, op.IsWritable) ∧
      ∀ layer ∈ (PlacedClip.layers placed labels).1.2, IsUnmarked layer.label.toList := by
  induction placed generalizing labels with
  | nil => exact ⟨List.forall_mem_nil _, List.forall_mem_nil _⟩
  | cons p rest ih =>
    obtain ⟨chain, last⟩ := Stage.thread_isWritable (p.clip.stages p.info p.placement)
      (p.clip.isWritable_of_mem_stages p.info p.placement) p.source
      (unmarked p List.mem_cons_self) labels
    obtain ⟨ops, layers⟩ := ih (fun p member => unmarked p (List.mem_cons_of_mem _ member))
      (p.clip.chain p.info p.placement p.source labels).2
    exact ⟨List.forall_mem_append.mpr ⟨chain, ops⟩, List.forall_mem_cons.mpr ⟨last, layers⟩⟩

omit [Scalar α] in
theorem Layer.composite_isWritable (layers : List (Layer α))
    (unmarked : ∀ layer ∈ layers, IsUnmarked layer.label.toList) (base : Label)
    (bottom : IsUnmarked base.toList) (labels : Labels) :
    ∀ op ∈ (Layer.composite layers base labels).1.1, op.IsWritable := by
  refine (Stage.thread_isWritable _ ?_ base bottom labels).1
  refine List.forall_mem_map.mpr fun layer member => ?_
  exact Stage.isWritable_of_reads _ [layer.label] (by decide : IsUnmarked "comp".toList)
    (fun _ _ => rfl) (fun _ _ => rfl) (List.forall_mem_singleton.mpr (unmarked layer member))
    (fun _ _ => nofun)

/-- Every operation of a graph can be told from its text. -/
theorem graphOps_isWritable (width height fps : Int) (duration : α)
    (placed : List (PlacedClip α)) (segments : List (AudioSegment α))
    (pictures : ∀ p ∈ placed, IsUnmarked p.source.toList)
    (sounds : ∀ s ∈ segments, IsUnmarked s.source.toList) (labels : Labels) :
    ∀ op ∈ (graphOps width height fps duration placed segments labels).1.1, op.IsWritable := by
  obtain ⟨base, chains, overlays, sound, layers, video, audio, l₁, l₂, l₃, l₄, hbase, hchains,
    hoverlays, hsound, parts⟩ := graphOps_parts width height fps duration placed segments labels
  -- The base has no inputs, and its color is not the luminance of a picture.
  have first : base.IsWritable := by
    cases hbase
    refine ⟨List.forall_mem_nil _, isUnmarked_label "base" _ (by decide), ?_⟩
    intro _ _ _ _ _ _ color
    cases color
    rfl
  have second := PlacedClip.layers_isWritable placed pictures l₁
  rw [hchains] at second
  have third := Layer.composite_isWritable layers second.2 base.output first.output l₂
  have fourth := AudioSegment.mix_isWritable segments sounds l₃
  rw [hoverlays] at third
  rw [hsound] at fourth
  rw [parts]
  refine List.forall_mem_append.mpr ⟨List.forall_mem_append.mpr ⟨?_, third⟩, fourth⟩
  exact List.forall_mem_cons.mpr ⟨first, second.1⟩

theorem isUnmarked_of_mem_audioSegments (cache : SourceCache) (inputs : List String)
    (clips : List (Clip α)) (s : AudioSegment α) (member : s ∈ audioSegments cache inputs clips) :
    IsUnmarked s.source.toList := by
  obtain ⟨clip, _, found⟩ := List.mem_filterMap.mp member
  unfold AudioSegment.ofClip? at found
  split at found
  · cases found
    exact isUnmarked_streamRef _ "a" (by decide)
  · cases found

/-- Every placed clip reads the picture of an input. -/
theorem PlacedClip.isUnmarked_source {cache : SourceCache} {inputs : List String}
    {clips : List (Clip α)} {placed : List (PlacedClip α)}
    (h : List.Forall₂ (PlacedClip.Places cache inputs) clips placed) :
    ∀ p ∈ placed, IsUnmarked p.source.toList := by
  induction h with
  | nil => exact List.forall_mem_nil _
  | cons first _ ih =>
    refine List.forall_mem_cons.mpr ⟨?_, ih⟩
    rw [first.source_eq]
    exact isUnmarked_streamRef _ "v" (by decide)

/-- Every operation of a compiled graph can be told from its text. -/
theorem CompiledGraph.Assembled.isWritable {timeline : Timeline α} {cache : SourceCache}
    {options : CompileOptions α} {g : CompiledGraph α} {placed : List (PlacedClip α)}
    (h : g.Assembled timeline cache options placed) : ∀ op ∈ g.ops, op.IsWritable := by
  have ops := congrArg Prod.fst h.ops_eq
  dsimp only at ops
  rw [ops]
  exact graphOps_isWritable _ _ _ _ _ _ (PlacedClip.isUnmarked_source h.places)
    (isUnmarked_of_mem_audioSegments cache g.inputs _) _

end

end Montage
