import Montage.Proofs.Render.Renaming

/-!
# Names of temporary files

A temporary file has the name of its destination with a mark put in before the extension. A mark
that begins with a dot keeps any two destinations apart: what has no extension could only be
confused with what has one if it ended in a dot and more without a dot, which is an extension.
-/
namespace Montage

namespace Path

/-- A name cut into a stem and an extension, neither of them empty. -/
structure IsCut (name : String) (stem extension : List Char) : Prop where
  stem_ne : stem ≠ []
  extension_ne : extension ≠ []
  dotless : '.' ∉ extension
  whole : name.toList = stem ++ '.' :: extension

theorem IsCut.splitName_eq {name : String} {stem extension : List Char}
    (h : IsCut name stem extension) :
    splitName name = (String.ofList stem, String.ofList ('.' :: extension)) := by
  -- Read from its end, the name has its last dot right before the extension.
  have run : (name.toList.reverse.takeWhile (· ≠ '.')).reverse = extension := by
    have before : ∀ c ∈ extension.reverse, decide (c ≠ '.') = true := by
      intro c member
      rw [decide_eq_true_iff]
      rintro rfl
      exact h.dotless (List.mem_reverse.mp member)
    have backward : name.toList.reverse = extension.reverse ++ '.' :: stem.reverse := by
      simp [h.whole]
    rw [backward, List.takeWhile_append_of_pos before, List.takeWhile_cons_of_neg (by simp),
      List.append_nil, List.reverse_reverse]
  have length : name.toList.length - extension.length - 1 = stem.length := by
    rw [h.whole, List.length_append, List.length_cons]
    omega
  have first : name.toList.take stem.length = stem := by
    rw [h.whole, List.take_left]
  rw [splitName, run, length, first, if_neg]
  simp [h.stem_ne, h.extension_ne]

/-- A name is cut in one place only. -/
theorem IsCut.unique {name : String} {stem extension stem' extension' : List Char}
    (h : IsCut name stem extension) (h' : IsCut name stem' extension') :
    stem = stem' ∧ extension = extension' := by
  obtain ⟨first, second⟩ := Prod.mk.inj (h.splitName_eq.symm.trans h'.splitName_eq)
  exact ⟨String.ofList_inj.mp first, List.tail_eq_of_cons_eq (String.ofList_inj.mp second)⟩

theorem exists_isCut {name : String} (h : (splitName name).2 ≠ "") :
    ∃ stem extension, IsCut name stem extension := by
  have whole := congrArg String.toList (stem_append_extension name)
  rw [String.toList_append] at whole
  unfold splitName at h whole
  dsimp only at h whole
  split at h
  · exact absurd rfl h
  next parts =>
    rw [if_neg parts] at whole
    simp only [String.toList_ofList] at whole
    simp only [Bool.or_eq_true, List.isEmpty_iff, not_or] at parts
    refine ⟨_, _, parts.2, parts.1, ?_, whole.symm⟩
    -- The extension has been read up to a dot, so there is none in it.
    intro dot
    have others := List.all_eq_true.mp List.all_takeWhile '.' (List.mem_reverse.mp dot)
    exact absurd rfl (of_decide_eq_true others)

/-- A name has an extension, or is not cut anywhere. -/
theorem splitName_cases (name : String) :
    (∃ stem extension, IsCut name stem extension) ∨
      (∀ stem extension, ¬IsCut name stem extension) ∧ splitName name = (name, "") := by
  by_cases none : (splitName name).2 = ""
  · right
    constructor
    · intro stem extension cut
      rw [cut.splitName_eq] at none
      exact List.cons_ne_nil _ _ (String.ofList_inj.mp none)
    · have whole := stem_append_extension name
      rw [none, String.append_empty] at whole
      exact Prod.ext whole none
  · exact .inl (exists_isCut none)

variable {mark name : String}

theorem IsCut.toList_nameWith {stem extension : List Char} (h : IsCut name stem extension) :
    (nameWith mark name).toList = stem ++ mark.toList ++ '.' :: extension := by
  rw [Path.toList_nameWith, h.splitName_eq, String.toList_ofList, String.toList_ofList]

/-- The mark belongs to the stem. -/
theorem IsCut.nameWith (mark : String) {stem extension : List Char}
    (h : IsCut name stem extension) : IsCut (nameWith mark name) (stem ++ mark.toList) extension :=
  ⟨List.append_ne_nil_of_left_ne_nil h.stem_ne _, h.extension_ne, h.dotless, h.toList_nameWith⟩

/-- If a name that is cut and another are the same with a mark, the other is cut after the same
stem. The mark and an extension is then a piece followed by the mark, so the piece begins with a
dot, as the mark does, and has as many dots as the extension with its own. -/
theorem exists_cut_of_marked_eq {marked stem extension bare : List Char}
    (dotted : ['.'] <+: marked) (some : extension ≠ []) (dotless : '.' ∉ extension)
    (same : stem ++ marked ++ '.' :: extension = bare ++ marked) :
    ∃ rest, bare = stem ++ '.' :: rest ∧ rest ≠ [] ∧ '.' ∉ rest := by
  have lengths := congrArg List.length same
  simp only [List.length_append, List.length_cons] at lengths
  rw [List.append_assoc] at same
  rcases List.append_eq_append_iff.mp same with ⟨piece, bare_eq, rotated⟩ | ⟨more, stem_eq, _⟩
  · obtain ⟨tail, rfl⟩ := dotted
    cases piece with
    | nil =>
      rw [bare_eq] at lengths
      simp at lengths
    | cons c rest =>
      simp only [List.cons_append, List.cons.injEq] at rotated
      obtain ⟨rfl, rotated⟩ := rotated
      refine ⟨rest, bare_eq, ?_, ?_⟩
      · rintro rfl
        rw [bare_eq] at lengths
        simp at lengths
        exact some (List.length_eq_zero_iff.mp (by omega))
      -- Both sides have the dots of the mark, and one more on the left, so none is in the rest.
      · have dots := congrArg (List.count '.') rotated
        simp only [List.count_append, List.count_cons_self, List.count_eq_zero.mpr dotless] at dots
        exact List.count_eq_zero.mp (by omega)
  · rw [stem_eq] at lengths
    simp only [List.length_append] at lengths
    omega

/-- A mark that begins with a dot leaves different names different. -/
theorem nameWith_inj {a b : String} (dotted : ['.'] <+: mark.toList)
    (same : nameWith mark a = nameWith mark b) : a = b := by
  -- What is cut and what is not cannot be the same with the mark.
  have apart {a b : String} {stem extension : List Char} (cut : IsCut a stem extension)
      (bare : ∀ stem extension, ¬IsCut b stem extension) (split_ : splitName b = (b, "")) :
      nameWith mark a ≠ nameWith mark b := by
    intro same
    have chars := congrArg String.toList same
    rw [cut.toList_nameWith, toList_nameWith, split_, String.toList_empty, List.append_nil] at chars
    obtain ⟨rest, whole, some, dotless⟩ :=
      exists_cut_of_marked_eq dotted cut.extension_ne cut.dotless chars
    exact bare stem rest ⟨cut.stem_ne, some, dotless, whole⟩
  rcases splitName_cases a with ⟨stem, extension, cut⟩ | ⟨bare, split_⟩
  · rcases splitName_cases b with ⟨stem', extension', cut'⟩ | ⟨bare', split'⟩
    · have marked := cut'.nameWith mark
      rw [← same] at marked
      obtain ⟨stems, rfl⟩ := (cut.nameWith mark).unique marked
      obtain rfl := List.append_cancel_right stems
      exact String.toList_inj.mp (cut.whole.trans cut'.whole.symm)
    · exact absurd same (apart cut bare' split')
  · rcases splitName_cases b with ⟨stem', extension', cut'⟩ | ⟨bare', split'⟩
    · exact absurd same.symm (apart cut' bare split_)
    · have chars := congrArg String.toList same
      rw [toList_nameWith, toList_nameWith, split_, split'] at chars
      simp only [String.toList_empty, List.append_nil] at chars
      exact String.toList_inj.mp (List.append_cancel_right chars)

/-- A mark without a dot in front may make two names one. -/
example : nameWith "b" "a.b" = nameWith "b" "ab." := by decide

theorem extension_nameWith (h : (splitName name).2 ≠ "") :
    (splitName (nameWith mark name)).2 = (splitName name).2 := by
  obtain ⟨stem, extension, cut⟩ := exists_isCut h
  rw [(cut.nameWith mark).splitName_eq, cut.splitName_eq]

theorem IsName.isSingleName (h : IsName name) : isSingleName name = true := by
  have read : namesOf name = [name] := congrArg Path.names h.ofString_eq
  -- A slash at either end would be a slash in the name.
  have slash (front : "/".toList <+: name.toList ∨ "/".toList <:+ name.toList) : False := by
    rcases front with front | back
    · exact h.whole (front.subset List.mem_cons_self)
    · exact h.whole (back.subset List.mem_cons_self)
  have first : name.startsWith "/" = false := by
    rw [Bool.eq_false_iff]
    exact fun starts => slash (.inl (String.startsWith_string_iff.mp starts))
  have last : name.endsWith "/" = false := by
    rw [Bool.eq_false_iff, ne_eq, String.endsWith_eq_endsWith_toSlice,
      String.Slice.endsWith_string_iff, String.copy_toSlice]
    exact fun ends => slash (.inr ends)
  rw [Path.isSingleName, first, last, read]
  rfl

end Path

namespace Storage

variable {s : Storage} {tree : FileTree} {own : Path}

/-- An output file has a temporary file, which is its sibling of the marked name. -/
theorem tempPath_eq_sibling (rooted : s.root.IsPlain) (whole : '/' ∉ s.tempSuffix.toList)
    (output : s.IsOutput tree own) :
    s.tempPath own = .ok (own.sibling (Path.nameWith s.tempSuffix own.name)) := by
  have named := output.isName rooted
  have single := (Path.isName_nameWith s.tempSuffix own.name named whole).isSingleName
  have below : own.names ≠ [] := by
    intro none
    exact named.ne_empty (by rw [Path.name, none]; rfl)
  have found : own.withName? (own.stem ++ s.tempSuffix ++ own.extension) =
      some (own.sibling (Path.nameWith s.tempSuffix own.name)) := by
    change own.withName? (Path.nameWith s.tempSuffix own.name) = _
    rw [Path.withName?, single, List.isEmpty_eq_false_iff.mpr below]
    rfl
  rw [tempPath, found]

/-- A destination that is accepted for some request in some state of the files. -/
def Accepts (s : Storage) (destination : Path) : Prop :=
  ∃ tree path newName, s.destination tree path newName = .ok destination

/-- With a mark that begins with a dot, every destination has a temporary file of its own: next to
it, with another name and with its extension. -/
theorem tempPath_apart (s : Storage) (rooted : s.root.IsPlain)
    (dotted : s.tempSuffix.startsWith "." = true) (whole : '/' ∉ s.tempSuffix.toList) :
    (∀ own, s.Accepts own → ∃ temp, s.tempPath own = .ok temp ∧ temp ≠ own ∧
      temp.parent = own.parent ∧ (own.extension ≠ "" → temp.extension = own.extension)) ∧
    ∀ own other, s.Accepts own → s.Accepts other → own ≠ other →
      s.tempPath own ≠ s.tempPath other := by
  have mark : ['.'] <+: s.tempSuffix.toList := String.startsWith_string_iff.mp dotted
  have beside {own : Path} (accepted : s.Accepts own) :
      own.name ≠ "" ∧ s.tempPath own = .ok (own.sibling (Path.nameWith s.tempSuffix own.name)) := by
    obtain ⟨tree, path, newName, accepted⟩ := accepted
    have output := isOutput_of_destination rooted accepted
    exact ⟨(output.isName rooted).ne_empty, tempPath_eq_sibling rooted whole output⟩
  constructor
  · intro own accepted
    refine ⟨_, (beside accepted).2, ?_, own.sibling_parent _, ?_⟩
    · intro same
      have name := congrArg Path.name same
      rw [own.sibling_name] at name
      refine Path.nameWith_ne s.tempSuffix own.name ?_ name
      intro empty
      rw [empty] at mark
      exact absurd mark (by decide)
    · intro extended
      rw [Path.extension, own.sibling_name]
      exact Path.extension_nameWith extended
  · intro own other accepted accepted' apart same
    obtain ⟨given, temp⟩ := beside accepted
    obtain ⟨given', temp'⟩ := beside accepted'
    rw [temp, temp'] at same
    have siblings := Except.ok.inj same
    have parents := congrArg Path.parent siblings
    have names := congrArg Path.name siblings
    rw [own.sibling_parent, other.sibling_parent] at parents
    rw [own.sibling_name, other.sibling_name] at names
    -- The directory and the name of a destination are all of it.
    apply apart
    rw [(other.eq_sibling_iff own other.name given').mpr ⟨parents, Path.nameWith_inj mark names⟩]
    exact ((other.eq_sibling_iff other other.name given').mpr ⟨rfl, rfl⟩).symm

/-- The temporary file of one destination may be another destination, but not the temporary file of
that one. -/
theorem tempPath_apart_rendering :
    let own : Path := .absolute ["gallery", "film.rendering"]
    let other : Path := .absolute ["gallery", "film"]
    sample.root.IsPlain ∧ sample.tempSuffix.startsWith "." = true ∧
      '/' ∉ sample.tempSuffix.toList ∧ sample.Accepts own ∧ sample.Accepts other ∧ own ≠ other ∧
      (∃ temp, sample.tempPath own = .ok temp ∧ own.extension ≠ "" ∧
        temp.extension = own.extension) ∧
      sample.tempPath other = .ok own ∧ sample.tempPath own ≠ sample.tempPath other := by
  intro own other
  have rooted : sample.root.IsPlain := ⟨rfl, by decide⟩
  have dotted : sample.tempSuffix.startsWith "." = true := by decide +kernel
  have linkless : FileTree.sample.IsLinkless := by decide
  have accepted : sample.Accepts own := ⟨.sample, "film.rendering", none,
    destination_sample .sample linkless "film.rendering" ["film.rendering"] (by decide)
      (by decide) (by decide) (by decide) (by decide)⟩
  have accepted' : sample.Accepts other := ⟨.sample, "film", none,
    destination_sample .sample linkless "film" ["film"] (by decide)
      (by decide) (by decide) (by decide) (by decide)⟩
  have differ : own ≠ other := by decide
  have extended : own.extension ≠ "" := by decide
  -- The mark of a temporary file is the extension of the one and the end of the other's own.
  obtain ⟨each, apart⟩ := tempPath_apart sample rooted dotted (by decide)
  obtain ⟨temp, found, _, _, kept⟩ := each own accepted
  exact ⟨rooted, dotted, by decide, accepted, accepted', differ,
    ⟨temp, found, extended, kept extended⟩, by decide +kernel,
    apart own other accepted accepted' differ⟩

end Storage

end Montage
