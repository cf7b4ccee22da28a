import Mathlib.Data.List.Basic
import Montage.Gallery.Storage

/-!
# Plain paths

A plain path starts at the root and takes one step down with each of its names. Its text reads
back as the path, and the temporary file next to it is named apart from it.
-/
namespace Montage

namespace Path

/-- A name that is one step down. -/
structure IsName (name : String) : Prop where
  busy : isIdle name = false
  down : name ≠ ".."
  whole : '/' ∉ name.toList

instance (name : String) : Decidable (IsName name) :=
  decidable_of_iff (isIdle name = false ∧ name ≠ ".." ∧ '/' ∉ name.toList)
    ⟨fun ⟨busy, down, whole⟩ => ⟨busy, down, whole⟩, fun h => ⟨h.busy, h.down, h.whole⟩⟩

theorem IsName.ne_empty {name : String} (h : IsName name) : name ≠ "" := by
  rintro rfl
  exact absurd h.busy (by decide)

theorem IsName.isEmpty_eq {name : String} (h : IsName name) : name.isEmpty = false := by
  have busy := h.busy
  simp only [isIdle, Bool.or_eq_false_iff] at busy
  exact busy.1

/-- A name without a slash is one piece. -/
theorem pieces_of_whole (name : String) (h : '/' ∉ name.toList) : pieces name = [name] := by
  rw [pieces, List.splitOn_eq_singleton h, List.map_singleton, String.ofList_toList]

theorem flatMap_pieces (names : List String) (h : ∀ name ∈ names, '/' ∉ name.toList) :
    names.flatMap pieces = names := by
  induction names with
  | nil => rfl
  | cons name rest ih =>
    rw [List.flatMap_cons, pieces_of_whole name (h name List.mem_cons_self),
      ih fun other member => h other (List.mem_cons_of_mem _ member), List.singleton_append]

/-- Names joined by slashes are taken apart again. -/
theorem pieces_intercalate (names : List String) (nonempty : names ≠ [])
    (h : ∀ name ∈ names, '/' ∉ name.toList) :
    pieces (String.intercalate "/" names) = names := by
  have whole : ∀ l ∈ names.map String.toList, '/' ∉ l := by
    intro l member
    obtain ⟨name, present, rfl⟩ := List.mem_map.mp member
    exact h name present
  rw [pieces, String.toList_intercalate]
  change ((['/'].intercalate (names.map String.toList)).splitOn '/').map String.ofList = names
  rw [List.splitOn_intercalate '/' whole (by simpa using nonempty), List.map_map]
  exact List.map_id'' (fun name => String.ofList_toList) names

theorem not_mem_of_mem_splitOn (c : Char) (chars part : List Char)
    (h : part ∈ chars.splitOn c) : c ∉ part := by
  induction chars generalizing part with
  | nil =>
    rw [List.splitOn_nil, List.mem_singleton] at h
    rw [h]
    exact List.not_mem_nil
  | cons d rest ih =>
    rw [List.splitOn_cons_eq_if_modifyHead] at h
    split at h
    · rcases List.mem_cons.mp h with rfl | later
      · exact List.not_mem_nil
      · exact ih part later
    -- A character that does not divide goes to the front of the first part.
    next other =>
      cases parts : rest.splitOn c with
      | nil => exact absurd parts (List.splitOn_ne_nil c rest)
      | cons first others =>
        rw [parts, List.modifyHead_cons] at h
        rw [parts] at ih
        rcases List.mem_cons.mp h with rfl | later
        · rw [List.mem_cons, not_or]
          refine ⟨?_, ih first List.mem_cons_self⟩
          rintro rfl
          exact other (beq_self_eq_true c)
        · exact ih part (List.mem_cons_of_mem _ later)

/-- There is no slash in a piece. -/
theorem whole_of_mem_pieces (text name : String) (h : name ∈ pieces text) :
    '/' ∉ name.toList := by
  obtain ⟨chars, member, rfl⟩ := List.mem_map.mp h
  rw [String.toList_ofList]
  exact not_mem_of_mem_splitOn '/' text.toList chars member

/-- The names that are left when double dots are removed are names of the path, and none of them is
a double dot. -/
theorem mem_of_mem_collapsed (p : Path) (name : String) (h : name ∈ p.collapsed.names) :
    name ∈ p.names ∧ name ≠ ".." := by
  -- The induction needs the names that have been kept so far.
  have folded (names kept : List String) (member : name ∈ names.foldl (fun kept name =>
      if name = ".." then kept.dropLast else kept ++ [name]) kept) :
      name ∈ kept ∨ (name ∈ names ∧ name ≠ "..") := by
    induction names generalizing kept with
    | nil => exact .inl member
    | cons first rest ih =>
      rcases ih _ member with old | ⟨later, down⟩
      · dsimp only at old
        split at old
        · exact .inl ((List.dropLast_sublist kept).subset old)
        next other =>
          rcases List.mem_append.mp old with old | new
          · exact .inl old
          · rw [List.mem_singleton.mp new]
            exact .inr ⟨List.mem_cons_self, other⟩
      · exact .inr ⟨List.mem_cons_of_mem _ later, down⟩
  exact (folded p.names [] h).resolve_left List.not_mem_nil

/-- No name of a path holds a slash. -/
def IsWhole (p : Path) : Prop := ∀ name ∈ p.names, '/' ∉ name.toList

instance (p : Path) : Decidable p.IsWhole :=
  inferInstanceAs (Decidable (∀ name ∈ p.names, '/' ∉ name.toList))

namespace IsWhole

variable {p q : Path}

theorem ofString (text : String) : (ofString text).IsWhole :=
  fun name member => whole_of_mem_pieces text name (List.mem_of_mem_filter member)

theorem join (hp : p.IsWhole) (hq : q.IsWhole) : (p.join q).IsWhole := by
  unfold Path.join
  split
  · exact hq
  · intro name member
    rcases List.mem_append.mp member with first | second
    · exact hp name first
    · exact hq name second

theorem parent (h : p.IsWhole) : p.parent.IsWhole :=
  fun name member => h name ((List.dropLast_sublist p.names).subset member)

theorem relativeTo? (h : p.IsWhole) (base : Path) :
    ((p.relativeTo? base).getD ⟨"", []⟩).IsWhole := by
  unfold Path.relativeTo?
  split
  · exact fun name member => h name (List.mem_of_mem_drop member)
  · exact fun name member => absurd member List.not_mem_nil

end IsWhole

/-- A path from the root with one step down for each name. -/
structure IsPlain (p : Path) : Prop where
  root_eq : p.root = "/"
  named : ∀ name ∈ p.names, IsName name

/-- The names left in a collapsed path are names. -/
theorem IsName.of_mem_collapsed (text name : String)
    (h : name ∈ (ofString text).collapsed.names) : IsName name := by
  obtain ⟨member, down⟩ := mem_of_mem_collapsed (ofString text) name h
  have kept := List.of_mem_filter member
  rw [Bool.not_eq_true'] at kept
  exact ⟨kept, down, whole_of_mem_pieces text name (List.mem_of_mem_filter member)⟩

/-- Names one after the other begin with the first character of a name, which is no slash. -/
theorem exists_intercalate (names : List String) (nonempty : names ≠ [])
    (named : ∀ name ∈ names, IsName name) :
    ∃ c tail, (String.intercalate "/" names).toList = c :: tail ∧ c ≠ '/' := by
  obtain ⟨name, rest, rfl⟩ := List.exists_cons_of_ne_nil nonempty
  have first := named name List.mem_cons_self
  cases chars : name.toList with
  | nil => exact absurd (String.toList_eq_nil_iff.mp chars) first.ne_empty
  | cons c cs =>
    have other : c ≠ '/' := by
      rintro rfl
      exact first.whole (by rw [chars]; exact List.mem_cons_self)
    rw [String.toList_intercalate]
    -- Slashes stand between the names only, so that the first name begins the text.
    have head : ∃ tail, ("/".toList).intercalate ((name :: rest).map String.toList) =
        c :: tail := by
      cases rest <;> simp [List.intercalate, chars]
    obtain ⟨tail, shape⟩ := head
    exact ⟨c, tail, shape, other⟩

theorem namesOf_intercalate (names : List String) (nonempty : names ≠ [])
    (named : ∀ name ∈ names, IsName name) :
    namesOf (String.intercalate "/" names) = names := by
  rw [namesOf, pieces_intercalate names nonempty fun name member => (named name member).whole]
  exact List.filter_eq_self.mpr fun name member => by rw [(named name member).busy]; rfl

/-- The text of a relative path reads back as the path. -/
theorem ofString_relative (names : List String) (nonempty : names ≠ [])
    (named : ∀ name ∈ names, IsName name) : ofString (Path.text ⟨"", names⟩) = ⟨"", names⟩ := by
  have text_eq : Path.text ⟨"", names⟩ = String.intercalate "/" names := by
    rw [text, List.isEmpty_eq_false_iff.mpr nonempty, Bool.and_false]
    exact String.empty_append
  obtain ⟨c, tail, shape, other⟩ := exists_intercalate names nonempty named
  have rootless : rootOf (String.intercalate "/" names) = "" := by
    rw [rootOf, shape]
    split <;> simp_all
  rw [text_eq, ofString, rootless, namesOf_intercalate names nonempty named]

/-- A single name reads as itself. -/
theorem IsName.ofString_eq {name : String} (h : IsName name) : ofString name = ⟨"", [name]⟩ :=
  ofString_relative [name] (List.cons_ne_nil _ _)
    fun other member => by rwa [List.mem_singleton.mp member]

namespace IsPlain

variable {p : Path}

theorem whole (h : p.IsPlain) : p.IsWhole :=
  fun name member => (h.named name member).whole

theorem steps_eq (h : p.IsPlain) : p.steps = p.names := flatMap_pieces p.names h.whole

/-- A plain path is written as its names with slashes before them. -/
theorem text_eq (h : p.IsPlain) : p.text = "/" ++ String.intercalate "/" p.names := by
  rw [text, h.root_eq]
  rfl

theorem rootOf_text (h : p.IsPlain) : rootOf p.text = "/" := by
  rw [h.text_eq, rootOf, String.toList_append]
  by_cases empty : p.names = []
  · rw [empty]
    rfl
  · obtain ⟨c, tail, shape, other⟩ := exists_intercalate p.names empty h.named
    rw [shape]
    have start : "/".toList ++ c :: tail = '/' :: c :: tail := rfl
    rw [start]
    -- A second slash would have to begin a name.
    split <;> simp_all

/-- A plain path is read back from its text. -/
theorem namesOf_text (h : p.IsPlain) : namesOf p.text = p.names := by
  have pieces_text : pieces p.text = "" :: pieces (String.intercalate "/" p.names) := by
    rw [h.text_eq, pieces, String.toList_append]
    change (('/' :: (String.intercalate "/" p.names).toList).splitOn '/').map String.ofList = _
    rw [List.splitOn_cons_eq_if_modifyHead, if_pos (beq_self_eq_true _)]
    rfl
  rw [namesOf, pieces_text]
  change namesOf (String.intercalate "/" p.names) = p.names
  by_cases empty : p.names = []
  · rw [empty]
    rfl
  · exact namesOf_intercalate p.names empty h.named

/-- The text of a plain path reads back as the path. -/
theorem ofString_text (h : p.IsPlain) : ofString p.text = p := by
  rw [ofString, h.rootOf_text, h.namesOf_text, ← h.root_eq]

theorem dropLast_append_lastStep (h : p.IsPlain) (below : p.names ≠ []) :
    p.names.dropLast ++ [p.lastStep] = p.names := by
  have last : p.lastStep = p.names.getLast below := by
    rw [lastStep, h.steps_eq, List.getLastD_eq_getLast?, List.getLast?_eq_some_getLast below]
    rfl
  rw [last, List.dropLast_append_getLast below]

theorem isName_lastStep (h : p.IsPlain) (below : p.names ≠ []) : IsName p.lastStep := by
  refine h.named p.lastStep ?_
  rw [← h.dropLast_append_lastStep below]
  exact List.mem_append_right _ (List.mem_singleton_self _)

theorem isHeld (h : p.IsPlain) (below : p.names ≠ []) : p.isHeld = true := by
  have named := h.isName_lastStep below
  rw [Path.isHeld, named.busy]
  simpa using named.down

end IsPlain

/-- A name is its stem and its extension. -/
theorem stem_append_extension (name : String) :
    (splitName name).1 ++ (splitName name).2 = name := by
  let run := name.toList.reverse.takeWhile (· ≠ '.')
  let before := name.toList.reverse.dropWhile (· ≠ '.')
  have whole : name.toList = before.reverse ++ run.reverse := by
    rw [← List.reverse_append, List.takeWhile_append_dropWhile, List.reverse_reverse]
  simp only [splitName]
  split
  · exact String.append_empty
  next split_ =>
    cases shape : before with
    | nil =>
      rw [shape, List.reverse_nil, List.nil_append] at whole
      refine absurd ?_ split_
      have : name.toList.length = run.reverse.length := congrArg List.length whole
      change (_ || (name.toList.take (name.toList.length - run.reverse.length - 1)).isEmpty) = true
      rw [this, Nat.sub_self, Nat.zero_sub, List.take_zero]
      exact Bool.or_true _
    | cons dot stem =>
      -- The run before the extension ends at a dot, which belongs to neither part.
      have isDot : dot = '.' := by
        have first := List.head?_dropWhile_not (fun c : Char => decide (c ≠ '.'))
          name.toList.reverse
        have here : name.toList.reverse.dropWhile (fun c => decide (c ≠ '.')) = dot :: stem :=
          shape
        rw [here] at first
        simpa using first
      subst isDot
      rw [shape, List.reverse_cons, List.append_assoc, List.singleton_append] at whole
      have length : name.toList.length - run.reverse.length - 1 = stem.reverse.length := by
        rw [whole, List.length_append, List.length_cons]
        omega
      change String.ofList (name.toList.take (name.toList.length - run.reverse.length - 1)) ++
        String.ofList ('.' :: run.reverse) = name
      rw [length, ← String.ofList_append]
      conv => lhs; rw [whole, List.take_left]
      rw [← whole, String.ofList_toList]

/-- A name with more put in before its extension. -/
def nameWith (suffix name : String) : String :=
  (splitName name).1 ++ suffix ++ (splitName name).2

theorem toList_nameWith (suffix name : String) : (nameWith suffix name).toList =
    (splitName name).1.toList ++ suffix.toList ++ (splitName name).2.toList := by
  rw [nameWith, String.toList_append, String.toList_append]

theorem sublist_nameWith (suffix name : String) :
    name.toList.Sublist (nameWith suffix name).toList := by
  have whole := congrArg String.toList (stem_append_extension name)
  rw [String.toList_append] at whole
  rw [toList_nameWith, ← whole]
  exact (List.sublist_append_left _ _).append (List.Sublist.refl _)

/-- A suffix makes another name. -/
theorem nameWith_ne (suffix name : String) (h : suffix ≠ "") : nameWith suffix name ≠ name := by
  intro same
  have lengths := congrArg List.length (congrArg String.toList same)
  have whole := congrArg List.length (congrArg String.toList (stem_append_extension name))
  rw [toList_nameWith, List.length_append, List.length_append] at lengths
  rw [String.toList_append, List.length_append] at whole
  have none : suffix.toList.length = 0 := by omega
  exact h (String.toList_eq_nil_iff.mp (List.length_eq_zero_iff.mp none))

/-- A name with a suffix is a name, unless the suffix has a slash. -/
theorem isName_nameWith (suffix name : String) (h : IsName name)
    (whole : '/' ∉ suffix.toList) : IsName (nameWith suffix name) := by
  have inside := sublist_nameWith suffix name
  -- A text of at most two dots has only texts of dots within it, and none of these is a name.
  have notDots (text : String) (dots : text.toList.Sublist ['.', '.']) : ¬IsName text := by
    intro named
    have options : text.toList = [] ∨ text.toList = ['.'] ∨ text.toList = ['.', '.'] := by
      rcases List.sublist_cons_iff.mp dots with skipped | ⟨_, first, rest⟩
      · rcases List.sublist_cons_iff.mp skipped with none | ⟨_, second, nothing⟩
        · exact .inl (List.sublist_nil.mp none)
        · rw [List.sublist_nil.mp nothing] at second
          exact .inr (.inl second)
      · rcases List.sublist_cons_iff.mp rest with none | ⟨_, rfl, nothing⟩
        · rw [List.sublist_nil.mp none] at first
          exact .inr (.inl first)
        · rw [List.sublist_nil.mp nothing] at first
          exact .inr (.inr first)
    rcases options with empty | one | two
    · exact named.ne_empty (String.toList_eq_nil_iff.mp empty)
    · have same : text = "." := String.toList_inj.mp one
      rw [same] at named
      exact absurd named.busy (by decide)
    · exact named.down (String.toList_inj.mp two)
  refine ⟨?_, ?_, ?_⟩
  · rw [isIdle, Bool.or_eq_false_iff, decide_eq_false_iff_not]
    constructor
    · cases empty : (nameWith suffix name).isEmpty with
      | false => rfl
      | true =>
        rw [String.isEmpty_iff.mp empty] at inside
        exact absurd h (notDots name (inside.trans (by decide)))
    · intro dot
      rw [dot] at inside
      exact notDots name (inside.trans (by decide)) h
  · intro dots
    rw [dots] at inside
    exact notDots name inside h
  · have wholeName := h.whole
    rw [← stem_append_extension name, String.toList_append, List.mem_append, not_or] at wholeName
    rw [toList_nameWith, List.mem_append, List.mem_append]
    rintro ((stem | mid) | extension)
    · exact wholeName.1 stem
    · exact whole mid
    · exact wholeName.2 extension

end Path

/-- The temporary file stands next to its destination. -/
theorem Storage.tempPath_eq (s : Storage) (destination output : Path)
    (h : s.tempPath destination = .ok output) : destination.names ≠ [] ∧
      output = ⟨destination.root, destination.names.dropLast ++
        [Path.nameWith s.tempSuffix destination.name]⟩ := by
  unfold tempPath at h
  dsimp only at h
  split at h
  next path found =>
    cases h
    unfold Path.withName? at found
    split at found
    · cases found
    next single =>
      cases found
      simp only [Bool.or_eq_true, not_or] at single
      exact ⟨fun empty => single.1 (List.isEmpty_iff.mpr empty), rfl⟩
  · cases h

theorem Path.name_eq (p : Path) (below : p.names ≠ []) : p.name = p.names.getLast below := by
  rw [name, List.getLastD_eq_getLast?, List.getLast?_eq_some_getLast below]
  rfl

/-- The temporary file of a plain destination has a plain path. -/
theorem Storage.isPlain_tempPath (s : Storage) (destination output : Path)
    (whole : '/' ∉ s.tempSuffix.toList) (plain : destination.IsPlain)
    (h : s.tempPath destination = .ok output) : output.IsPlain := by
  obtain ⟨below, rfl⟩ := s.tempPath_eq destination output h
  refine ⟨plain.root_eq, ?_⟩
  intro name member
  rcases List.mem_append.mp member with old | new
  · exact plain.named name ((List.dropLast_sublist _).subset old)
  · rw [List.mem_singleton.mp new]
    refine Path.isName_nameWith s.tempSuffix destination.name ?_ whole
    rw [destination.name_eq below]
    exact plain.named _ (List.getLast_mem below)

/-- A mark that is not empty sets the temporary file apart from its destination. -/
theorem Storage.tempPath_names_ne (s : Storage) (destination output : Path)
    (marked : s.tempSuffix ≠ "") (h : s.tempPath destination = .ok output) :
    output.names ≠ destination.names := by
  obtain ⟨below, rfl⟩ := s.tempPath_eq destination output h
  intro same
  have last := congrArg List.getLast? same
  rw [List.getLast?_concat, List.getLast?_eq_some_getLast below,
    ← destination.name_eq below] at last
  exact Path.nameWith_ne s.tempSuffix destination.name marked (Option.some.inj last)

end Montage
