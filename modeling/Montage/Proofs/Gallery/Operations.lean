import Montage.Proofs.Gallery.Clear

/-!
# Operations on resolved paths

On a resolved path every operation is decided by the entry there, and changes that entry alone.
-/
namespace Montage.FileTree

variable {tree : FileTree} {path : Path}

theorem Held.unlink_eq (h : tree.Held path) : tree.unlink path =
    match tree.entry path with
    | .error e => .error e
    | .ok none => fail .noEntry path
    | .ok (some .directory) => fail .isDirectory path
    | .ok (some _) => .ok (tree.erase path.names) := by
  rw [unlink, h.find_eq]
  cases tree.entry path with
  | error e => rfl
  | ok entry =>
    cases entry with
    | none => rfl
    | some entry => cases entry <;> rfl

theorem Resolved.write_eq (h : tree.Resolved path) (content : String) : tree.write path content =
    match tree.entry path with
    | .error e => .error e
    | .ok (some .directory) => fail .isDirectory path
    | .ok _ => .ok (tree.set path.names (.file content)) := by
  rw [write, h.find_eq]
  cases tree.entry path with
  | error e => rfl
  | ok entry =>
    cases entry with
    | none => rfl
    | some entry => cases entry <;> rfl

theorem Held.makeDirectory_eq (h : tree.Held path) : tree.makeDirectory path =
    match tree.entry path with
    | .error e => .error e
    | .ok (some _) => fail .alreadyExists path
    | .ok none => .ok (tree.set path.names .directory) := by
  rw [makeDirectory, h.find_eq]
  cases tree.entry path with
  | error e => rfl
  | ok entry => cases entry <;> rfl

theorem Resolved.test_eq (h : tree.Resolved path) (kind : Entry → Bool) : tree.test kind path =
    if path.isUnfit then .ok false
    else
      match tree.entry path with
      | .ok (some entry) => .ok (kind entry)
      | .ok none => .ok false
      | .error (.refused e _ _) => if saysAbsent e then .ok false else fail e path
      | .error e => .error e := by
  -- A resolved path is looked up by its names, in the same order of checks on both sides.
  rw [test, stat, entry, h.locate_eq]
  by_cases null : path.isUnfit = true
  · rw [if_pos null, if_pos null]
  · rw [if_neg null, if_neg null, if_neg null]
    by_cases long : maxPathBytes ≤ Text.nameSize path.text
    · rw [if_pos long, if_pos long]
      rfl
    · rw [if_neg long, if_neg long]
      cases tree.seek [] path.names with
      | error e => rfl
      | ok entry => cases entry <;> rfl

theorem Held.holder_eq (h : tree.Held path) : tree.holder path =
    if maxPathBytes ≤ Text.nameSize path.text then .error .nameTooLong
    else
      match tree.seek [] path.names.dropLast with
      | .error e => .error e
      | .ok (some .directory) => .ok path.names.dropLast
      | .ok (some _) => .error .notDirectory
      | .ok none => .error .noEntry := by
  have above : path.names.dropLast <+: path.names := List.dropLast_prefix path.names
  -- No link stands above the last name, so the walk to its directory is a look-up.
  have walked := tree.walk_eq_seek .followed maxLinks [] path.names.dropLast
    (fun name member => h.plain.named name (above.subset member))
    fun front below _ => h.clear front below
  rw [List.nil_append] at walked
  rw [holder, h.plain.steps_eq, walked]
  split
  · rfl
  cases tree.seek [] path.names.dropLast with
  | error e => rfl
  | ok entry =>
    cases entry with
    | none => rfl
    | some entry => cases entry <;> rfl

theorem Held.holder_eq_ok_iff (h : tree.Held path) (position : Position) :
    tree.holder path = .ok position ↔ ¬maxPathBytes ≤ Text.nameSize path.text ∧
      tree.seek [] path.names.dropLast = .ok (some .directory) ∧
        position = path.names.dropLast := by
  rw [h.holder_eq]
  by_cases long : maxPathBytes ≤ Text.nameSize path.text
  · simp [long]
  · rw [if_neg long]
    cases tree.seek [] path.names.dropLast with
    | error e => simp
    | ok entry =>
      cases entry with
      | none => simp
      | some entry => cases entry <;> simp [Nat.not_le.mp long, eq_comm]

/-- A look-up is one of the directory before the last name, and then one of that name in it. -/
theorem seek_snoc (tree : FileTree) (position : Position) (front : List String) (last : String)
    (there : tree.get? position ≠ none) : tree.seek position (front ++ [last]) =
    match tree.seek position front with
    | .error e => .error e
    | .ok (some .directory) =>
      if maxNameBytes < Text.nameSize last then .error .nameTooLong
      else .ok (tree.get? (position ++ (front ++ [last])))
    | .ok (some _) => .error .notDirectory
    | .ok none => .error .noEntry := by
  induction front generalizing position with
  -- With nothing before the last name, the look-up begins at its directory.
  | nil =>
    rw [List.nil_append, seek, seek]
    cases found : tree.get? position with
    | none => exact absurd found there
    | some entry =>
      cases entry with
      | directory =>
        simp only [ne_eq, not_true_eq_false, if_false]
        split
        · rfl
        cases next : tree.get? (position ++ [last]) with
        | none => rfl
        | some entry =>
          dsimp only
          rw [seek, next]
      | file content => rfl
      | link target => rfl
  | cons name rest ih =>
    rw [List.cons_append, seek, seek]
    split
    · rfl
    split
    · rfl
    cases next : tree.get? (position ++ [name]) with
    | none => cases rest <;> rfl
    | some entry =>
      dsimp only
      rw [ih (position ++ [name]) (by rw [next]; exact Option.some_ne_none entry),
        List.append_assoc, List.singleton_append]

theorem seek_snoc_eq_ok_iff (tree : FileTree) (front : List String) (last : String)
    (entry : Option Entry) : tree.seek [] (front ++ [last]) = .ok entry ↔
      tree.seek [] front = .ok (some .directory) ∧ ¬maxNameBytes < Text.nameSize last ∧
        entry = tree.get? (front ++ [last]) := by
  rw [tree.seek_snoc [] front last (Option.some_ne_none _), List.nil_append]
  cases tree.seek [] front with
  | error e => simp
  | ok holder =>
    cases holder with
    | none => simp
    | some holder =>
      cases holder with
      | file content => simp
      | link target => simp
      | directory =>
        by_cases long : maxNameBytes < Text.nameSize last
        · simp [long]
        · simp [long, eq_comm]

namespace Held

/-- An entry that can be looked up stands in the directory before it. -/
theorem child_of_entry (h : tree.Held path) (nonempty : path.names ≠ [])
    (entry : Option Entry) (found : tree.entry path = .ok entry) :
    tree.holder path = .ok path.names.dropLast ∧
      tree.child path.names.dropLast path.lastStep = .ok (path.names, entry) := by
  have shape := h.plain.dropLast_append_lastStep nonempty
  obtain ⟨_, short, sought⟩ := (tree.entry_eq_ok_iff path entry).mp found
  rw [← shape] at sought
  obtain ⟨above, fits, there⟩ := (tree.seek_snoc_eq_ok_iff _ _ entry).mp sought
  rw [shape] at there
  refine ⟨(h.holder_eq_ok_iff _).mpr ⟨short, above, rfl⟩, ?_⟩
  rw [child, if_neg fits, shape, ← there]

end Held

/-- A move between paths that can be looked up succeeds unless nothing is there to be moved or
what is at the target is in the way. -/
theorem rename_eq {source target : Path} (hs : tree.Held source) (ht : tree.Held target)
    (sourceNamed : source.names ≠ []) (targetNamed : target.names ≠ [])
    (unbroken : source.isUnfit = false) (unbroken' : target.isUnfit = false)
    (entry present : Option Entry) (found : tree.entry source = .ok entry)
    (found' : tree.entry target = .ok present) : tree.rename source target =
    match entry with
    | none => .error (.refused .noEntry source.text (some target.text))
    | some entry =>
      if source.names = target.names then .ok tree
      else
        match tree.moveObstacle source.names entry target.names present with
        | some e => .error (.refused e source.text (some target.text))
        | none => .ok (tree.move source.names target.names) := by
  -- What the paths lead to is what their last names lead to in their directories.
  obtain ⟨held, child⟩ := hs.child_of_entry sourceNamed entry found
  obtain ⟨held', child'⟩ := ht.child_of_entry targetNamed present found'
  rw [rename, moved, unbroken, unbroken', held, held', hs.plain.isHeld sourceNamed,
    ht.plain.isHeld targetNamed]
  simp only [Bool.or_self, Bool.false_eq_true, if_false, Bool.not_true, bind, Except.bind, child]
  cases entry with
  | none => rfl
  | some entry =>
    simp only [child']
    by_cases same : source.names = target.names
    · rw [if_pos same, if_pos same]
    · rw [if_neg same, if_neg same]
      cases tree.moveObstacle source.names entry target.names present <;> rfl

theorem isUnfit_of_entry (tree : FileTree) (path : Path) (entry : Option Entry)
    (h : tree.entry path = .ok entry) : path.isUnfit = false :=
  ((tree.entry_eq_ok_iff path entry).mp h).1

/-- A path that can be looked up still can be when only the entry at it has changed. -/
theorem entry_of_agree_above (t u : FileTree) (path : Path) (entry : Option Entry)
    (found : t.entry path = .ok entry)
    (same : ∀ p, p <+: path.names → p ≠ path.names → t.get? p = u.get? p) :
    u.entry path = .ok (u.get? path.names) := by
  obtain ⟨unbroken, short, sought⟩ := (t.entry_eq_ok_iff path entry).mp found
  refine (u.entry_eq_ok_iff path _).mpr ⟨unbroken, short, ?_⟩
  rcases List.eq_nil_or_concat path.names with empty | ⟨front, last, shape⟩
  · rw [empty, seek]
  · rw [List.concat_eq_append] at shape
    rw [shape] at sought same ⊢
    obtain ⟨above, fits, _⟩ := (t.seek_snoc_eq_ok_iff front last entry).mp sought
    refine (u.seek_snoc_eq_ok_iff front last _).mpr ⟨?_, fits, rfl⟩
    rw [← above]
    -- Above the last name the trees agree, as no shorter path is the path itself.
    refine seek_congr u t [] front ?_
    intro p below
    rw [List.nil_append]
    refine (same p (below.trans (List.prefix_append front [last])) ?_).symm
    rintro rfl
    have lengths := below.length_le
    rw [List.length_append, List.length_singleton] at lengths
    omega

/-- Trees that differ only at some paths, where no links have come up. -/
structure Edited (paths : List Path) (t u : FileTree) : Prop where
  elsewhere : ∀ p, (∀ path ∈ paths, p ≠ path.names) → u.get? p = t.get? p
  links : u.LinksWithin t

namespace Edited

variable {paths : List Path} {t u v : FileTree}

theorem refl (paths : List Path) (t : FileTree) : Edited paths t t := ⟨fun _ _ => rfl, .refl t⟩

theorem trans (first : Edited paths t u) (second : Edited paths u v) : Edited paths t v :=
  ⟨fun p away => (second.elsewhere p away).trans (first.elsewhere p away),
    second.links.trans first.links⟩

theorem entry_eq (h : Edited paths t u) (path : Path)
    (apart : ∀ edited ∈ paths, ¬edited.names <+: path.names) : u.entry path = t.entry path := by
  refine entry_congr u t path ?_
  intro p above
  refine h.elsewhere p ?_
  rintro edited member rfl
  exact apart edited member above

end Edited

theorem linkAt?_congr {t u : FileTree} {p : Position} (same : u.get? p = t.get? p) :
    u.linkAt? p = t.linkAt? p := by
  rw [linkAt?, linkAt?, same]

theorem get?_set_at (tree : FileTree) (p q : Position) (entry : Entry) (below : p ≠ []) :
    (tree.set p entry).get? q = if q = p then some entry else tree.get? q := by
  by_cases empty : q = []
  · rw [empty, if_neg below.symm]
    rfl
  · exact get?_set tree p q entry empty

theorem get?_erase_at (tree : FileTree) (p q : Position) (below : p ≠ []) :
    (tree.erase p).get? q = if q = p then none else tree.get? q := by
  by_cases empty : q = []
  · rw [empty, if_neg below.symm]
    rfl
  · exact get?_erase tree p q empty

namespace Edited

theorem of_elsewhere {t u : FileTree} (path : Path)
    (elsewhere : ∀ p, p ≠ path.names → u.get? p = t.get? p)
    (unlinked : u.linkAt? path.names = none) : Edited [path] t u := by
  refine ⟨fun p away => elsewhere p (away path List.mem_cons_self), ?_⟩
  intro p free
  by_cases here : p = path.names
  · rw [here, unlinked]
  · rwa [linkAt?_congr (elsewhere p here)]

theorem set (tree : FileTree) (path : Path) (entry : Entry) (below : path.names ≠ [])
    (unlinked : ∀ target, entry ≠ .link target) :
    Edited [path] tree (tree.set path.names entry) := by
  have found := tree.get?_set_at path.names
  refine .of_elsewhere path (fun p other => by rw [found p entry below, if_neg other]) ?_
  rw [linkAt?_eq_none, found _ entry below, if_pos rfl]
  exact fun target same => unlinked target (Option.some.inj same)

theorem erase (tree : FileTree) (path : Path) (below : path.names ≠ []) :
    Edited [path] tree (tree.erase path.names) := by
  have found := tree.get?_erase_at path.names
  refine .of_elsewhere path (fun p other => by rw [found p below, if_neg other]) ?_
  rw [linkAt?, found _ below, if_pos rfl]

end Edited

theorem entry_erase (tree : FileTree) (path : Path) (entry : Entry)
    (there : tree.entry path = .ok (some entry)) (below : path.names ≠ []) :
    (tree.erase path.names).entry path = .ok none := by
  have found := tree.get?_erase_at path.names
  rw [tree.entry_of_agree_above (tree.erase path.names) path (some entry) there, found _ below,
    if_pos rfl]
  intro p _ other
  rw [found p below, if_neg other]

theorem ne_nil_of_place {position : Position} (h : tree.get? position ≠ some .directory) :
    position ≠ [] := by
  rintro rfl
  exact h rfl

theorem edited_of_write (h : tree.Resolved path) (content : String) (written : FileTree)
    (ok : tree.write path content = .ok written) : Edited [path] tree written := by
  rw [h.write_eq] at ok
  split at ok
  · cases ok
  · cases ok
  next entry notDirectory found =>
    cases ok
    rw [(tree.entry_ok path entry found).1] at notDirectory
    exact .set tree path _ (ne_nil_of_place notDirectory) fun _ => nofun

theorem edited_of_makeDirectory (h : tree.Held path) (made : FileTree)
    (ok : tree.makeDirectory path = .ok made) : Edited [path] tree made := by
  rw [h.makeDirectory_eq] at ok
  split at ok
  · cases ok
  · cases ok
  next found =>
    cases ok
    have other : tree.get? path.names ≠ some .directory := by
      rw [← (tree.entry_ok path none found).1]
      exact nofun
    exact .set tree path _ (ne_nil_of_place other) fun _ => nofun

theorem edited_of_unlink (h : tree.Held path) (removed : FileTree)
    (ok : tree.unlink path = .ok removed) : Edited [path] tree removed := by
  rw [h.unlink_eq] at ok
  split at ok
  · cases ok
  · cases ok
  · cases ok
  next entry notDirectory found =>
    cases ok
    have other : tree.get? path.names ≠ some .directory := by
      rw [← (tree.entry_ok path (some entry) found).1]
      exact fun same => notDirectory (Option.some.inj same)
    exact .erase tree path (ne_nil_of_place other)

end Montage.FileTree
