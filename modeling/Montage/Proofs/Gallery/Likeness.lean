import Montage.Proofs.Gallery.Operations

/-!
# Alike trees

Whether a path leads to a directory is decided by the directories and links of a tree. Trees that
have the same ones, and differ in files alone, have directories at the same paths.
-/
namespace Montage

namespace FileTree

/-- Two trees have the same directories and links. -/
structure Alike (t u : FileTree) : Prop where
  directories : ∀ p, u.get? p = some .directory ↔ t.get? p = some .directory
  links : ∀ p, u.linkAt? p = t.linkAt? p

namespace Alike

variable {t u v : FileTree}

theorem refl (t : FileTree) : Alike t t := ⟨fun _ => Iff.rfl, fun _ => rfl⟩

theorem symm (h : Alike t u) : Alike u t :=
  ⟨fun p => (h.directories p).symm, fun p => (h.links p).symm⟩

theorem trans (first : Alike t u) (second : Alike u v) : Alike t v :=
  ⟨fun p => (second.directories p).trans (first.directories p),
    fun p => (second.links p).trans (first.links p)⟩

theorem linksWithin (h : Alike t u) : u.LinksWithin t := fun p free => by rwa [h.links p]

theorem set_file (tree : FileTree) (position : Position) (content : String)
    (other : tree.get? position ≠ some .directory) (unlinked : tree.linkAt? position = none) :
    Alike tree (tree.set position (.file content)) := by
  have nonempty : position ≠ [] := by
    rintro rfl
    exact other rfl
  have found (p : Position) : (tree.set position (.file content)).get? p =
      if p = position then some (.file content) else tree.get? p :=
    get?_set_at tree position p _ nonempty
  -- Neither a directory nor a link stood here before, and none stands here now.
  refine ⟨?_, ?_⟩
  · intro p
    rw [found p]
    by_cases here : p = position
    · rw [if_pos here, here]
      simp [other]
    · rw [if_neg here]
  · intro p
    by_cases here : p = position
    · rw [here, unlinked, linkAt?, found, if_pos rfl]
    · exact linkAt?_congr (by rw [found, if_neg here])

theorem entry_ok (h : Alike t u) (path : Path) (entry : Option Entry)
    (found : t.entry path = .ok entry) : u.entry path = .ok (u.get? path.names) := by
  refine t.entry_of_agree_above u path entry found ?_
  intro p above other
  have passed := (t.entry_ok path entry found).2 p above other
  rw [passed, (h.directories p).mpr passed]

end Alike

/-- Whether names lead to a directory, or why that cannot be said. What is absent is none. -/
def isDirectoryAt : Except Errno (Position × Option Entry) → Except Errno Bool
  | .ok (_, entry) => .ok (entry = some .directory)
  | .error e => if e = .noEntry ∨ e = .notDirectory then .ok false else .error e

theorem isDirectoryAt_walk_of_ne (tree : FileTree) (ending : Ending) (links : Nat)
    (position : Position) (names : List String) (other : tree.get? position ≠ some .directory) :
    isDirectoryAt (tree.walk ending links position names) = .ok false := by
  cases names with
  | nil =>
    rw [walk, isDirectoryAt]
    simp [other]
  | cons name rest =>
    rw [walk, if_pos other]
    rfl

theorem walk_cons (tree : FileTree) (ending : Ending) (links : Nat) (position : Position)
    (name : String) (rest : List String) (isDirectory : ¬tree.get? position ≠ some .directory)
    (busy : ¬Path.isIdle name) (down : name ≠ "..")
    (fits : ¬(ending = .written && !rest.isEmpty && rest.all String.isEmpty) = true)
    (short : ¬maxNameBytes < Text.nameSize name) :
    tree.walk ending links position (name :: rest) =
      match tree.get? (position ++ [name]) with
      | none => if rest.isEmpty then .ok (position ++ [name], none) else .error .noEntry
      | some (.link target) =>
        if rest.isEmpty && ending = .kept then .ok (position ++ [name], some (.link target))
        else
          match links with
          | 0 => .error .linkLoop
          | links + 1 =>
            walk tree ending links (if target.startsWith "/" then [] else position)
              (Path.pieces target ++ rest)
      | some _ => walk tree ending links (position ++ [name]) rest := by
  have looked := walk.eq_def tree ending links position (name :: rest)
  simp only [if_neg isDirectory, if_neg busy, if_neg down, if_neg fits, if_neg short] at looked
  exact looked

/-- Names lead no further from what is neither a directory nor a link. -/
theorem isDirectoryAt_walk_cons (tree : FileTree) (ending : Ending) (links : Nat)
    (position : Position) (name : String) (rest : List String)
    (isDirectory : ¬tree.get? position ≠ some .directory) (busy : ¬Path.isIdle name)
    (down : name ≠ "..")
    (fits : ¬(ending = .written && !rest.isEmpty && rest.all String.isEmpty) = true)
    (short : ¬maxNameBytes < Text.nameSize name)
    (other : tree.get? (position ++ [name]) ≠ some .directory)
    (unlinked : tree.linkAt? (position ++ [name]) = none) :
    isDirectoryAt (tree.walk ending links position (name :: rest)) = .ok false := by
  rw [tree.walk_cons ending links position name rest isDirectory busy down fits short]
  split
  · split <;> rfl
  next target found => exact absurd found ((tree.linkAt?_eq_none _).mp unlinked target)
  next entry found _ => exact tree.isDirectoryAt_walk_of_ne ending links _ rest other

namespace Alike

variable {t u : FileTree}

theorem get?_eq_link (h : Alike t u) (p : Position) (target : String) :
    u.get? p = some (.link target) ↔ t.get? p = some (.link target) := by
  have found (tree : FileTree) :
      tree.get? p = some (.link target) ↔ tree.linkAt? p = some target := by
    unfold linkAt?
    split
    next other there => rw [there]; simp
    next absent => exact iff_of_false (absent target) nofun
  rw [found, found, h.links]

/-- Names lead to directories in one tree where they do in the other. -/
theorem isDirectoryAt_walk (h : Alike t u) (ending : Ending) (links : Nat) (position : Position)
    (names : List String) : isDirectoryAt (u.walk ending links position names) =
      isDirectoryAt (t.walk ending links position names) := by
  have entered {p : Position} (isDirectory : ¬t.get? p ≠ some .directory) :
      ¬u.get? p ≠ some .directory := by
    rwa [Ne, h.directories]
  -- Both walks take the same steps until one meets a file or nothing, where neither goes on.
  fun_induction walk t ending links position names with
  | case1 links position =>
    rw [walk, isDirectoryAt, isDirectoryAt]
    simp [h.directories]
  | case2 links position name rest other =>
    rw [walk, if_pos (mt (h.directories position).mp other)]
  | case3 links position name rest isDirectory idle ih =>
    rw [walk, if_neg (entered isDirectory), if_pos idle, ih]
  | case4 links position rest isDirectory busy ih =>
    rw [walk, if_neg (entered isDirectory), if_neg busy, if_pos rfl, ih]
  | case5 links position name rest isDirectory busy down slashed =>
    rw [walk, if_neg (entered isDirectory), if_neg busy, if_neg down, if_pos slashed]
  | case6 links position name rest isDirectory busy down fits long =>
    rw [walk, if_neg (entered isDirectory), if_neg busy, if_neg down, if_neg fits,
      if_pos long]
  | case7 links position name rest isDirectory busy down fits short next missing
  | case8 links position name rest isDirectory busy down fits short next missing =>
    refine u.isDirectoryAt_walk_cons ending links position name rest (entered isDirectory) busy
      down fits short (mt (h.directories next).mp (missing ▸ (Option.some_ne_none _).symm)) ?_
    rw [h.links, linkAt?, missing]
  | case9 links position name rest isDirectory busy down fits short next target found last =>
    rw [u.walk_cons _ _ _ _ _ (entered isDirectory) busy down fits short,
      (h.get?_eq_link next target).mpr found]
    dsimp only
    rw [if_pos last]
  | case10 position name rest isDirectory busy down fits short next target found more =>
    rw [u.walk_cons _ _ _ _ _ (entered isDirectory) busy down fits short,
      (h.get?_eq_link next target).mpr found]
    dsimp only
    rw [if_neg more]
  | case11 position name rest isDirectory busy down fits short next target found more links ih =>
    rw [u.walk_cons _ _ _ _ _ (entered isDirectory) busy down fits short,
      (h.get?_eq_link next target).mpr found]
    dsimp only
    rw [if_neg more]
    exact ih
  | case12 links position name rest isDirectory busy down fits short next entry other found ih =>
    by_cases directory : t.get? next = some .directory
    · rw [u.walk_cons _ _ _ _ _ (entered isDirectory) busy down fits short,
        (h.directories next).mpr directory]
      exact ih
    · rw [t.isDirectoryAt_walk_of_ne ending links next rest directory]
      refine u.isDirectoryAt_walk_cons ending links position name rest (entered isDirectory) busy
        down fits short (mt (h.directories next).mp directory) ?_
      rw [h.links, linkAt?_eq_none]
      intro target same
      exact other target (Option.some.inj (found.symm.trans same))

theorem isDirectoryAt_locate (h : Alike t u) (path : Path) :
    isDirectoryAt (u.locate .followed path) = isDirectoryAt (t.locate .followed path) := by
  unfold locate
  split
  · rfl
  · exact h.isDirectoryAt_walk .followed maxLinks [] path.steps

end Alike

/-- Whether a path leads to a directory is decided by where its names lead. -/
theorem isDirectory_eq (tree : FileTree) (path : Path) : tree.isDirectory path =
    if path.isUnfit then .ok false
    else
      match isDirectoryAt (tree.locate .followed path) with
      | .ok answer => .ok answer
      | .error e => if saysAbsent e then .ok false else fail e path := by
  unfold isDirectory test stat isDirectoryAt
  split
  · rfl
  cases tree.locate .followed path with
  | error e => cases e <;> rfl
  | ok found =>
    obtain ⟨position, entry⟩ := found
    cases entry with
    | none => rfl
    | some entry => cases entry <;> rfl

namespace Alike

variable {t u : FileTree}

theorem isDirectory_eq (h : Alike t u) (path : Path) :
    u.isDirectory path = t.isDirectory path := by
  rw [FileTree.isDirectory_eq, FileTree.isDirectory_eq, h.isDirectoryAt_locate]

end Alike
end FileTree

end Montage
