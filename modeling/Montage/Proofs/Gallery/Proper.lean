import Mathlib.Data.List.Find
import Montage.Proofs.Gallery.Walk

/-!
# Proper trees

A tree as a file system keeps it: every entry lies in a directory. Nothing stands below a file
then, so moving a file moves nothing else.
-/
namespace Montage.FileTree

/-- Every entry lies in a directory. -/
def IsProper (tree : FileTree) : Prop :=
  ∀ p name, tree.get? (p ++ [name]) ≠ none → tree.get? p = some .directory

/-- What has something below it is a directory. -/
theorem IsProper.directory_above {tree : FileTree} (h : tree.IsProper) (p rest : Position)
    (more : rest ≠ []) (there : tree.get? (p ++ rest) ≠ none) : tree.get? p = some .directory := by
  -- From the bottom up: each name on the way down stands in a directory.
  induction rest generalizing p with
  | nil => exact absurd rfl more
  | cons name rest ih =>
    by_cases last : rest = []
    · subst last
      exact h p name there
    · have shape : p ++ [name] ++ rest = p ++ name :: rest := by
        rw [List.append_assoc, List.singleton_append]
      have inner := ih (p ++ [name]) last (by rwa [shape])
      exact h p name (by rw [inner]; exact Option.some_ne_none _)

/-- A directory lies in a directory. -/
theorem IsProper.directory_dropLast {tree : FileTree} (h : tree.IsProper) {p : Position}
    (directory : tree.get? p = some .directory) : tree.get? p.dropLast = some .directory := by
  rcases List.eq_nil_or_concat p with rfl | ⟨front, name, rfl⟩
  · rfl
  · rw [List.concat_eq_append, List.dropLast_concat]
    refine h front name ?_
    rw [← List.concat_eq_append, directory]
    exact Option.some_ne_none _

theorem isProper_of_entries (tree : FileTree)
    (h : ∀ e ∈ tree.entries, tree.get? e.1.dropLast = some .directory) : tree.IsProper := by
  intro p name there
  rw [get?, if_neg (by simp), Ne, Option.map_eq_none_iff, List.find?_eq_none, not_forall] at there
  obtain ⟨e, there⟩ := there
  rw [Classical.not_imp, not_not, decide_eq_true_eq] at there
  have above := h e there.1
  rwa [there.2, List.dropLast_concat] at above

theorem get?_of_ne_nil (tree : FileTree) {p : Position} (below : p ≠ []) :
    tree.get? p = (tree.entries.find? fun e => e.1 = p).map (·.2) := by
  rw [get?, if_neg (by simpa using below)]

theorem get?_ne_none_of_mem (tree : FileTree) {e : Position × Entry} (listed : e ∈ tree.entries) :
    tree.get? e.1 ≠ none := by
  rw [get?]
  split
  · exact Option.some_ne_none _
  · rw [Ne, Option.map_eq_none_iff, List.find?_eq_none]
    intro absent
    exact absurd (decide_eq_true rfl) (absent e listed)

/-- Nothing stands below what is not a directory. -/
theorem IsProper.eq_none_below {tree : FileTree} (h : tree.IsProper) {p q : Position}
    (file : tree.get? p ≠ some .directory) (below : p <+: q) (ne : q ≠ p) :
    tree.get? q = none := by
  obtain ⟨rest, rfl⟩ := below
  have more : rest ≠ [] := by
    rintro rfl
    exact ne (List.append_nil p)
  by_contra there
  exact file (h.directory_above p rest more there)

theorem hasChildren_eq_false_iff (tree : FileTree) (p : Position) :
    tree.hasChildren p = false ↔ ∀ q, p <+: q → q ≠ p → tree.get? q = none := by
  rw [hasChildren, List.any_eq_false]
  constructor
  · intro none q below ne
    -- Whatever stands there is listed, and would be found as a child.
    by_contra there
    have nonempty : q ≠ [] := by
      rintro rfl
      exact ne (List.prefix_nil.mp below).symm
    rw [get?_of_ne_nil _ nonempty, Option.map_eq_none_iff, List.find?_eq_none, not_forall] at there
    obtain ⟨e, there⟩ := there
    rw [Classical.not_imp, not_not, decide_eq_true_eq] at there
    obtain ⟨listed, rfl⟩ := there
    exact none e listed (by simp [below, ne])
  · intro empty e listed inside
    simp only [Bool.and_eq_true, List.isPrefixOf_iff_prefix, decide_eq_true_eq] at inside
    exact tree.get?_ne_none_of_mem listed (empty e.1 inside.1 inside.2)

variable {tree : FileTree} {source target : Position} {entry : Entry}

/-- What may be moved keeps apart from its target, and finds nothing under it. -/
theorem apart_of_moveObstacle (proper : tree.IsProper)
    (free : tree.moveObstacle source entry target (tree.get? target) = none) :
    ¬source <+: target ∧ ¬target <+: source ∧
      ∀ q, target <+: q → q ≠ target → tree.get? q = none := by
  unfold moveObstacle at free
  simp only [List.isPrefixOf_iff_prefix] at free
  split at free
  · cases free
  next apart =>
    split at free
    · cases free
    next apart' =>
      refine ⟨apart, apart', ?_⟩
      -- Nothing is under a directory that may be replaced, and nothing ever is under anything else.
      by_cases place : tree.get? target = some .directory
      · rw [place] at free
        dsimp only at free
        split at free
        · cases free
        split at free
        · cases free
        next childless =>
          exact (tree.hasChildren_eq_false_iff target).mp (Bool.eq_false_iff.mpr childless)
      · exact fun q below ne => proper.eq_none_below place below ne

theorem place_of_moveObstacle (source target : Position) (entry : Entry) (present : Option Entry)
    (file : entry ≠ .directory)
    (free : tree.moveObstacle source entry target present = none) :
    present ≠ some .directory := by
  rintro rfl
  unfold moveObstacle at free
  split at free
  · cases free
  split at free
  · cases free
  · simp at free

end Montage.FileTree
