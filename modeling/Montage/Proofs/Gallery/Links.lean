import Montage.Proofs.Gallery.Likeness

/-!
# Writing through links

A write follows links and reaches a position that is neither a link nor a directory, so it changes
the files of a tree and nothing that decides where a path leads.
-/
namespace Montage.FileTree

/-- Where a link at the end is followed, what is reached is no link. -/
theorem isClear_of_walk (tree : FileTree) (ending : Ending) (links : Nat) (position : Position)
    (names : List String) (goal : Position) (entry : Option Entry) (follows : ending ≠ .kept)
    (start : tree.IsClear position)
    (h : tree.walk ending links position names = .ok (goal, entry)) :
    tree.IsClear goal ∧ entry = tree.get? goal := by
  fun_induction walk tree ending links position names with
  | case1 links position =>
    cases h
    exact ⟨start, rfl⟩
  | case2 => cases h
  | case3 links position name rest isDirectory idle ih => exact ih start h
  | case4 links position rest isDirectory busy ih =>
    exact ih (start.of_prefix (List.dropLast_prefix position)) h
  | case5 => cases h
  | case6 => cases h
  | case7 links position name rest isDirectory busy down fits short next missing last =>
    rw [Except.ok.injEq, Prod.mk.injEq] at h
    rw [← h.1, ← h.2]
    exact ⟨start.snoc name (by rw [linkAt?, missing]), missing.symm⟩
  | case8 => cases h
  | case9 links position name rest isDirectory busy down fits short next target found last =>
    rw [Bool.and_eq_true, decide_eq_true_eq] at last
    -- Only an ending that is kept stops at a link.
    exact absurd last.2 follows
  | case10 => cases h
  | case11 position name rest isDirectory busy down fits short next target found last links ih =>
    refine ih ?_ h
    split
    · exact (IsReached.nil tree).clear
    · exact start
  | case12 links position name rest isDirectory busy down fits short next entry' other found ih =>
    refine ih (start.snoc name ?_) h
    rw [linkAt?_eq_none, found]
    intro target same
    exact other target (Option.some.inj same)

/-- A write makes or overwrites one file. -/
theorem write_ok (tree : FileTree) (path : Path) (content : String) (written : FileTree)
    (h : tree.write path content = .ok written) :
    ∃ position, written = tree.set position (.file content) ∧
      tree.get? position ≠ some .directory ∧ tree.linkAt? position = none := by
  unfold write at h
  cases found : tree.find .written path with
  | error e => rw [found] at h; cases h
  | ok place =>
    obtain ⟨position, entry⟩ := place
    -- The checks of a path's length and names come before the walk.
    have walked : tree.walk .written maxLinks [] path.steps = .ok (position, entry) := by
      unfold find locate at found
      split at found
      · cases found
      · split at found
        · cases found
        next ok =>
          cases found
          split at ok
          · cases ok
          · exact ok
    obtain ⟨clear, entry_eq⟩ := tree.isClear_of_walk .written maxLinks [] path.steps position entry
      nofun (IsReached.nil tree).clear walked
    rw [found] at h
    subst entry_eq
    -- A walk to be written to does not end at a link.
    cases there : tree.get? position with
    | none =>
      rw [there] at h
      cases h
      exact ⟨position, rfl, there ▸ nofun, clear position List.prefix_rfl⟩
    | some entry =>
      rw [there] at h
      cases entry with
      | directory => cases h
      | file old =>
        cases h
        exact ⟨position, rfl, there ▸ nofun, clear position List.prefix_rfl⟩
      | link target =>
        exact absurd there
          ((tree.linkAt?_eq_none position).mp (clear position List.prefix_rfl) target)

theorem alike_of_write (tree : FileTree) (path : Path) (content : String) (written : FileTree)
    (h : tree.write path content = .ok written) : Alike tree written := by
  obtain ⟨position, rfl, other, unlinked⟩ := tree.write_ok path content written h
  exact Alike.set_file tree position content other unlinked

/-- A link that could be followed can be looked up. -/
theorem seek_of_walk (tree : FileTree) (ending : Ending) (links : Nat) (position : Position)
    (names : List String) (target : String) (goal : Position × Option Entry)
    (named : ∀ name ∈ names, Path.IsName name)
    (clear : ∀ front, front <+: names → front ≠ names → tree.linkAt? (position ++ front) = none)
    (linked : tree.get? (position ++ names) = some (.link target))
    (h : tree.walk ending links position names = .ok goal) :
    tree.seek position names = .ok (some (.link target)) := by
  induction names generalizing position with
  | nil =>
    rw [List.append_nil] at linked
    rw [seek, linked]
  | cons name rest ih =>
    have step := named name List.mem_cons_self
    have shape (front : List String) : position ++ [name] ++ front = position ++ name :: front := by
      rw [List.append_assoc, List.singleton_append]
    rw [walk] at h
    simp only [step.busy, Bool.false_eq_true, if_false, step.down] at h
    rw [seek]
    split at h
    · cases h
    next isDirectory =>
      rw [if_neg isDirectory]
      split at h
      · cases h
      split at h
      · cases h
      next short =>
        rw [if_neg short]
        cases rest with
        | nil =>
          rw [linked]
          dsimp only
          rw [seek, linked]
        -- No link stands before the last name, so the walk has gone straight down.
        | cons other more =>
          have free : tree.linkAt? (position ++ [name]) = none :=
            clear [name] ⟨other :: more, rfl⟩ (by simp)
          have later (onward : tree.walk ending links (position ++ [name]) (other :: more) =
              .ok goal) :
              tree.seek (position ++ [name]) (other :: more) = .ok (some (.link target)) := by
            refine ih (position ++ [name]) (fun n member => named n (List.mem_cons_of_mem _ member))
              ?_ (by rwa [shape]) onward
            intro front below strict
            rw [shape]
            exact clear (name :: front) (List.cons_prefix_cons.mpr ⟨rfl, below⟩)
              fun same => strict (List.cons.inj same).2
          cases found : tree.get? (position ++ [name]) with
          | none =>
            rw [found] at h
            cases h
          | some entry =>
            rw [found] at h
            cases entry with
            | directory => exact later h
            | file content => exact later h
            | link target => exact absurd found ((tree.linkAt?_eq_none _).mp free target)

namespace Held

variable {tree : FileTree} {path : Path}

theorem resolved (h : tree.Held path) (free : tree.linkAt? path.names = none) :
    tree.Resolved path := by
  refine ⟨h.plain, ?_⟩
  intro p above
  by_cases end' : p = path.names
  · rw [end', free]
  · exact h.linkAt?_eq_none above end'

/-- A write through a link leaves the link where it is, to be looked up. -/
theorem entry_of_write (h : tree.Held path) (content target : String) (written : FileTree)
    (linked : tree.get? path.names = some (.link target))
    (ok : tree.write path content = .ok written) :
    written.entry path = .ok (some (.link target)) := by
  obtain ⟨position, rfl, other, unlinked⟩ := tree.write_ok path content written ok
  -- The write has come as far as the link, so all above it are directories.
  have found : tree.entry path = .ok (some (.link target)) := by
    unfold write find locate at ok
    unfold FileTree.entry
    split at ok
    · cases ok
    next unbroken =>
      rw [if_neg unbroken]
      by_cases long : maxPathBytes ≤ Text.nameSize path.text
      · rw [if_pos long] at ok
        cases ok
      · rw [if_neg long] at ok ⊢
        rw [h.plain.steps_eq] at ok
        cases walked : tree.walk .written maxLinks [] path.names with
        | error e => rw [walked] at ok; cases ok
        | ok goal =>
          have sought := tree.seek_of_walk .written maxLinks [] path.names target goal
            h.plain.named (fun front below other => h.linkAt?_eq_none below other)
            (by rwa [List.nil_append]) walked
          rw [sought]
  have alike := Alike.set_file tree position content other unlinked
  rw [alike.entry_ok path _ found]
  have ne : path.names ≠ position := by
    rintro rfl
    exact (tree.linkAt?_eq_none _).mp unlinked target linked
  have nonempty : path.names ≠ [] := by
    intro empty
    rw [empty] at linked
    cases linked
  rw [get?_set tree position _ _ nonempty, if_neg ne, linked]

end Held

end Montage.FileTree
