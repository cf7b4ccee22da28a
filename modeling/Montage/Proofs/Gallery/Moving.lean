import Montage.Proofs.Gallery.Proper

/-!
# Moving into place

A move takes what stands at one position, with all below it, to another position, and leaves
everything beside the two where it is. A replacement that succeeds ends with such a move: the
place has been cleared by then, and what stood at the first path stands at the second one.
-/
namespace Montage

namespace FileTree

variable (tree : FileTree) {source target p q : Position}

/-- What stands at a position after a move is what stood at the position that it came from. -/
theorem get?_move_of_iff (below : p ≠ []) (below' : q ≠ [])
    (from' : ∀ e ∈ (tree.erase target).entries,
      (if source <+: e.1 then target ++ e.1.drop source.length else e.1) = p ↔ e.1 = q) :
    (tree.move source target).get? p = (tree.erase target).get? q := by
  rw [get?_of_ne_nil _ below, get?_of_ne_nil _ below', move, List.find?_map, Option.map_map]
  -- Searching the moved entries for the one position is searching the old ones for the other.
  have found : (tree.erase target).entries.find? ((fun e => decide (e.1 = p)) ∘ fun e =>
      if source.isPrefixOf e.1 then (target ++ e.1.drop source.length, e.2) else e) =
        (tree.erase target).entries.find? fun e => decide (e.1 = q) := by
    refine List.find?_congr fun e kept => ?_
    have goes := from' e kept
    by_cases inside : source <+: e.1
    · rw [if_pos inside] at goes
      simp [inside, goes]
    · rw [if_neg inside] at goes
      simp [inside, goes]
  rw [found]
  congr 1
  funext e
  by_cases inside : source.isPrefixOf e.1 = true
  · rw [Function.comp_apply, if_pos inside]
  · rw [Function.comp_apply, if_neg inside]

/-- What is left when a position is cleared stands elsewhere. -/
theorem ne_of_mem_erase {e : Position × Entry} (kept : e ∈ (tree.erase target).entries) :
    e.1 ≠ target := by
  simpa using List.of_mem_filter kept

/-- What is moved stands at the target itself. -/
theorem get?_move_target (ne : source ≠ target) (below : source ≠ []) (below' : target ≠ []) :
    (tree.move source target).get? target = tree.get? source := by
  rw [tree.get?_move_of_iff below' below, get?_erase_at tree target source below', if_neg ne]
  intro e kept
  split
  next inside =>
    -- Only the entry at the source itself has nothing to follow the target's names.
    obtain ⟨rest, shape⟩ := inside
    simp [← shape]
  next outside =>
    constructor
    · exact fun same => absurd same (tree.ne_of_mem_erase kept)
    · rintro rfl
      exact absurd List.prefix_rfl outside

/-- Nothing is left under the source. -/
theorem get?_move_under (under : source <+: p) (away : ¬target <+: p) (below : source ≠ []) :
    (tree.move source target).get? p = none := by
  have nonempty : p ≠ [] := by
    rintro rfl
    exact below (List.prefix_nil.mp under)
  rw [get?_of_ne_nil _ nonempty, Option.map_eq_none_iff, List.find?_eq_none]
  -- An entry that is there now has been moved to under the target, or was not under the source.
  intro e moved here
  obtain ⟨old, _, rfl⟩ := List.mem_map.mp moved
  rw [decide_eq_true_eq] at here
  split at here
  next inside => exact away ⟨_, here⟩
  next outside =>
    rw [here] at outside
    exact outside (List.isPrefixOf_iff_prefix.mpr under)

/-- Nothing moves off both paths. -/
theorem get?_move_apart (below' : target ≠ []) (fromSource : ¬source <+: p)
    (fromTarget : ¬target <+: p) : (tree.move source target).get? p = tree.get? p := by
  by_cases root : p = []
  · rw [root]
    rfl
  have ne : p ≠ target := fun same => fromTarget (same ▸ List.prefix_rfl)
  rw [tree.get?_move_of_iff root root, get?_erase_at tree target p below', if_neg ne]
  -- An entry shows at a position off both paths exactly if it stood there.
  intro e _
  split
  next inside =>
    constructor
    · rintro rfl
      exact absurd (List.prefix_append _ _) fromTarget
    · rintro rfl
      exact absurd inside fromSource
  next => exact Iff.rfl

/-- What is moved stands under the target as it stood under the source, which is left empty. -/
theorem get?_move (below : source ≠ []) (below' : target ≠ []) (apart : ¬source <+: target)
    (empty : ∀ q, target <+: q → q ≠ target → tree.get? q = none) (p : Position) :
    (tree.move source target).get? p =
      if target <+: p then tree.get? (source ++ p.drop target.length)
      else if source <+: p then none
      else tree.get? p := by
  split
  next under =>
    obtain ⟨rest, rfl⟩ := under
    -- What shows under the target stood as deep under the source. What stood under the target
    -- itself would show there too, but nothing did.
    have ne : source ++ rest ≠ target := fun same => apart ⟨rest, same⟩
    rw [List.drop_left, tree.get?_move_of_iff (q := source ++ rest) (by simp [below'])
      (by simp [below]), get?_erase_at tree target _ below', if_neg ne]
    intro e kept
    split
    next inside =>
      obtain ⟨more, shape⟩ := inside
      simp [← shape]
    next outside =>
      constructor
      · intro same
        refine absurd (empty e.1 ⟨rest, same.symm⟩ (tree.ne_of_mem_erase kept)) ?_
        exact tree.get?_ne_none_of_mem (List.mem_of_mem_filter kept)
      · intro same
        exact absurd ⟨rest, same.symm⟩ outside
  -- Anywhere else what stood under the source is gone, and the rest has stayed.
  next away =>
    split
    next under => exact tree.get?_move_under under away below
    next beside => exact tree.get?_move_apart below' beside away

/-- A file that is moved leaves its place for another one. -/
theorem get?_move_file {entry : Entry} (proper : tree.IsProper)
    (file : tree.get? source ≠ some .directory) (place : tree.get? target ≠ some .directory)
    (free : tree.moveObstacle source entry target (tree.get? target) = none) (p : Position) :
    (tree.move source target).get? p =
      if p = target then tree.get? source
      else if p = source then none
      else tree.get? p := by
  obtain ⟨apart, apart', empty⟩ := apart_of_moveObstacle proper free
  rw [tree.get?_move (ne_nil_of_place file) (ne_nil_of_place place) apart empty p]
  by_cases onto : p = target
  · rw [if_pos onto, onto, if_pos List.prefix_rfl, List.drop_length, List.append_nil]
  rw [if_neg onto]
  split
  next under =>
    -- Under a file nothing stands, neither before the move nor after it.
    obtain ⟨rest, rfl⟩ := under
    have ne : target ++ rest ≠ source := fun same => apart' ⟨rest, same⟩
    have below : source ++ rest ≠ source := fun same => onto (by simpa using same)
    rw [List.drop_left, if_neg ne, empty _ ⟨rest, rfl⟩ onto,
      proper.eq_none_below file ⟨rest, rfl⟩ below]
  next away =>
    by_cases from' : p = source
    · rw [from', if_pos List.prefix_rfl, if_pos rfl]
    · rw [if_neg from']
      split
      next under => rw [proper.eq_none_below file under from']
      next => rfl

/-- A tree stays proper when something is moved into a directory. -/
theorem IsProper.move {tree : FileTree} {entry : Entry} (proper : tree.IsProper)
    (below : source ≠ []) (free : tree.moveObstacle source entry target (tree.get? target) = none)
    (parent : Position) (name : String) (shape : target = parent ++ [name])
    (directory : tree.get? parent = some .directory) : (tree.move source target).IsProper := by
  obtain ⟨apart, apart', empty⟩ := apart_of_moveObstacle proper free
  have below' : target ≠ [] := by simp [shape]
  have moved := tree.get?_move below below' apart empty
  -- What is moved is kept in its own directories, and the first of them in the target's.
  intro p last there
  rw [moved] at there ⊢
  by_cases under : target <+: p
  · have further : target <+: p ++ [last] := under.trans (List.prefix_append p [last])
    obtain ⟨rest, rfl⟩ := under
    rw [if_pos further, List.append_assoc, List.drop_left, ← List.append_assoc] at there
    rw [if_pos (List.prefix_append target rest), List.drop_left]
    exact proper _ last there
  rw [if_neg under]
  by_cases onto : target = p ++ [last]
  · obtain ⟨rfl, _⟩ := List.append_inj' (shape.symm.trans onto) rfl
    have beside : ¬source <+: parent := fun under =>
      apart (under.trans (shape ▸ List.prefix_append parent [name]))
    rw [if_neg beside, directory]
  · have away : ¬target <+: p ++ [last] := fun prefix' =>
      (List.prefix_concat_iff.mp prefix').elim onto under
    rw [if_neg away] at there
    split at there
    next => exact absurd rfl there
    next beside =>
      have beside' : ¬source <+: p := fun under =>
        beside (under.trans (List.prefix_append p [last]))
      rw [if_neg beside']
      exact proper p last there

end FileTree

open FileTree

namespace Storage

variable {tree moved : FileTree} {temp destination : Path}

/-- A replacement succeeds where each of its steps does. -/
theorem replace_eq_ok_iff : replace tree temp destination = (moved, .ok ()) ↔
    ∃ present cleared, tree.doesExist destination = .ok present ∧
      (if present then tree.unlink destination else .ok tree) = .ok cleared ∧
      cleared.rename temp destination = .ok moved := by
  constructor
  · intro ok
    unfold replace at ok
    split at ok
    next next steps =>
      -- Three questions are asked of the trees in turn, and any other answer is an error.
      obtain rfl : next = moved := (Prod.mk.inj ok).1
      unfold replaceSteps at steps
      cases there : tree.doesExist destination with
      | error e =>
        rw [there] at steps
        cases steps
      | ok present =>
        rw [there] at steps
        dsimp only at steps
        split at steps
        · cases steps
        next cleared clears =>
          split at steps
          · cases steps
          next renamed =>
            cases steps
            exact ⟨present, cleared, rfl, clears, renamed⟩
    next => split at ok <;> cases ok
  · rintro ⟨present, cleared, there, clears, renamed⟩
    rw [replace, replaceSteps, there]
    dsimp only
    rw [clears]
    dsimp only
    rw [renamed]

/-- Nothing is left where a place has been cleared for a file. -/
theorem entry_of_cleared (resolved : tree.Resolved destination) {present : Bool}
    {cleared : FileTree} (there : tree.doesExist destination = .ok present)
    (clears : (if present then tree.unlink destination else .ok tree) = .ok cleared) :
    Edited [destination] tree cleared ∧
      ∀ entry, cleared.entry destination ≠ .ok (some entry) := by
  cases present with
  | false =>
    rw [if_neg Bool.false_ne_true] at clears
    cases clears
    refine ⟨.refl _ tree, fun entry found => ?_⟩
    -- The file would have been said to exist.
    rw [FileTree.doesExist, resolved.test_eq, tree.isUnfit_of_entry _ _ found, found] at there
    cases there
  | true =>
    rw [if_pos rfl] at clears
    refine ⟨edited_of_unlink resolved.held cleared clears, ?_⟩
    rw [resolved.held.unlink_eq] at clears
    split at clears
    · cases clears
    · cases clears
    · cases clears
    next entry other found =>
      cases clears
      have below : destination.names ≠ [] := by
        have place : tree.get? destination.names ≠ some .directory := by
          rw [← (tree.entry_ok destination _ found).1]
          exact fun same => other (Option.some.inj same)
        exact ne_nil_of_place place
      intro entry again
      rw [tree.entry_erase destination _ found below] at again
      cases again

/-- A replacement that succeeds moves what it finds to a place where nothing is left. -/
theorem replace_ok (held : tree.Held temp) (resolved : tree.Resolved destination)
    (below : temp.names ≠ []) (below' : destination.names ≠ [])
    (ok : replace tree temp destination = (moved, .ok ())) :
    temp.names ≠ destination.names ∧ ∃ cleared written, Edited [destination] tree cleared ∧
      cleared.entry destination = .ok none ∧ cleared.entry temp = .ok (some written) ∧
      moved = cleared.move temp.names destination.names := by
  obtain ⟨present, cleared, there, clears, renamed⟩ := replace_eq_ok_iff.mp ok
  obtain ⟨edited, free⟩ := entry_of_cleared resolved there clears
  obtain ⟨written, left, found, absent, moves⟩ := rename_ok (edited.links.held held)
    (edited.links.resolved resolved).held below below' moved renamed
  cases left with
  | some entry => exact absurd absent (free entry)
  | none =>
    have ne : temp.names ≠ destination.names := by
      intro same
      -- What is to be moved would have been removed just before.
      have one : temp = destination := by
        rcases temp with ⟨root, names⟩
        rcases destination with ⟨root', names'⟩
        obtain rfl : root = "/" := held.plain.root_eq
        obtain rfl : root' = "/" := resolved.plain.root_eq
        exact congrArg _ same
      exact free written (one ▸ found)
    exact ⟨ne, cleared, written, edited, absent, found, (moves ne).2⟩

end Storage

end Montage
