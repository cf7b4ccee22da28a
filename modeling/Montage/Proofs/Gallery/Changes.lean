import Montage.Proofs.Attempt
import Montage.Proofs.Gallery.Moving

/-!
# Changes to files

An operation on a file changes what stands where its path leads, and makes no directory and no link.
What a path leads to afterwards is where it led before, so a row of operations changes only what
stood where their paths led at the beginning, through whatever links.
-/
namespace Montage.FileTree

/-- A tree has the directories and the links of another one. -/
structure Covers (t u : FileTree) : Prop where
  directories : ∀ p, u.get? p = some .directory → t.get? p = some .directory
  links : ∀ p target, u.get? p = some (.link target) → t.get? p = some (.link target)

/-- A last name that is kept is reached whatever stands there. -/
theorem walk_kept_last (tree : FileTree) (links : Nat) (position : Position) (name : String)
    (isDirectory : ¬tree.get? position ≠ some .directory) (busy : ¬Path.isIdle name)
    (down : name ≠ "..") (short : ¬maxNameBytes < Text.nameSize name) :
    tree.walk .kept links position [name] =
      .ok (position ++ [name], tree.get? (position ++ [name])) := by
  rw [tree.walk_cons .kept links position name [] isDirectory busy down (by simp) short]
  cases found : tree.get? (position ++ [name]) with
  | none => rfl
  | some entry =>
    cases entry with
    | link target => rfl
    | directory | file content =>
      dsimp only
      rw [walk, found]

namespace Covers

variable {t u v : FileTree}

theorem refl (t : FileTree) : Covers t t := ⟨fun _ h => h, fun _ _ h => h⟩

theorem trans (first : Covers t u) (second : Covers u v) : Covers t v :=
  ⟨fun p h => first.directories p (second.directories p h),
    fun p target h => first.links p target (second.links p target h)⟩

/-- What a walk reaches without following a last link, or as a directory, it reaches there too. -/
theorem walk_ok (h : Covers t u) (ending : Ending) (links : Nat) (position : Position)
    (names : List String) (goal : Position) (entry : Option Entry)
    (kind : ending = .kept ∨ entry = some .directory)
    (reached : u.walk ending links position names = .ok (goal, entry)) :
    t.walk ending links position names = .ok (goal, t.get? goal) := by
  have entered {p : Position} (isDirectory : ¬u.get? p ≠ some .directory) :
      ¬t.get? p ≠ some .directory :=
    not_not.mpr (h.directories p (not_not.mp isDirectory))
  -- On its way a walk reads directories and links, and only its last step reads anything else.
  fun_induction walk u ending links position names with
  | case1 links position =>
    cases reached
    rw [walk]
  | case3 links position name rest isDirectory idle ih =>
    rw [walk, if_neg (entered isDirectory), if_pos idle]
    exact ih reached
  | case4 links position rest isDirectory busy ih =>
    rw [walk, if_neg (entered isDirectory), if_neg busy, if_pos rfl]
    exact ih reached
  | case7 links position name rest isDirectory busy down fits short next missing last =>
    rw [Except.ok.injEq, Prod.mk.injEq] at reached
    obtain ⟨rfl, rfl⟩ := reached
    obtain rfl : ending = .kept := kind.resolve_right (Option.some_ne_none _).symm
    rw [List.isEmpty_iff.mp last]
    exact t.walk_kept_last links position name (entered isDirectory) busy down short
  | case9 links position name rest isDirectory busy down fits short next target found last =>
    rw [Except.ok.injEq, Prod.mk.injEq] at reached
    obtain ⟨rfl, rfl⟩ := reached
    rw [t.walk_cons ending links position name rest (entered isDirectory) busy down fits short,
      h.links next target found]
    dsimp only
    rw [if_pos last]
  | case11 position name rest isDirectory busy down fits short next target found more links ih =>
    rw [t.walk_cons ending _ position name rest (entered isDirectory) busy down fits short,
      h.links next target found]
    dsimp only
    rw [if_neg more]
    exact ih reached
  | case12 links position name rest isDirectory busy down fits short next entry' other found ih =>
    by_cases directory : u.get? next = some .directory
    · rw [t.walk_cons ending links position name rest (entered isDirectory) busy down fits short,
        h.directories next directory]
      exact ih reached
    -- Behind what is neither a directory nor a link no name is looked up.
    · obtain rfl : rest = [] := by
        cases rest with
        | nil => rfl
        | cons name rest =>
          rw [walk, if_pos directory] at reached
          cases reached
      rw [walk, found, Except.ok.injEq, Prod.mk.injEq] at reached
      obtain ⟨rfl, rfl⟩ := reached
      obtain rfl : ending = .kept :=
        kind.resolve_right fun same => directory (found.trans same)
      exact t.walk_kept_last links position name (entered isDirectory) busy down short
  | _ => cases reached

theorem find_kept (h : Covers t u) {path : Path} {position : Position} {entry : Option Entry}
    (found : u.find .kept path = .ok (position, entry)) :
    t.find .kept path = .ok (position, t.get? position) := by
  obtain ⟨unbroken, short, walked⟩ := (u.find_eq_ok_iff .kept path _).mp found
  exact (t.find_eq_ok_iff .kept path _).mpr
    ⟨unbroken, short, h.walk_ok .kept maxLinks [] path.steps position entry (.inl rfl) walked⟩

end Covers

theorem get?_of_find_kept {tree : FileTree} {path : Path} {position : Position}
    {entry : Option Entry} (found : tree.find .kept path = .ok (position, entry)) :
    entry = tree.get? position := by
  have again := (Covers.refl tree).find_kept found
  rw [found] at again
  cases again
  rfl

/-- Trees that differ only where some paths lead, in files that have come or gone. -/
structure Changed (paths : List Path) (t u : FileTree) : Prop where
  elsewhere : ∀ p, (∀ path ∈ paths, ∀ entry, t.find .kept path ≠ .ok (p, entry)) →
    u.get? p = t.get? p
  covers : Covers t u
  proper : t.IsProper → u.IsProper

namespace Changed

variable {paths : List Path} {t u v : FileTree}

theorem refl (paths : List Path) (t : FileTree) : Changed paths t t :=
  ⟨fun _ _ => rfl, .refl t, fun proper => proper⟩

theorem trans (first : Changed paths t u) (second : Changed paths u v) : Changed paths t v := by
  refine ⟨?_, first.covers.trans second.covers, fun proper => second.proper (first.proper proper)⟩
  intro p away
  -- Where a path leads in the second tree it has led in the first.
  have away' (path : Path) (member : path ∈ paths) (entry : Option Entry) :
      u.find .kept path ≠ .ok (p, entry) :=
    fun found => away path member _ (first.covers.find_kept found)
  rw [second.elsewhere p away', first.elsewhere p away]

theorem mono {more : List Path} (h : Changed paths t u) (le : ∀ path ∈ paths, path ∈ more) :
    Changed more t u :=
  ⟨fun p away => h.elsewhere p fun path member => away path (le path member), h.covers, h.proper⟩

/-- What has become of a position: it is as before, or it has lost a file or link, or a file has
come to a directory there. -/
theorem of_positions (h : ∀ p, u.get? p = t.get? p ∨
    (∃ path ∈ paths, ∃ entry, t.find .kept path = .ok (p, entry)) ∧
      t.get? p ≠ some .directory ∧
      (u.get? p = none ∨
        (∃ content, u.get? p = some (.file content)) ∧ t.get? p.dropLast = some .directory)) :
    Changed paths t u := by
  -- Whatever has been made is a file.
  have made (p : Position) (other : u.get? p ≠ t.get? p) :
      u.get? p ≠ some .directory ∧ ∀ target, u.get? p ≠ some (.link target) := by
    rcases (h p).resolve_left other with ⟨_, _, gone | ⟨⟨content, written⟩, _⟩⟩
    · rw [gone]
      exact ⟨nofun, fun _ => nofun⟩
    · rw [written]
      exact ⟨nofun, fun _ => nofun⟩
  have kept {p : Position} (directory : t.get? p = some .directory) :
      u.get? p = some .directory := by
    rcases h p with same | ⟨_, file, _⟩
    · rw [same, directory]
    · exact absurd directory file
  refine ⟨?_, ⟨?_, ?_⟩, ?_⟩
  · intro p away
    rcases h p with same | ⟨⟨path, member, entry, found⟩, _⟩
    · exact same
    · exact absurd found (away path member entry)
  · intro p there
    by_contra other
    exact (made p fun same => other (same ▸ there)).1 there
  · intro p target there
    by_contra other
    exact (made p fun same => other (same ▸ there)).2 target there
  · intro proper p name there
    rcases h (p ++ [name]) with same | ⟨_, _, gone | ⟨_, parent⟩⟩
    · rw [same] at there
      exact kept (proper p name there)
    · exact absurd gone there
    · rw [List.dropLast_concat] at parent
      exact kept parent

end Changed

section

variable {tree : FileTree} {path : Path} {position : Position} {entry : Option Entry}

theorem unlink_ok (removed : FileTree) (ok : tree.unlink path = .ok removed) :
    ∃ position, tree.find .kept path = .ok (position, tree.get? position) ∧
      tree.get? position ≠ none ∧ tree.get? position ≠ some .directory ∧
      removed = tree.erase position := by
  obtain ⟨⟨position, entry⟩, found, ok⟩ := Except.bind_eq_ok_iff.mp ok
  have here := get?_of_find_kept found
  cases entry with
  | none => cases ok
  | some entry =>
    refine ⟨position, by rw [found, here], by rw [← here]; exact nofun, ?_, ?_⟩
    · rw [← here]
      rintro ⟨⟩
      cases ok
    · cases entry <;> cases ok <;> rfl

/-- A file or link that goes leaves all else as it is. -/
theorem changed_unlink (removed : FileTree) (ok : tree.unlink path = .ok removed) :
    Changed [path] tree removed := by
  obtain ⟨position, found, _, file, rfl⟩ := unlink_ok removed ok
  have below : position ≠ [] := by
    rintro rfl
    exact file rfl
  refine .of_positions fun p => ?_
  rw [tree.get?_erase_at position p below]
  by_cases here : p = position
  · rw [here, if_pos rfl]
    exact .inr ⟨⟨path, List.mem_cons_self, _, found⟩, file, .inl rfl⟩
  · exact .inl (if_neg here)

/-- A last name stands in a directory. -/
theorem parent_of_find_kept (plain : path.IsPlain) (below : path.names ≠ [])
    (found : tree.find .kept path = .ok (position, entry)) :
    position ≠ [] ∧ tree.get? position.dropLast = some .directory := by
  obtain ⟨_, holder, held, child⟩ := (find_kept_eq_ok_iff plain below).mp found
  obtain ⟨_, rfl, _⟩ := (tree.child_eq_ok_iff ..).mp child
  refine ⟨by simp, ?_⟩
  rw [List.dropLast_concat]
  exact ((tree.holder_eq_ok_iff path holder).mp held).2.goal_directory

/-- A write to a path at which no link stands makes or overwrites a file there. -/
theorem exists_of_write (plain : path.IsPlain) (below : path.names ≠ [])
    (unlinked : ∀ position target, tree.find .kept path ≠ .ok (position, some (.link target)))
    (content : String) (written : FileTree) (ok : tree.write path content = .ok written) :
    ∃ position, tree.find .kept path = .ok (position, tree.get? position) ∧
      tree.get? position ≠ some .directory ∧ written = tree.set position (.file content) := by
  obtain ⟨⟨position, entry⟩, found, ok⟩ := Except.bind_eq_ok_iff.mp ok
  obtain ⟨kept, there, found'⟩ := exists_kept_of_find plain below .written _ found
  have same := find_of_kept plain below .written found' fun target linked =>
    unlinked kept target (linked ▸ found')
  rw [found, Except.ok.injEq, Prod.mk.injEq] at same
  obtain ⟨rfl, rfl⟩ := same
  obtain rfl := get?_of_find_kept found'
  refine ⟨position, found', ?_, ?_⟩
  · intro directory
    rw [directory] at ok
    cases ok
  -- A new file and an overwritten one come to the same.
  · cases there : tree.get? position with
    | none =>
      rw [there] at ok
      cases ok
      rfl
    | some entry =>
      rw [there] at ok
      cases entry <;> cases ok <;> rfl

theorem changed_write (plain : path.IsPlain) (below : path.names ≠ [])
    (unlinked : ∀ position target, tree.find .kept path ≠ .ok (position, some (.link target)))
    (content : String) (written : FileTree) (ok : tree.write path content = .ok written) :
    Changed [path] tree written := by
  obtain ⟨position, found, file, rfl⟩ := exists_of_write plain below unlinked content written ok
  obtain ⟨nonempty, parent⟩ := parent_of_find_kept plain below found
  refine .of_positions fun p => ?_
  rw [tree.get?_set_at position p (.file content) nonempty]
  by_cases here : p = position
  · rw [here, if_pos rfl]
    exact .inr ⟨⟨path, List.mem_cons_self, _, found⟩, file, .inr ⟨⟨content, rfl⟩, parent⟩⟩
  · exact .inl (if_neg here)

/-- A file that is moved leaves its place for another one. -/
theorem changed_rename {source target : Path} (sourcePlain : source.IsPlain)
    (sourceBelow : source.names ≠ []) (targetPlain : target.IsPlain)
    (targetBelow : target.names ≠ []) (proper : tree.IsProper)
    (file : ∀ position entry, tree.find .kept source = .ok (position, some entry) →
      ∃ content, entry = .file content) (moved : FileTree)
    (ok : tree.rename source target = .ok moved) : Changed [source, target] tree moved := by
  obtain ⟨start, goal, entry, found, found', ⟨_, rfl⟩ | ⟨_, free, rfl⟩⟩ :=
    exists_of_rename sourcePlain sourceBelow targetPlain targetBelow moved ok
  · exact .refl _ _
  obtain ⟨content, rfl⟩ := file start entry found
  have here := get?_of_find_kept found
  have notDirectory : tree.get? start ≠ some .directory := by
    rw [← here]
    exact nofun
  have place := place_of_moveObstacle start goal (.file content) (tree.get? goal) nofun free
  obtain ⟨_, parent⟩ := parent_of_find_kept targetPlain targetBelow found'
  -- The target gets the file, the source loses it, and nothing else has been under either.
  refine .of_positions fun p => ?_
  rw [tree.get?_move_file proper notDirectory place free p]
  by_cases onto : p = goal
  · rw [onto, if_pos rfl, ← here]
    exact .inr ⟨⟨target, List.mem_cons_of_mem _ List.mem_cons_self, _, found'⟩, place,
      .inr ⟨⟨content, rfl⟩, parent⟩⟩
  rw [if_neg onto]
  by_cases from' : p = start
  · rw [from', if_pos rfl]
    exact .inr ⟨⟨source, List.mem_cons_self, _, found⟩, notDirectory, .inl rfl⟩
  · exact .inl (if_neg from')

end

end Montage.FileTree
