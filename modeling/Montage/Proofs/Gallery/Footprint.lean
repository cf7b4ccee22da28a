import Montage.Proofs.Gallery.Errand
import Montage.Proofs.Gallery.Moving

/-!
# Footprints

Each file operation is an errand. One that makes, overwrites or deletes a single file looks at the
trail of its path and changes the end of it; a move looks at the trails of both its directories, and
at all that it moves or replaces.
-/
namespace Montage

open FileTree

namespace FileTree

variable {tree : FileTree}

/-- The tree with an entry at a position, or without one. -/
def put (tree : FileTree) (position : Position) : Option Entry → FileTree
  | none => tree.erase position
  | some entry => tree.set position entry

theorem get?_put (tree : FileTree) {position : Position} (below : position ≠ [])
    (entry : Option Entry) (p : Position) :
    (tree.put position entry).get? p = if p = position then entry else tree.get? p := by
  cases entry with
  | none => exact get?_erase_at tree position p below
  | some entry => exact get?_set_at tree position p entry below

/-- A tree stays proper when what is no directory goes or gives way to something else. -/
theorem IsProper.put (proper : tree.IsProper) {position : Position}
    (other : tree.get? position ≠ some .directory) (entry : Option Entry)
    (parent : tree.get? position = none →
      ∃ parent name, position = parent ++ [name] ∧ tree.get? parent = some .directory) :
    (tree.put position entry).IsProper := by
  have below := ne_nil_of_place other
  intro p name there
  rw [tree.get?_put below] at there ⊢
  -- What stands in a directory stands in one still: at the position itself by its parent, and
  -- elsewhere because the parent is a directory and so is not the position.
  have directory : tree.get? p = some .directory := by
    by_cases here : p ++ [name] = position
    · cases found : tree.get? position with
      | some old => exact proper p name (by rw [here, found]; exact Option.some_ne_none _)
      | none =>
        obtain ⟨parent, last, shape, directory⟩ := parent found
        obtain ⟨rfl, _⟩ := List.append_inj' (here.trans shape) rfl
        exact directory
    · rw [if_neg here] at there
      exact proper p name there
  have elsewhere : p ≠ position := by
    rintro rfl
    exact other directory
  rw [if_neg elsewhere, directory]

/-- The tree with another entry where a path leads, decided by what is there. -/
def edit (ending : Ending) (path : Path) (choose : Option Entry → Except FileError (Option Entry))
    (tree : FileTree) : Except FileError FileTree := do
  let (position, present) ← tree.find ending path
  let entry ← choose present
  .ok (tree.put position entry)

/-- An edit replaces what stands at the position that its path leads to. -/
theorem exists_of_edit {ending : Ending} {path : Path}
    {choose : Option Entry → Except FileError (Option Entry)} {next : FileTree}
    (done : tree.edit ending path choose = .ok next) : ∃ position entry,
      tree.find ending path = .ok (position, tree.get? position) ∧
        choose (tree.get? position) = .ok entry ∧ next = tree.put position entry := by
  obtain ⟨⟨position, present⟩, found, done⟩ := Except.bind_eq_ok_iff.mp done
  obtain ⟨entry, chosen, done⟩ := Except.bind_eq_ok_iff.mp done
  cases done
  obtain ⟨_, here, _⟩ := find_ok found
  exact ⟨position, entry, by rw [found, here], by rw [← here]; exact chosen, rfl⟩

/-- Where a path leads. -/
def goals (ending : Ending) (path : Path) (tree : FileTree) : Set Position :=
  {p | ∃ present, tree.find ending path = .ok (p, present)}

/-- An edit that spares directories looks at the trail of its path, and changes the end of it. -/
theorem operates_edit {ending : Ending} {path : Path}
    {choose : Option Entry → Except FileError (Option Entry)}
    (spares : ∀ entry, choose (some .directory) ≠ .ok entry) :
    Errand.Operates (·.findTrail ending path) (goals ending path)
      (·.edit ending path choose) where
  within tree p := by
    rintro ⟨present, found⟩
    exact (find_ok found).1
  done tree next proper came := by
    obtain ⟨position, entry, found, chosen, rfl⟩ := exists_of_edit came
    have other : tree.get? position ≠ some .directory := by
      intro directory
      rw [directory] at chosen
      exact spares entry chosen
    -- The end of the walk is no directory, so to edit it takes no place from anything below it.
    obtain ⟨_, _, parent⟩ := find_ok found
    refine ⟨proper.put other entry fun missing => parent proper missing, ?_⟩
    intro p away
    rw [tree.get?_put (ne_nil_of_place other), if_neg]
    rintro rfl
    exact away ⟨_, found⟩
  same t u agree := by
    obtain ⟨found, passed⟩ := find_eq_of_trail ending path agree
    refine ⟨passed, ?_⟩
    unfold goals
    rw [found]
  failed t u agree e came := by
    obtain ⟨found, _⟩ := find_eq_of_trail ending path agree
    rw [edit] at came ⊢
    rw [found]
    rcases Except.bind_eq_error_iff.mp came with lost | ⟨⟨position, present⟩, reached, came⟩
    · rw [lost]
      rfl
    · rw [reached]
      rcases Except.bind_eq_error_iff.mp came with refused | ⟨_, _, came⟩
      · dsimp only [bind, Except.bind]
        rw [refused]
      · cases came
  succeeded t u _ _ agree next came := by
    obtain ⟨position, entry, found, chosen, rfl⟩ := exists_of_edit came
    have other : t.get? position ≠ some .directory := by
      intro directory
      rw [directory] at chosen
      exact spares entry chosen
    have below := ne_nil_of_place other
    refine ⟨u.put position entry, ?_, ?_⟩
    · rw [edit, (find_eq_of_trail ending path agree).1, found]
      dsimp only [bind, Except.bind]
      rw [chosen]
    · intro p looked
      rw [t.get?_put below, u.get?_put below, agree p looked]

/-- What deleting, writing and making a directory leave in place of what is at a path. -/
def unlinked (path : Path) : Option Entry → Except FileError (Option Entry)
  | none => fail .noEntry path
  | some .directory => fail .isDirectory path
  | some _ => .ok none

def overwritten (path : Path) (content : String) : Option Entry → Except FileError (Option Entry)
  | some .directory => fail .isDirectory path
  | _ => .ok (some (.file content))

def madeDirectory (path : Path) : Option Entry → Except FileError (Option Entry)
  | some _ => fail .alreadyExists path
  | none => .ok (some .directory)

theorem unlink_eq_edit (path : Path) (tree : FileTree) :
    tree.unlink path = tree.edit .kept path (unlinked path) := by
  rw [FileTree.unlink, edit]
  congr 1
  funext found
  obtain ⟨position, present⟩ := found
  rcases present with _ | _ | _ | _ <;> rfl

theorem write_eq_edit (path : Path) (content : String) (tree : FileTree) :
    tree.write path content = tree.edit .written path (overwritten path content) := by
  rw [FileTree.write, edit]
  congr 1
  funext found
  obtain ⟨position, present⟩ := found
  rcases present with _ | _ | _ | _ <;> rfl

theorem makeDirectory_eq_edit (path : Path) (tree : FileTree) :
    tree.makeDirectory path = tree.edit .kept path (madeDirectory path) := by
  rw [FileTree.makeDirectory, edit]
  congr 1
  funext found
  obtain ⟨position, present⟩ := found
  rcases present with _ | _ | _ | _ <;> rfl

/-- The positions that a move may change: all from the last step of one of its paths on. -/
def places (source target : Path) (tree : FileTree) : Set Position :=
  {p | ∃ path holder, (path = source ∨ path = target) ∧ tree.holder path = .ok holder ∧
    holder ++ [path.lastStep] <+: p}

/-- The positions that a move looks at. -/
def renameTrail (source target : Path) (tree : FileTree) : Set Position :=
  tree.holderTrail source ∪ tree.holderTrail target ∪ places source target tree

/-- A move looks at all that stands under its source. -/
theorem mem_places_source {source target : Path} {holder p : Position}
    (held : tree.holder source = .ok holder) (under : holder ++ [source.lastStep] <+: p) :
    p ∈ places source target tree := ⟨source, holder, .inl rfl, held, under⟩

/-- A move looks at all that stands under its target. -/
theorem mem_places_target {source target : Path} {holder p : Position}
    (held : tree.holder target = .ok holder) (under : holder ++ [target.lastStep] <+: p) :
    p ∈ places source target tree := ⟨target, holder, .inr rfl, held, under⟩

theorem hasChildren_eq_of_agree {t u : FileTree} {looks : Set Position} {position : Position}
    (agree : AgreeOn looks t u) (all : ∀ p, position <+: p → p ∈ looks) :
    u.hasChildren position = t.hasChildren position := by
  rw [Bool.eq_iff_iff, ← not_iff_not, Bool.not_eq_true, Bool.not_eq_true,
    hasChildren_eq_false_iff, hasChildren_eq_false_iff]
  refine forall_congr' fun q => forall_congr' fun below => ?_
  rw [agree q (all q below)]

/-- What is in the way of a move is seen under the target. -/
theorem moveObstacle_eq_of_agree {t u : FileTree} {looks : Set Position} {source target : Position}
    (entry : Entry) (present : Option Entry) (agree : AgreeOn looks t u)
    (all : ∀ p, target <+: p → p ∈ looks) :
    u.moveObstacle source entry target present = t.moveObstacle source entry target present := by
  unfold moveObstacle
  rw [hasChildren_eq_of_agree agree all]

/-- Where the trees agree along its trail, a move looks at the same places. -/
theorem places_eq_of_trail {t u : FileTree} (source target : Path)
    (agree : AgreeOn (renameTrail source target t) t u) :
    u.holder source = t.holder source ∧ u.holder target = t.holder target ∧
      renameTrail source target u = renameTrail source target t ∧
      places source target u = places source target t := by
  obtain ⟨held, passed⟩ := holder_eq_of_trail source
    (agree.mono (Set.subset_union_left.trans Set.subset_union_left))
  obtain ⟨held', passed'⟩ := holder_eq_of_trail target
    (agree.mono (Set.subset_union_right.trans Set.subset_union_left))
  -- The places lie under the two holders, which are found again in the other tree.
  have same : places source target u = places source target t := by
    ext p
    refine exists_congr fun path => exists_congr fun holder => and_congr_right fun one => ?_
    rcases one with rfl | rfl
    · rw [held]
    · rw [held']
  refine ⟨held, held', ?_, same⟩
  rw [renameTrail, renameTrail, passed, passed', same]

/-- What a move comes to once both directories have been found. -/
theorem moved_of_holders {source target : Path} {holder holder' : Position}
    (held : tree.holder source = .ok holder) (held' : tree.holder target = .ok holder') :
    tree.moved source target =
      let start := holder ++ [source.lastStep]
      let goal := holder' ++ [target.lastStep]
      if !source.isHeld || !target.isHeld then .error .busy
      else if maxNameBytes < Text.nameSize source.lastStep then .error .nameTooLong
      else
        match tree.get? start with
        | none => .error .noEntry
        | some entry =>
          if maxNameBytes < Text.nameSize target.lastStep then .error .nameTooLong
          else if start = goal then .ok tree
          else
            match tree.moveObstacle start entry goal (tree.get? goal) with
            | some e => .error e
            | none => .ok (tree.move start goal) := by
  rw [moved, held, held']
  dsimp only [bind, Except.bind]
  split
  · rfl
  unfold child
  -- The look-ups of both last names can only fail for their length.
  by_cases long : maxNameBytes < Text.nameSize source.lastStep
  · rw [if_pos long, if_pos long]
  rw [if_neg long, if_neg long]
  dsimp only
  cases tree.get? (holder ++ [source.lastStep]) with
  | none => rfl
  | some entry =>
    by_cases long' : maxNameBytes < Text.nameSize target.lastStep
    · simp only [if_pos long']
    · rw [if_neg long']
      exact (if_neg long').symm

/-- A move fails alike, or moves between the same positions, on trees that agree where it looks. -/
theorem rename_of_trail {t u : FileTree} (source target : Path)
    (agree : AgreeOn (renameTrail source target t) t u) :
    (∃ e, t.rename source target = .error e ∧ u.rename source target = .error e) ∨
      (t.rename source target = .ok t ∧ u.rename source target = .ok u) ∨
      ∃ holder holder' entry, t.holder source = .ok holder ∧ t.holder target = .ok holder' ∧
        t.moveObstacle (holder ++ [source.lastStep]) entry (holder' ++ [target.lastStep])
          (t.get? (holder' ++ [target.lastStep])) = none ∧
        t.rename source target =
          .ok (t.move (holder ++ [source.lastStep]) (holder' ++ [target.lastStep])) ∧
        u.rename source target =
          .ok (u.move (holder ++ [source.lastStep]) (holder' ++ [target.lastStep])) := by
  obtain ⟨same, same', _, _⟩ := places_eq_of_trail source target agree
  -- The checks of a move are made one after the other, and each comes out alike on both trees.
  have looked : AgreeOn (places source target t) t u := agree.mono Set.subset_union_right
  unfold rename
  split
  · exact .inl ⟨_, rfl, rfl⟩
  split
  · exact .inl ⟨_, rfl, rfl⟩
  cases held : t.holder source with
  | error e =>
    rw [moved, moved, same, held]
    exact .inl ⟨_, rfl, rfl⟩
  | ok holder =>
    cases held' : t.holder target with
    | error e =>
      rw [moved, moved, same, same', held, held']
      exact .inl ⟨_, rfl, rfl⟩
    | ok holder' =>
      rw [moved_of_holders held held', moved_of_holders (same.trans held) (same'.trans held')]
      dsimp only
      rw [looked _ (mem_places_source held List.prefix_rfl),
        looked _ (mem_places_target held' List.prefix_rfl)]
      by_cases busy : (!source.isHeld || !target.isHeld) = true
      · simp only [if_pos busy]
        exact .inl ⟨_, rfl, rfl⟩
      by_cases long : maxNameBytes < Text.nameSize source.lastStep
      · simp only [if_neg busy, if_pos long]
        exact .inl ⟨_, rfl, rfl⟩
      simp only [if_neg busy, if_neg long]
      cases t.get? (holder ++ [source.lastStep]) with
      | none => exact .inl ⟨_, rfl, rfl⟩
      | some entry =>
        by_cases long' : maxNameBytes < Text.nameSize target.lastStep
        · simp only [if_pos long']
          exact .inl ⟨_, rfl, rfl⟩
        by_cases still : holder ++ [source.lastStep] = holder' ++ [target.lastStep]
        · simp only [if_neg long', if_pos still]
          exact .inr (.inl ⟨trivial, trivial⟩)
        simp only [if_neg long', if_neg still]
        rw [moveObstacle_eq_of_agree entry _ looked fun p under => mem_places_target held' under]
        cases free : t.moveObstacle (holder ++ [source.lastStep]) entry
            (holder' ++ [target.lastStep]) (t.get? (holder' ++ [target.lastStep])) with
        | some e => exact .inl ⟨_, rfl, rfl⟩
        | none => exact .inr (.inr ⟨holder, holder', entry, rfl, rfl, free, rfl, rfl⟩)

/-- What stands where a move looks goes to the same places in trees that agree there. -/
theorem AgreeOn.move {t u : FileTree} {source target : Path} {holder holder' : Position}
    {entry : Entry} (agree : AgreeOn (renameTrail source target t) t u) (properT : t.IsProper)
    (properU : u.IsProper) (held : t.holder source = .ok holder)
    (held' : t.holder target = .ok holder')
    (free : t.moveObstacle (holder ++ [source.lastStep]) entry (holder' ++ [target.lastStep])
      (t.get? (holder' ++ [target.lastStep])) = none) :
    AgreeOn (renameTrail source target t)
      (t.move (holder ++ [source.lastStep]) (holder' ++ [target.lastStep]))
      (u.move (holder ++ [source.lastStep]) (holder' ++ [target.lastStep])) := by
  have looked : AgreeOn (places source target t) t u := agree.mono Set.subset_union_right
  have free' : u.moveObstacle (holder ++ [source.lastStep]) entry (holder' ++ [target.lastStep])
      (u.get? (holder' ++ [target.lastStep])) = none := by
    rw [looked _ (mem_places_target held' List.prefix_rfl),
      moveObstacle_eq_of_agree entry _ looked fun p under => mem_places_target held' under, free]
  obtain ⟨apart, _, empty⟩ := apart_of_moveObstacle properT free
  obtain ⟨_, _, empty'⟩ := apart_of_moveObstacle properU free'
  intro p member
  rw [t.get?_move (by simp) (by simp) apart empty, u.get?_move (by simp) (by simp) apart empty',
    looked _ (mem_places_source held (List.prefix_append _ _)), agree p member]

/-- A move looks at the trails of both its directories and at all that it moves or replaces. -/
theorem operates_rename (source target : Path) :
    Errand.Operates (renameTrail source target) (places source target)
      (·.rename source target) where
  within tree := Set.subset_union_right
  done tree next proper came := by
    -- What a move comes to on one tree is read off the statement about two, both of them this one.
    have self : AgreeOn (renameTrail source target tree) tree tree := fun _ _ => rfl
    rcases rename_of_trail source target self with
      ⟨e, failed, _⟩ | ⟨still, _⟩ | ⟨holder, holder', entry, held, held', free, done, _⟩
    · rw [failed] at came
      cases came
    · rw [still] at came
      cases came
      exact ⟨proper, fun _ _ => rfl⟩
    · rw [done] at came
      cases came
      have directory := ((tree.holder_eq_ok_iff target holder').mp held').2.goal_directory
      refine ⟨proper.move (by simp) free holder' _ rfl directory, ?_⟩
      intro p away
      obtain ⟨apart, _, empty⟩ := apart_of_moveObstacle proper free
      rw [tree.get?_move (by simp) (by simp) apart empty,
        if_neg fun under => away (mem_places_target held' under),
        if_neg fun under => away (mem_places_source held under)]
  same t u agree := (places_eq_of_trail source target agree).2.2
  failed t u agree e came := by
    rcases rename_of_trail source target agree with
      ⟨e', failed, failed'⟩ | ⟨still, _⟩ | ⟨_, _, _, _, _, _, done, _⟩
    · rw [failed] at came
      cases came
      exact failed'
    · rw [still] at came
      cases came
    · rw [done] at came
      cases came
  succeeded t u properT properU agree next came := by
    rcases rename_of_trail source target agree with
      ⟨e, failed, _⟩ | ⟨still, still'⟩ | ⟨holder, holder', entry, held, held', free, done, done'⟩
    · rw [failed] at came
      cases came
    · rw [still] at came
      cases came
      exact ⟨u, still', agree⟩
    · rw [done] at came
      cases came
      exact ⟨_, done', agree.move properT properU held held' free⟩

end FileTree

namespace Errand

/-- A file or a link deleted. -/
def unlink (path : Path) : Errand (Except FileError Unit) :=
  alter (·.findTrail .kept path) (goals .kept path) (·.unlink path)

/-- A file made or overwritten. -/
def write (path : Path) (content : String) : Errand (Except FileError Unit) :=
  alter (·.findTrail .written path) (goals .written path) (·.write path content)

def makeDirectory (path : Path) : Errand (Except FileError Unit) :=
  alter (·.findTrail .kept path) (goals .kept path) (·.makeDirectory path)

/-- An operation is local if it is an edit that spares directories. -/
theorem isLocal_edit {ending : Ending} {path : Path}
    {operation : FileTree → Except FileError FileTree}
    {choose : Option Entry → Except FileError (Option Entry)}
    (edits : ∀ tree, operation tree = tree.edit ending path choose)
    (spares : ∀ entry, choose (some .directory) ≠ .ok entry) :
    IsLocal (alter (·.findTrail ending path) (goals ending path) operation) := by
  rw [funext edits]
  exact isLocal_alter (operates_edit spares)

theorem isLocal_unlink (path : Path) : IsLocal (unlink path) :=
  isLocal_edit (unlink_eq_edit path) fun _ => nofun

theorem isLocal_write (path : Path) (content : String) : IsLocal (write path content) :=
  isLocal_edit (write_eq_edit path content) fun _ => nofun

theorem isLocal_makeDirectory (path : Path) : IsLocal (makeDirectory path) :=
  isLocal_edit (makeDirectory_eq_edit path) fun _ => nofun

/-- What stands at one path moved to another one. -/
def rename (source target : Path) : Errand (Except FileError Unit) :=
  alter (renameTrail source target) (places source target) (·.rename source target)

theorem isLocal_rename (source target : Path) : IsLocal (rename source target) :=
  isLocal_alter (operates_rename source target)

def doesExist (path : Path) : Errand (Except FileError Bool) :=
  ask (·.findTrail .followed path) (·.doesExist path)

theorem isLocal_doesExist (path : Path) : IsLocal (doesExist path) :=
  isLocal_ask fun _ _ agree =>
    ⟨test_eq_of_trail _ path agree, (find_eq_of_trail .followed path agree).2⟩

def content? (path : Path) : Errand (Option String) :=
  ask (·.findTrail .followed path) (·.content? path)

theorem isLocal_content? (path : Path) : IsLocal (content? path) :=
  isLocal_ask fun _ _ agree =>
    ⟨content?_eq_of_trail path agree, (find_eq_of_trail .followed path agree).2⟩

theorem decides_isDirectory (path : Path) :
    Decides (·.findTrail .followed path) (·.isDirectory path) := fun _ _ agree =>
  ⟨test_eq_of_trail _ path agree, (find_eq_of_trail .followed path agree).2⟩

end Errand

namespace Storage

open Errand

variable (s : Storage)

/-- The positions that are looked at while a path in the gallery is resolved. -/
def resolveTrail (path : Path) (tree : FileTree) : Set Position :=
  tree.resolveTrail (s.root.join path)

/-- What a path resolves to is decided along its trail. -/
theorem decides_resolve (path : Path) (shown : String) :
    Decides (s.resolveTrail path) (s.resolve · path shown) := by
  intro t u agree
  obtain ⟨resolved, looked⟩ := resolve_eq_of_trail (s.root.join path) agree
  unfold Storage.resolve
  dsimp only
  rw [resolved]
  exact ⟨rfl, looked⟩

/-- The positions that are looked at for an output file. -/
def fileTrail (path : Path) (shown : String) (tree : FileTree) : Set Position :=
  s.resolveTrail path tree ∪
    {p | ∃ full, s.resolve tree path shown = .ok full ∧
      p ∈ if full = s.root then ∅ else tree.findTrail .followed full}

theorem decides_fileDestination (path : Path) (shown : String) :
    Decides (s.fileTrail path shown) (s.fileDestination · path shown) := by
  refine (s.decides_resolve path shown).bind fun full => ?_
  split
  · exact decides_const _
  next below =>
    intro t u agree
    obtain ⟨asked, looked⟩ := decides_isDirectory full t u agree
    dsimp only at asked ⊢
    rw [asked]
    exact ⟨rfl, looked⟩

/-- The positions that are looked at for the output file of a request. -/
def destinationTrail (path : String) (newName : Option String) (tree : FileTree) : Set Position :=
  s.fileTrail (Path.ofString path) path tree ∪
    {p | ∃ full, s.fileDestination tree (Path.ofString path) path = .ok full ∧ p ∈
      match newName with
      | none => ∅
      | some name =>
        if name.isEmpty || name = full.name then ∅
        else
          let relative := (full.relativeTo? s.root).getD ⟨"", []⟩
          let renamed := relative.parent.join (Path.ofString name)
          s.fileTrail renamed renamed.text tree}

/-- So is the destination of a request. -/
theorem decides_destination (path : String) (newName : Option String) :
    Decides (s.destinationTrail path newName) (s.destination · path newName) := by
  refine (s.decides_fileDestination (Path.ofString path) path).bind fun full => ?_
  cases newName with
  | none => exact decides_const (Except.ok full)
  | some name =>
    dsimp only
    split
    · exact decides_const (Except.ok full)
    · exact s.decides_fileDestination _ _

end Storage
end Montage
