import Montage.Proofs.Gallery.Likeness

/-!
# Walks in parts

A walk along names is a walk along the first of them, to a directory, and then one along the rest.
A position that no directory can be entered at is passed by no walk to a directory, so such a walk
does not depend on what stands there. A move looks both its paths up in this way.
-/
namespace Montage.FileTree

/-- Names lead to a directory. -/
def Enters (tree : FileTree) (links : Nat) (position : Position) (names : List String)
    (goal : Position) : Prop :=
  tree.walk .followed links position names = .ok (goal, some .directory)

theorem Enters.directory {tree : FileTree} {links : Nat} {position : Position}
    {names : List String} {goal : Position} (h : tree.Enters links position names goal) :
    tree.get? position = some .directory := by
  by_contra other
  have answer := tree.isDirectoryAt_walk_of_ne .followed links position names other
  rw [h] at answer
  simp [isDirectoryAt] at answer

theorem Enters.goal_directory {tree : FileTree} {links : Nat} {position : Position}
    {names : List String} {goal : Position} (h : tree.Enters links position names goal) :
    tree.get? goal = some .directory := by
  unfold Enters at h
  -- The walk ends where its names do, or goes on. Where its last name is missing there is no goal.
  fun_induction walk tree .followed links position names with
  | case1 links position =>
    rw [Except.ok.injEq, Prod.mk.injEq] at h
    rw [← h.1, h.2]
  | case3 links position name rest isDirectory idle ih => exact ih h
  | case4 links position rest isDirectory busy ih => exact ih h
  | case7 links position name rest isDirectory busy down fits short next missing last =>
    simp at h
  | case9 links position name rest isDirectory busy down fits short next target found last =>
    simp at h
  | case11 position name rest isDirectory busy down fits short next target found more links ih =>
    exact ih h
  | case12 links position name rest isDirectory busy down fits short next entry other found ih =>
    exact ih h
  | _ => cases h

/-- A walk goes on from the directory that the first names lead to, or fails with them. -/
theorem walk_append (tree : FileTree) (ending : Ending) (links : Nat) (position : Position)
    (front back : List String) (nonempty : back ≠ [])
    (slashless : ending = .written → back.all String.isEmpty = false) :
    (∃ goal left, tree.Enters links position front goal ∧
      tree.walk ending links position (front ++ back) = tree.walk ending left goal back) ∨
    (∃ e, tree.walk ending links position (front ++ back) = .error e) ∧
      ∀ goal, ¬tree.Enters links position front goal := by
  unfold Enters
  -- The names that follow are never at an end, so nothing on the way is taken for the last.
  have fits {rest : List String} : ¬(decide (ending = .written) && !(rest ++ back).isEmpty &&
      (rest ++ back).all String.isEmpty) = true := by
    intro closed
    simp only [Bool.and_eq_true, decide_eq_true_eq, List.all_append] at closed
    rw [slashless closed.1.1] at closed
    exact Bool.false_ne_true closed.2.2
  have onward (rest : List String) : (rest ++ back).isEmpty = false := by
    simp [nonempty]
  -- The longer walk does what the shorter one does, up to where that one is at its end.
  fun_induction walk tree .followed links position front with
  | case1 links position =>
    by_cases directory : tree.get? position = some .directory
    · exact .inl ⟨position, links, by rw [directory], rfl⟩
    · refine .inr ⟨?_, fun goal same => ?_⟩
      · obtain ⟨name, rest, rfl⟩ := List.exists_cons_of_ne_nil nonempty
        rw [List.nil_append, walk, if_pos directory]
        exact ⟨_, rfl⟩
      · rw [Except.ok.injEq, Prod.mk.injEq] at same
        exact directory same.2
  | case2 links position name rest other =>
    rw [List.cons_append, walk, if_pos other]
    exact .inr ⟨⟨_, rfl⟩, fun _ reached => by cases reached⟩
  | case3 links position name rest isDirectory idle ih =>
    rw [List.cons_append, walk, if_neg isDirectory, if_pos idle]
    exact ih
  | case4 links position rest isDirectory busy ih =>
    rw [List.cons_append, walk, if_neg isDirectory, if_neg busy, if_pos rfl]
    exact ih
  | case5 links position name rest isDirectory busy down slashed => simp at slashed
  | case6 links position name rest isDirectory busy down free long =>
    rw [List.cons_append, walk, if_neg isDirectory, if_neg busy, if_neg down, if_neg fits,
      if_pos long]
    exact .inr ⟨⟨_, rfl⟩, fun _ reached => by cases reached⟩
  | case7 links position name rest isDirectory busy down free short next missing
  | case8 links position name rest isDirectory busy down free short next missing =>
    -- A missing name ends both walks: the shorter one finds no directory, the longer one fails.
    rw [List.cons_append, tree.walk_cons ending links position name _ isDirectory busy down fits
      short, missing]
    simp only [onward, Bool.false_eq_true, if_false]
    exact .inr ⟨⟨_, rfl⟩, fun goal => by simp⟩
  | case9 links position name rest isDirectory busy down free short next target found last =>
    simp at last
  | case10 position name rest isDirectory busy down free short next target found more =>
    rw [List.cons_append, tree.walk_cons ending 0 position name _ isDirectory busy down fits
      short, found]
    simp only [onward, Bool.false_and, Bool.false_eq_true, if_false]
    exact .inr ⟨⟨_, rfl⟩, fun _ reached => by cases reached⟩
  | case11 position name rest isDirectory busy down free short next target found more links ih =>
    rw [List.cons_append, tree.walk_cons ending (links + 1) position name _ isDirectory busy down
      fits short, found]
    simp only [onward, Bool.false_and, Bool.false_eq_true, if_false, ← List.append_assoc]
    exact ih
  | case12 links position name rest isDirectory busy down free short next entry other found ih =>
    rw [List.cons_append, tree.walk_cons ending links position name _ isDirectory busy down fits
      short, found]
    split
    next absent => cases absent
    next target same => exact absurd (Option.some.inj same) (other target)
    next => exact ih

/-- A walk that succeeds does so with more links to be followed. -/
theorem walk_mono (tree : FileTree) (ending : Ending) (links more : Nat) (position : Position)
    (names : List String) (goal : Position × Option Entry) (le : links ≤ more)
    (h : tree.walk ending links position names = .ok goal) :
    tree.walk ending more position names = .ok goal := by
  -- Both walks use up one link where one is followed, so the spare ones stay to the end.
  fun_induction walk tree ending links position names generalizing more with
  | case1 links position => rwa [walk]
  | case3 links position name rest isDirectory idle ih =>
    rw [walk, if_neg isDirectory, if_pos idle]
    exact ih more le h
  | case4 links position rest isDirectory busy ih =>
    rw [walk, if_neg isDirectory, if_neg busy, if_pos rfl]
    exact ih more le h
  | case7 links position name rest isDirectory busy down fits short next missing last =>
    rw [tree.walk_cons ending more position name rest isDirectory busy down fits short, missing]
    dsimp only
    rw [if_pos last]
    exact h
  | case9 links position name rest isDirectory busy down fits short next target found last =>
    rw [tree.walk_cons ending more position name rest isDirectory busy down fits short, found]
    dsimp only
    rw [if_pos last]
    exact h
  | case11 position name rest isDirectory busy down fits short next target found inner links ih =>
    obtain ⟨less, rfl⟩ : ∃ less, more = less + 1 := ⟨more - 1, by omega⟩
    rw [tree.walk_cons ending _ position name rest isDirectory busy down fits short, found]
    dsimp only
    rw [if_neg inner]
    exact ih less (by omega) h
  | case12 links position name rest isDirectory busy down fits short next entry other found ih =>
    rw [tree.walk_cons ending more position name rest isDirectory busy down fits short, found]
    split
    next absent => cases absent
    next target same => exact absurd (Option.some.inj same) (other target)
    next => exact ih more le h
  | _ => cases h

/-- No directory is entered at a position, be it through a link that stands there. -/
structure IsClosed (tree : FileTree) (p : Position) : Prop where
  other : tree.get? p ≠ some .directory
  link : ∀ target, tree.get? p = some (.link target) → ∀ links goal,
    ¬tree.Enters links (if target.startsWith "/" then [] else p.dropLast) (Path.pieces target) goal

/-- Names that lead to a directory lead there whatever stands where none is entered. -/
theorem Enters.of_elsewhere {t u : FileTree} {p : Position} {links : Nat} {position : Position}
    {names : List String} {goal : Position} (h : t.Enters links position names goal)
    (same : ∀ q, q ≠ p → u.get? q = t.get? q) (closed : t.IsClosed p) :
    u.Enters links position names goal := by
  have kept {q : Position} (directory : ¬t.get? q ≠ some .directory) :
      ¬u.get? q ≠ some .directory := by
    rw [not_not] at directory ⊢
    rw [same q (fun here => closed.other (here ▸ directory)), directory]
  unfold Enters at h ⊢
  -- Each step reads a directory, a link or a last name, and none of them is at the position.
  fun_induction walk t .followed links position names with
  | case1 links position =>
    rw [Except.ok.injEq, Prod.mk.injEq] at h
    rw [walk, h.1, ← h.2, not_not.mp (kept (not_not.mpr (h.1 ▸ h.2))), h.2]
  | case3 links position name rest isDirectory idle ih =>
    rw [walk, if_neg (kept isDirectory), if_pos idle]
    exact ih h
  | case4 links position rest isDirectory busy ih =>
    rw [walk, if_neg (kept isDirectory), if_neg busy, if_pos rfl]
    exact ih h
  | case7 links position name rest isDirectory busy down fits short next missing last => simp at h
  | case9 links position name rest isDirectory busy down fits short next target found last =>
    simp at h
  | case11 position name rest isDirectory busy down fits short next target found more links ih =>
    have away : next ≠ p := by
      rintro rfl
      -- The names after the link would be walked from a directory that its target leads to.
      have leads := closed.link target found links
      rw [List.dropLast_concat] at leads
      by_cases last : rest = []
      · rw [last, List.append_nil] at h
        exact leads goal h
      · rcases t.walk_append .followed links _ (Path.pieces target) rest last
            (fun written => by cases written) with
          ⟨inner, _, enters, _⟩ | ⟨⟨e, failed⟩, _⟩
        · exact leads inner enters
        · rw [failed] at h
          cases h
    rw [u.walk_cons .followed _ position name rest (kept isDirectory) busy down fits short,
      same next away, found]
    dsimp only
    rw [if_neg more]
    exact ih h
  | case12 links position name rest isDirectory busy down fits short next entry other found ih =>
    have directory : t.get? next = some .directory := Enters.directory h
    rw [u.walk_cons .followed _ position name rest (kept isDirectory) busy down fits short,
      same next (fun here => closed.other (here ▸ directory)), found]
    split
    next absent => cases absent
    next target same => exact absurd (Option.some.inj same) (other target)
    next => exact ih h
  | _ => cases h

theorem Enters.unique {tree : FileTree} {links : Nat} {position : Position} {names : List String}
    {goal other : Position} (h : tree.Enters links position names goal)
    (h' : tree.Enters links position names other) : other = goal := by
  rw [Enters, h] at h'
  cases h'
  rfl

/-- The last name of a walk, looked up in the directory before it. -/
theorem walk_single (tree : FileTree) (ending : Ending) (links : Nat) (position : Position)
    (name : String) (named : Path.IsName name)
    (directory : tree.get? position = some .directory) :
    tree.walk ending links position [name] =
      if maxNameBytes < Text.nameSize name then .error .nameTooLong
      else
        match tree.get? (position ++ [name]) with
        | some (.link target) =>
          if ending = .kept then .ok (position ++ [name], some (.link target))
          else
            match links with
            | 0 => .error .linkLoop
            | links + 1 =>
              tree.walk ending links (if target.startsWith "/" then [] else position)
                (Path.pieces target)
        | entry => .ok (position ++ [name], entry) := by
  have isDirectory : ¬tree.get? position ≠ some .directory := not_not.mpr directory
  have busy : ¬Path.isIdle name = true := by rw [named.busy]; exact nofun
  by_cases long : maxNameBytes < Text.nameSize name
  · rw [walk, if_neg isDirectory, if_neg busy, if_neg named.down, if_neg (by simp), if_pos long,
      if_pos long]
  · rw [tree.walk_cons ending links position name [] isDirectory busy named.down (by simp) long,
      if_neg long]
    cases found : tree.get? (position ++ [name]) with
    | none => rfl
    | some entry =>
      cases entry with
      | directory | file content =>
        dsimp only
        rw [walk, found]
      -- A link is where a path ends that is to be kept, and costs one of the links otherwise.
      | link target => cases ending <;> cases links <;> simp

theorem find_eq_ok_iff (tree : FileTree) (ending : Ending) (path : Path)
    (goal : Position × Option Entry) : tree.find ending path = .ok goal ↔
      path.isUnfit = false ∧ ¬maxPathBytes ≤ Text.nameSize path.text ∧
        tree.walk ending maxLinks [] path.steps = .ok goal := by
  rw [find, locate]
  by_cases null : path.isUnfit = true
  · simp [null]
  · by_cases long : maxPathBytes ≤ Text.nameSize path.text
    · simp [null, long, fail]
    · rw [if_neg null, if_neg long]
      cases tree.walk ending maxLinks [] path.steps <;> simp [null, long, fail]

theorem holder_eq_ok_iff (tree : FileTree) (path : Path) (position : Position) :
    tree.holder path = .ok position ↔ ¬maxPathBytes ≤ Text.nameSize path.text ∧
      tree.Enters maxLinks [] path.steps.dropLast position := by
  rw [holder, Enters]
  by_cases long : maxPathBytes ≤ Text.nameSize path.text
  · simp [long]
  · rw [if_neg long]
    cases tree.walk .followed maxLinks [] path.steps.dropLast with
    | error e => simp
    | ok found =>
      obtain ⟨goal, entry⟩ := found
      cases entry with
      | none => simp
      | some entry => cases entry <;> simp [long]

section

variable {tree : FileTree} {path : Path} {position : Position} {entry : Option Entry}

/-- What a path names is looked up in the directory before its last name. -/
theorem walk_of_holder (tree : FileTree) (plain : path.IsPlain) (below : path.names ≠ [])
    (ending : Ending) :
    (∃ goal left, tree.Enters maxLinks [] path.steps.dropLast goal ∧
      tree.walk ending maxLinks [] path.steps = tree.walk ending left goal [path.lastStep]) ∨
    (∃ e, tree.walk ending maxLinks [] path.steps = .error e) ∧
      ∀ goal, ¬tree.Enters maxLinks [] path.steps.dropLast goal := by
  have named := plain.isName_lastStep below
  have shape : path.steps.dropLast ++ [path.lastStep] = path.steps := by
    rw [plain.steps_eq, plain.dropLast_append_lastStep below]
  have parts := tree.walk_append ending maxLinks [] path.steps.dropLast [path.lastStep] nofun
    (by simp [named.isEmpty_eq])
  rwa [shape] at parts

theorem find_kept_eq_ok_iff (plain : path.IsPlain) (below : path.names ≠ []) :
    tree.find .kept path = .ok (position, entry) ↔ path.isUnfit = false ∧
      ∃ holder, tree.holder path = .ok holder ∧
        tree.child holder path.lastStep = .ok (position, entry) := by
  -- The last name is not followed, so its step is a look-up in the directory.
  have single (links : Nat) (goal : Position) (directory : tree.get? goal = some .directory) :
      tree.walk .kept links goal [path.lastStep] = tree.child goal path.lastStep := by
    rw [tree.walk_single .kept links goal _ (plain.isName_lastStep below) directory, child]
    split
    · rfl
    · split <;> simp_all
  rw [find_eq_ok_iff]
  simp only [holder_eq_ok_iff]
  rcases walk_of_holder tree plain below .kept with
    ⟨goal, left, enters, walked⟩ | ⟨⟨e, failed⟩, closed⟩
  · rw [walked, single left goal enters.goal_directory]
    constructor
    · rintro ⟨unbroken, short, found⟩
      exact ⟨unbroken, goal, ⟨short, enters⟩, found⟩
    · rintro ⟨unbroken, other, ⟨short, enters'⟩, found⟩
      rw [enters.unique enters'] at found
      exact ⟨unbroken, short, found⟩
  · rw [failed]
    constructor
    · rintro ⟨_, _, found⟩
      cases found
    · rintro ⟨_, goal, ⟨_, enters⟩, _⟩
      exact absurd enters (closed goal)

theorem child_eq_ok_iff (tree : FileTree) (holder : Position) (name : String) (position : Position)
    (entry : Option Entry) : tree.child holder name = .ok (position, entry) ↔
      ¬maxNameBytes < Text.nameSize name ∧ position = holder ++ [name] ∧
        entry = tree.get? position := by
  rw [child]
  split
  next long => simp [long]
  next short =>
    rw [Except.ok.injEq, Prod.mk.injEq]
    constructor
    · rintro ⟨rfl, rfl⟩
      exact ⟨short, rfl, rfl⟩
    · rintro ⟨_, rfl, rfl⟩
      exact ⟨rfl, rfl⟩

/-- What has been moved was there, and nothing was in its way. -/
theorem exists_of_rename {source target : Path} (sourcePlain : source.IsPlain)
    (sourceBelow : source.names ≠ []) (targetPlain : target.IsPlain)
    (targetBelow : target.names ≠ []) (moved : FileTree)
    (ok : tree.rename source target = .ok moved) :
    ∃ start goal entry, tree.find .kept source = .ok (start, some entry) ∧
      tree.find .kept target = .ok (goal, tree.get? goal) ∧
      (start = goal ∧ moved = tree ∨
        start ≠ goal ∧ tree.moveObstacle start entry goal (tree.get? goal) = none ∧
          moved = tree.move start goal) := by
  unfold rename at ok
  split at ok
  · cases ok
  next unbroken =>
    split at ok
    · cases ok
    next unbroken' =>
      simp only [Bool.not_eq_true] at unbroken unbroken'
      have done : tree.moved source target = .ok moved := by
        split at ok
        · cases ok
        next done =>
          cases ok
          exact done
      -- Both directories are found before either last name is looked up.
      obtain ⟨holder, held, done⟩ := Except.bind_eq_ok_iff.mp done
      obtain ⟨holder', held', done⟩ := Except.bind_eq_ok_iff.mp done
      dsimp only at done
      split at done
      · cases done
      obtain ⟨⟨start, entry⟩, child, done⟩ := Except.bind_eq_ok_iff.mp done
      cases entry with
      | none => cases done
      | some entry =>
        obtain ⟨⟨goal, present⟩, child', done⟩ := Except.bind_eq_ok_iff.mp done
        have found := (find_kept_eq_ok_iff sourcePlain sourceBelow).mpr
          ⟨unbroken, holder, held, child⟩
        have found' := (find_kept_eq_ok_iff targetPlain targetBelow).mpr
          ⟨unbroken', holder', held', child'⟩
        obtain ⟨_, rfl, rfl⟩ := (tree.child_eq_ok_iff ..).mp child'
        refine ⟨start, _, entry, found, found', ?_⟩
        dsimp only at done
        split at done
        next same =>
          cases done
          exact .inl ⟨same, rfl⟩
        next other =>
          split at done
          · cases done
          next free =>
            cases done
            exact .inr ⟨other, free, rfl⟩

/-- What has been moved between paths that can be looked up stood at the first of them. -/
theorem rename_ok {source target : Path} (hs : tree.Held source) (ht : tree.Held target)
    (sourceNamed : source.names ≠ []) (targetNamed : target.names ≠ []) (result : FileTree)
    (h : tree.rename source target = .ok result) :
    ∃ entry present, tree.entry source = .ok (some entry) ∧ tree.entry target = .ok present ∧
      (source.names ≠ target.names →
        tree.moveObstacle source.names entry target.names present = none ∧
          result = tree.move source.names target.names) := by
  obtain ⟨start, goal, entry, found, found', moved⟩ :=
    exists_of_rename hs.plain sourceNamed ht.plain targetNamed result h
  obtain ⟨there, rfl⟩ := hs.entry_of_find found
  obtain ⟨there', rfl⟩ := ht.entry_of_find found'
  refine ⟨entry, _, there, there', fun ne => ?_⟩
  rcases moved with ⟨same, _⟩ | ⟨_, free, result⟩
  · exact absurd same ne
  · exact ⟨free, result⟩

/-- What a path leads to is moved to where another one leads when nothing is in its way. -/
theorem rename_of_find_kept {source target : Path} (sourcePlain : source.IsPlain)
    (sourceBelow : source.names ≠ []) (targetPlain : target.IsPlain)
    (targetBelow : target.names ≠ []) {start goal : Position} {entry : Entry}
    {present : Option Entry} (found : tree.find .kept source = .ok (start, some entry))
    (found' : tree.find .kept target = .ok (goal, present)) (ne : start ≠ goal)
    (free : tree.moveObstacle start entry goal present = none) :
    tree.rename source target = .ok (tree.move start goal) := by
  obtain ⟨unbroken, holder, held, child⟩ := (find_kept_eq_ok_iff sourcePlain sourceBelow).mp found
  obtain ⟨unbroken', holder', held', child'⟩ :=
    (find_kept_eq_ok_iff targetPlain targetBelow).mp found'
  rw [rename, moved, unbroken, unbroken', held, held', sourcePlain.isHeld sourceBelow,
    targetPlain.isHeld targetBelow]
  simp only [Bool.or_self, Bool.false_eq_true, if_false, Bool.not_true, bind, Except.bind, child,
    child', ne, free]

/-- Between paths that can be looked up, a move is one of their own positions. -/
theorem Held.rename_eq_move {source target : Path} (hs : tree.Held source)
    (sourceBelow : source.names ≠ []) (ht : tree.Held target) (targetBelow : target.names ≠ [])
    {entry : Entry} {present : Option Entry} (there : tree.entry source = .ok (some entry))
    (there' : tree.entry target = .ok present) (ne : source.names ≠ target.names)
    (free : tree.moveObstacle source.names entry target.names present = none) :
    tree.rename source target = .ok (tree.move source.names target.names) := by
  have found : tree.find .kept source = .ok (source.names, some entry) := by
    rw [hs.find_eq, there]
    rfl
  have found' : tree.find .kept target = .ok (target.names, present) := by
    rw [ht.find_eq, there']
    rfl
  exact rename_of_find_kept hs.plain sourceBelow ht.plain targetBelow found found' ne free

/-- A path leads where it did when a position has changed that no directory is entered at. -/
theorem find_kept_of_elsewhere {other : FileTree} (plain : path.IsPlain) (below : path.names ≠ [])
    (found : tree.find .kept path = .ok (position, entry)) (p : Position)
    (same : ∀ q, q ≠ p → other.get? q = tree.get? q) (closed : tree.IsClosed p) :
    other.find .kept path = .ok (position, other.get? position) := by
  obtain ⟨unbroken, holder, held, child⟩ := (find_kept_eq_ok_iff plain below).mp found
  obtain ⟨short, enters⟩ := (tree.holder_eq_ok_iff path holder).mp held
  obtain ⟨fits, rfl, _⟩ := (tree.child_eq_ok_iff ..).mp child
  refine (find_kept_eq_ok_iff plain below).mpr ⟨unbroken, holder, ?_, ?_⟩
  · exact (other.holder_eq_ok_iff path holder).mpr ⟨short, enters.of_elsewhere same closed⟩
  · exact (other.child_eq_ok_iff ..).mpr ⟨fits, rfl, rfl⟩

/-- What a path names is reached in every way of taking the path, unless a link stands there. -/
theorem find_of_kept (plain : path.IsPlain) (below : path.names ≠ []) (ending : Ending)
    (found : tree.find .kept path = .ok (position, entry))
    (unlinked : ∀ target, entry ≠ some (.link target)) :
    tree.find ending path = .ok (position, entry) := by
  obtain ⟨unbroken, holder, held, child⟩ := (find_kept_eq_ok_iff plain below).mp found
  obtain ⟨short, enters⟩ := (tree.holder_eq_ok_iff path holder).mp held
  obtain ⟨fits, rfl, rfl⟩ := (tree.child_eq_ok_iff ..).mp child
  refine (tree.find_eq_ok_iff ending path _).mpr ⟨unbroken, short, ?_⟩
  -- All ways of taking the path reach the same holder, and differ only at a link in it.
  rcases walk_of_holder tree plain below ending with
    ⟨goal, left, enters', walked⟩ | ⟨_, closed⟩
  · obtain rfl := enters.unique enters'
    rw [walked, tree.walk_single ending left goal _ (plain.isName_lastStep below)
      enters.goal_directory, if_neg fits]
    split
    next target linked => exact absurd linked (unlinked target)
    next => rfl
  · exact absurd enters (closed holder)

/-- A path that can be taken in some way names a position. -/
theorem exists_kept_of_find (plain : path.IsPlain) (below : path.names ≠ []) (ending : Ending)
    (goal : Position × Option Entry) (found : tree.find ending path = .ok goal) :
    ∃ position entry, tree.find .kept path = .ok (position, entry) := by
  obtain ⟨unbroken, short, walked⟩ := (tree.find_eq_ok_iff ending path goal).mp found
  rcases walk_of_holder tree plain below ending with
    ⟨holder, left, enters, onward⟩ | ⟨⟨e, failed⟩, _⟩
  -- The holder has been entered, so that its child is named even when it is missing.
  · rw [onward, tree.walk_single ending left holder _ (plain.isName_lastStep below)
      enters.goal_directory] at walked
    split at walked
    · cases walked
    next fits =>
      refine ⟨holder ++ [path.lastStep], tree.get? (holder ++ [path.lastStep]),
        (find_kept_eq_ok_iff plain below).mpr ⟨unbroken, holder, ?_, ?_⟩⟩
      · exact (tree.holder_eq_ok_iff path holder).mpr ⟨short, enters⟩
      · exact (tree.child_eq_ok_iff ..).mpr ⟨fits, rfl, rfl⟩
  · rw [failed] at walked
    cases walked

theorem stat_of_find (found : tree.find .followed path = .ok (position, entry)) :
    tree.stat path =
      match entry with
      | some entry => .ok entry
      | none => .error .noEntry := by
  obtain ⟨_, short, walked⟩ := (tree.find_eq_ok_iff .followed path _).mp found
  rw [stat, locate, if_neg short, walked]
  cases entry <;> rfl

theorem test_of_find (kind : Entry → Bool)
    (found : tree.find .followed path = .ok (position, entry)) :
    tree.test kind path = .ok (entry.any kind) := by
  obtain ⟨unbroken, _, _⟩ := (tree.find_eq_ok_iff .followed path _).mp found
  rw [test, if_neg (by rw [unbroken]; exact Bool.false_ne_true), stat_of_find found]
  cases entry <;> rfl

/-- What exists and is no directory is something else. -/
theorem exists_stat_of_doesExist (there : tree.doesExist path = .ok true)
    (file : tree.isDirectory path = .ok false) :
    ∃ reached, tree.stat path = .ok reached ∧ reached ≠ .directory := by
  unfold doesExist test at there
  unfold isDirectory test at file
  split at there
  · cases there
  next unbroken =>
    rw [if_neg unbroken] at file
    cases looked : tree.stat path with
    | error e =>
      rw [looked] at there
      dsimp only at there
      split at there <;> cases there
    | ok reached =>
      refine ⟨reached, rfl, ?_⟩
      rintro rfl
      rw [looked] at file
      cases file

/-- An entry that a path leads to is reached from the directory before its last name. -/
theorem exists_walk_of_stat (plain : path.IsPlain) (below : path.names ≠ []) {holder : Position}
    {reached : Entry} (held : tree.holder path = .ok holder)
    (looked : tree.stat path = .ok reached) :
    ∃ left goal, tree.walk .followed left holder [path.lastStep] = .ok (goal, some reached) := by
  obtain ⟨short, enters⟩ := (tree.holder_eq_ok_iff path holder).mp held
  obtain ⟨⟨goal, last⟩, located, given⟩ := Except.bind_eq_ok_iff.mp looked
  rw [locate, if_neg short] at located
  rcases walk_of_holder tree plain below .followed with
    ⟨holder', left, enters', onward⟩ | ⟨_, closed⟩
  · obtain rfl := enters.unique enters'
    cases last with
    | none => cases given
    | some last =>
      cases given
      exact ⟨left, goal, onward.symm.trans located⟩
  · exact absurd enters (closed holder)

/-- What exists and is no directory leads to none. -/
theorem isClosed_of_doesExist (plain : path.IsPlain) (below : path.names ≠ [])
    (there : tree.doesExist path = .ok true) (file : tree.isDirectory path = .ok false)
    (found : tree.find .kept path = .ok (position, entry)) : tree.IsClosed position := by
  obtain ⟨_, holder, held, child⟩ := (find_kept_eq_ok_iff plain below).mp found
  obtain ⟨_, enters⟩ := (tree.holder_eq_ok_iff path holder).mp held
  obtain ⟨fits, rfl, rfl⟩ := (tree.child_eq_ok_iff ..).mp child
  obtain ⟨reached, looked, other⟩ := exists_stat_of_doesExist there file
  obtain ⟨left, goal, reaches⟩ := exists_walk_of_stat plain below held looked
  have single := tree.walk_single .followed left holder _ (plain.isName_lastStep below)
    enters.goal_directory
  rw [reaches, if_neg fits] at single
  refine ⟨?_, ?_⟩
  · intro directory
    rw [directory] at single
    cases single
    exact other rfl
  · intro target linked links goal' enters'
    rw [linked] at single
    simp only [reduceCtorEq, if_false] at single
    cases left with
    | zero => cases single
    | succ left =>
      rw [List.dropLast_concat] at enters'
      -- With links enough for both walks they would reach the same.
      have one := tree.walk_mono .followed left (max left links) _ _ _ (Nat.le_max_left ..)
        single.symm
      have two := tree.walk_mono .followed links (max left links) _ _ _ (Nat.le_max_right ..)
        enters'
      rw [one] at two
      cases two
      exact other rfl

end

end Montage.FileTree
