import Mathlib.Data.Set.Insert
import Montage.Proofs.Gallery.Proper

/-!
# Trails

An operation on a path looks at positions one after the other: the directories on its way, the
links that it meets and the entry that it comes to. Whatever else a tree holds, a tree that has the
same at these positions leads the path to the same place, and along the same trail.
-/
namespace Montage.FileTree

/-- Two trees have the same at certain positions. -/
def AgreeOn (looks : Set Position) (t u : FileTree) : Prop := ∀ p ∈ looks, u.get? p = t.get? p

theorem AgreeOn.mono {looks more : Set Position} {t u : FileTree} (h : AgreeOn more t u)
    (within : looks ⊆ more) : AgreeOn looks t u := fun p member => h p (within member)

theorem AgreeOn.linkAt?_eq {looks : Set Position} {t u : FileTree} (h : AgreeOn looks t u)
    {p : Position} (member : p ∈ looks) : u.linkAt? p = t.linkAt? p :=
  linkAt?_congr (h p member)

/-! ### Walks -/

/-- The positions that a walk looks at. -/
def trail (tree : FileTree) (ending : Ending) (links : Nat) (position : Position) :
    List String → Set Position
  | [] => {position}
  | name :: rest =>
    insert position <|
      if tree.get? position ≠ some .directory then ∅
      else if Path.isIdle name then trail tree ending links position rest
      else if name = ".." then trail tree ending links position.dropLast rest
      else if ending = .written && !rest.isEmpty && rest.all String.isEmpty then ∅
      else if maxNameBytes < Text.nameSize name then ∅
      else
        let next := position ++ [name]
        insert next <|
          match tree.get? next with
          | none => ∅
          | some (.link target) =>
            if rest.isEmpty && ending = .kept then ∅
            else
              match links with
              | 0 => ∅
              | links + 1 =>
                trail tree ending links (if target.startsWith "/" then [] else position)
                  (Path.pieces target ++ rest)
          | some _ => trail tree ending links next rest
termination_by names => (links, names.length)

theorem mem_trail (tree : FileTree) (ending : Ending) (links : Nat) (position : Position)
    (names : List String) : position ∈ tree.trail ending links position names := by
  cases names with
  | nil => rw [trail.eq_def]; exact Set.mem_singleton position
  | cons name rest => rw [trail.eq_def]; exact Set.mem_insert position _

theorem trail_cons (tree : FileTree) (ending : Ending) (links : Nat) (position : Position)
    (name : String) (rest : List String) (isDirectory : ¬tree.get? position ≠ some .directory)
    (busy : ¬Path.isIdle name) (down : name ≠ "..")
    (fits : ¬(ending = .written && !rest.isEmpty && rest.all String.isEmpty) = true)
    (short : ¬maxNameBytes < Text.nameSize name) :
    tree.trail ending links position (name :: rest) =
      insert position (insert (position ++ [name])
        (match tree.get? (position ++ [name]) with
        | none => ∅
        | some (.link target) =>
          if rest.isEmpty && ending = .kept then ∅
          else
            match links with
            | 0 => ∅
            | links + 1 =>
              trail tree ending links (if target.startsWith "/" then [] else position)
                (Path.pieces target ++ rest)
        | some _ => trail tree ending links (position ++ [name]) rest)) := by
  have looked := trail.eq_def tree ending links position (name :: rest)
  simp only [if_neg isDirectory, if_neg busy, if_neg down, if_neg fits, if_neg short] at looked
  exact looked

/-- A walk that takes a name has looked at the directory that it comes from and at the entry that
has the name. -/
theorem AgreeOn.next {t u : FileTree} {ending : Ending} {links : Nat} {position : Position}
    {name : String} {rest : List String}
    (agree : AgreeOn (t.trail ending links position (name :: rest)) t u)
    (isDirectory : ¬t.get? position ≠ some .directory) (busy : ¬Path.isIdle name)
    (down : name ≠ "..")
    (fits : ¬(ending = .written && !rest.isEmpty && rest.all String.isEmpty) = true)
    (short : ¬maxNameBytes < Text.nameSize name) :
    ¬u.get? position ≠ some .directory ∧
      u.get? (position ++ [name]) = t.get? (position ++ [name]) := by
  rw [t.trail_cons _ _ _ _ _ isDirectory busy down fits short] at agree
  refine ⟨?_, agree _ (Set.mem_insert_of_mem _ (Set.mem_insert _ _))⟩
  rwa [agree position (Set.mem_insert _ _)]

/-- A walk leads to the same place, along the same trail, in a tree that has the same on it. -/
theorem walk_eq_of_trail {t u : FileTree} (ending : Ending) (links : Nat) (position : Position)
    (names : List String) (agree : AgreeOn (t.trail ending links position names) t u) :
    u.walk ending links position names = t.walk ending links position names ∧
      u.trail ending links position names = t.trail ending links position names := by
  -- Each step decides by what stands at a position of the trail.
  fun_induction walk t ending links position names with
  | case1 links position =>
    have here := agree position (t.mem_trail ..)
    rw [walk, trail.eq_def, trail.eq_def, here]
    exact ⟨rfl, rfl⟩
  | case2 links position name rest other =>
    have here := agree position (t.mem_trail ..)
    have there := here ▸ other
    rw [walk, trail.eq_def, trail.eq_def t]
    simp only [if_pos other, if_pos there, and_self]
  | case3 links position name rest isDirectory idle ih =>
    have here := agree position (t.mem_trail ..)
    have there := here ▸ isDirectory
    rw [trail.eq_def] at agree
    simp only [if_neg isDirectory, if_pos idle] at agree
    rw [walk, trail.eq_def, trail.eq_def t]
    simp only [if_neg isDirectory, if_neg there, if_pos idle]
    obtain ⟨walked, passed⟩ := ih (agree.mono (Set.subset_insert _ _))
    exact ⟨walked, by rw [passed]⟩
  | case4 links position rest isDirectory busy ih =>
    have here := agree position (t.mem_trail ..)
    have there := here ▸ isDirectory
    rw [trail.eq_def] at agree
    simp only [if_neg isDirectory, if_neg busy, if_true] at agree
    rw [walk, trail.eq_def, trail.eq_def t]
    simp only [if_neg isDirectory, if_neg there, if_neg busy, if_true]
    obtain ⟨walked, passed⟩ := ih (agree.mono (Set.subset_insert _ _))
    exact ⟨walked, by rw [passed]⟩
  | case5 links position name rest isDirectory busy down slashed =>
    have there := agree position (t.mem_trail ..) ▸ isDirectory
    rw [walk, trail.eq_def, trail.eq_def t]
    simp only [if_neg isDirectory, if_neg there, if_neg busy, if_neg down, if_pos slashed,
      and_self]
  | case6 links position name rest isDirectory busy down fits long =>
    have there := agree position (t.mem_trail ..) ▸ isDirectory
    rw [walk, trail.eq_def, trail.eq_def t]
    simp only [if_neg isDirectory, if_neg there, if_neg busy, if_neg down, if_neg fits,
      if_pos long, and_self]
  | case7 links position name rest isDirectory busy down fits short next missing last
  | case8 links position name rest isDirectory busy down fits short next missing last =>
    obtain ⟨there, found⟩ := agree.next isDirectory busy down fits short
    rw [u.walk_cons _ _ _ _ _ there busy down fits short,
      u.trail_cons _ _ _ _ _ there busy down fits short,
      t.trail_cons _ _ _ _ _ isDirectory busy down fits short, found, missing]
    simp [last, next]
  | case9 links position name rest isDirectory busy down fits short next target linked last
  | case10 position name rest isDirectory busy down fits short next target linked last =>
    obtain ⟨there, found⟩ := agree.next isDirectory busy down fits short
    rw [u.walk_cons _ _ _ _ _ there busy down fits short,
      u.trail_cons _ _ _ _ _ there busy down fits short,
      t.trail_cons _ _ _ _ _ isDirectory busy down fits short, found, linked]
    simp [last, next]
  | case11 position name rest isDirectory busy down fits short next target linked more links ih =>
    obtain ⟨there, found⟩ := agree.next isDirectory busy down fits short
    rw [t.trail_cons _ _ _ _ _ isDirectory busy down fits short, linked] at agree
    simp only [if_neg more] at agree
    obtain ⟨walked, passed⟩ := ih (agree.mono fun p member =>
      Set.mem_insert_of_mem _ (Set.mem_insert_of_mem _ member))
    rw [u.walk_cons _ _ _ _ _ there busy down fits short,
      u.trail_cons _ _ _ _ _ there busy down fits short,
      t.trail_cons _ _ _ _ _ isDirectory busy down fits short, found, linked]
    simp only [if_neg more]
    exact ⟨walked, congrArg (fun trail => insert position (insert next trail)) passed⟩
  | case12 links position name rest isDirectory busy down fits short next entry other present ih =>
    obtain ⟨there, found⟩ := agree.next isDirectory busy down fits short
    have onward : AgreeOn (t.trail ending links next rest) t u := by
      rw [t.trail_cons _ _ _ _ _ isDirectory busy down fits short, present] at agree
      cases entry with
      | link target => exact (other target rfl).elim
      | directory | file content =>
        exact agree.mono fun p member => Set.mem_insert_of_mem _ (Set.mem_insert_of_mem _ member)
    obtain ⟨walked, passed⟩ := ih onward
    rw [u.walk_cons _ _ _ _ _ there busy down fits short,
      u.trail_cons _ _ _ _ _ there busy down fits short,
      t.trail_cons _ _ _ _ _ isDirectory busy down fits short, found, present]
    cases entry with
    | link target => exact (other target rfl).elim
    | directory | file content =>
      exact ⟨walked, congrArg (fun trail => insert position (insert next trail)) passed⟩

/-- What a walk comes to is the last thing that it looks at, and stands in a directory if it is to
be made. -/
theorem walk_ok {tree : FileTree} {ending : Ending} {links : Nat} {position : Position}
    {names : List String} {goal : Position} {entry : Option Entry}
    (h : tree.walk ending links position names = .ok (goal, entry)) :
    goal ∈ tree.trail ending links position names ∧ entry = tree.get? goal ∧
      (tree.IsProper → tree.get? position ≠ none → entry = none →
        ∃ parent name, goal = parent ++ [name] ∧ tree.get? parent = some .directory) := by
  -- The cases are those of the walk; in each it has looked at one position more.
  fun_induction walk tree ending links position names with
  | case1 links position =>
    cases h
    exact ⟨tree.mem_trail .., rfl, fun _ there missing => absurd missing there⟩
  | case2 => cases h
  | case3 links position name rest isDirectory idle ih =>
    obtain ⟨member, found, parent⟩ := ih h
    rw [trail.eq_def]
    simp only [if_neg isDirectory, if_pos idle]
    exact ⟨Set.mem_insert_of_mem _ member, found, parent⟩
  | case4 links position rest isDirectory busy ih =>
    obtain ⟨member, found, parent⟩ := ih h
    rw [trail.eq_def]
    simp only [if_neg isDirectory, if_neg busy, if_true]
    refine ⟨Set.mem_insert_of_mem _ member, found, fun proper _ => parent proper ?_⟩
    rw [proper.directory_dropLast (not_not.mp isDirectory)]
    exact Option.some_ne_none _
  | case5 => cases h
  | case6 => cases h
  | case7 links position name rest isDirectory busy down fits short next missing last =>
    rw [Except.ok.injEq, Prod.mk.injEq] at h
    obtain ⟨rfl, rfl⟩ := h
    rw [tree.trail_cons _ _ _ _ _ isDirectory busy down fits short]
    exact ⟨Set.mem_insert_of_mem _ (Set.mem_insert _ _), missing.symm,
      fun _ _ _ => ⟨position, name, rfl, not_not.mp isDirectory⟩⟩
  | case8 => cases h
  | case9 links position name rest isDirectory busy down fits short next target linked last =>
    rw [Except.ok.injEq, Prod.mk.injEq] at h
    obtain ⟨rfl, rfl⟩ := h
    rw [tree.trail_cons _ _ _ _ _ isDirectory busy down fits short]
    exact ⟨Set.mem_insert_of_mem _ (Set.mem_insert _ _), linked.symm,
      fun _ _ missing => absurd missing (Option.some_ne_none _)⟩
  | case10 => cases h
  | case11 position name rest isDirectory busy down fits short next target linked more links ih =>
    obtain ⟨member, found, parent⟩ := ih h
    rw [tree.trail_cons _ _ _ _ _ isDirectory busy down fits short, linked]
    simp only [if_neg more]
    refine ⟨Set.mem_insert_of_mem _ (Set.mem_insert_of_mem _ member), found,
      fun proper there => parent proper ?_⟩
    split
    · exact Option.some_ne_none _
    · exact there
  | case12 links position name rest isDirectory busy down fits short next entry' other present ih =>
    obtain ⟨member, found, parent⟩ := ih h
    rw [tree.trail_cons _ _ _ _ _ isDirectory busy down fits short, present]
    refine ⟨?_, found, fun proper _ => parent proper (present ▸ Option.some_ne_none _)⟩
    cases entry' with
    | link target => exact (other target rfl).elim
    | directory | file content => exact Set.mem_insert_of_mem _ (Set.mem_insert_of_mem _ member)

/-- The positions that are looked at for what a path names. -/
def locateTrail (tree : FileTree) (ending : Ending) (path : Path) : Set Position :=
  if maxPathBytes ≤ Text.nameSize path.text then ∅
  else tree.trail ending maxLinks [] path.steps

theorem locate_eq_of_trail {t u : FileTree} (ending : Ending) (path : Path)
    (agree : AgreeOn (t.locateTrail ending path) t u) :
    u.locate ending path = t.locate ending path ∧
      u.locateTrail ending path = t.locateTrail ending path := by
  unfold locateTrail at agree ⊢
  unfold locate
  split
  · exact ⟨rfl, rfl⟩
  next fits =>
    rw [if_neg fits] at agree
    exact walk_eq_of_trail ending maxLinks [] path.steps agree

/-- The positions that an operation on a path looks at. -/
def findTrail (tree : FileTree) (ending : Ending) (path : Path) : Set Position :=
  if path.isUnfit then ∅ else tree.locateTrail ending path

theorem find_eq_of_trail {t u : FileTree} (ending : Ending) (path : Path)
    (agree : AgreeOn (t.findTrail ending path) t u) :
    u.find ending path = t.find ending path ∧
      u.findTrail ending path = t.findTrail ending path := by
  unfold findTrail at agree ⊢
  unfold find
  split
  · exact ⟨rfl, rfl⟩
  next fit =>
    rw [if_neg fit] at agree
    obtain ⟨located, passed⟩ := locate_eq_of_trail ending path agree
    rw [located]
    exact ⟨rfl, passed⟩

theorem find_ok {tree : FileTree} {ending : Ending} {path : Path} {goal : Position}
    {entry : Option Entry} (h : tree.find ending path = .ok (goal, entry)) :
    goal ∈ tree.findTrail ending path ∧ entry = tree.get? goal ∧
      (tree.IsProper → entry = none →
        ∃ parent name, goal = parent ++ [name] ∧ tree.get? parent = some .directory) := by
  obtain ⟨fit, short, walked⟩ := (tree.find_eq_ok_iff ending path _).mp h
  obtain ⟨member, found, parent⟩ := walk_ok walked
  rw [findTrail, if_neg (Bool.eq_false_iff.mp fit), locateTrail, if_neg short]
  exact ⟨member, found, fun proper => parent proper (Option.some_ne_none _)⟩

/-- A test of a path looks where a walk to its end looks. -/
theorem test_eq_of_trail {t u : FileTree} (kind : Entry → Bool) (path : Path)
    (agree : AgreeOn (t.findTrail .followed path) t u) : u.test kind path = t.test kind path := by
  unfold findTrail at agree
  unfold test stat
  split
  · rfl
  next fit =>
    rw [if_neg fit] at agree
    rw [(locate_eq_of_trail .followed path agree).1]

theorem content?_eq_of_trail {t u : FileTree} (path : Path)
    (agree : AgreeOn (t.findTrail .followed path) t u) : u.content? path = t.content? path := by
  rw [content?, content?, (find_eq_of_trail .followed path agree).1]

/-- The positions that are looked at for the directory that a path's last step is looked up in. -/
def holderTrail (tree : FileTree) (path : Path) : Set Position :=
  if maxPathBytes ≤ Text.nameSize path.text then ∅
  else tree.trail .followed maxLinks [] path.steps.dropLast

theorem holder_eq_of_trail {t u : FileTree} (path : Path)
    (agree : AgreeOn (t.holderTrail path) t u) :
    u.holder path = t.holder path ∧ u.holderTrail path = t.holderTrail path := by
  unfold holderTrail at agree ⊢
  unfold holder
  split
  · exact ⟨rfl, rfl⟩
  next fits =>
    rw [if_neg fits] at agree
    obtain ⟨walked, passed⟩ := walk_eq_of_trail .followed maxLinks [] path.steps.dropLast agree
    rw [walked]
    exact ⟨rfl, passed⟩

/-! ### Resolutions -/

/-- The positions that are looked at for links while a path is resolved. -/
def followTrail (tree : FileTree) (known : Known) (position : Position) (names : List String)
    (detours : List Detour) : Set Position :=
  match names with
  | [] =>
    match detours with
    | [] => ∅
    | d :: outer => followTrail tree ((d.link, some position) :: known) position d.after outer
  | name :: rest =>
    if Path.isIdle name then followTrail tree known position rest detours
    else if name = ".." then followTrail tree known position.dropLast rest detours
    else if Path.isUnfitName name then ∅
    else
      let next := position ++ [name]
      insert next <|
        match _link : tree.linkAt? next with
        | none => followTrail tree known next rest detours
        | some target =>
          match _new : known.get? next with
          | some (some goal) => followTrail tree known goal rest detours
          | some none => ∅
          | none =>
            followTrail tree ((next, none) :: known)
              (if target.startsWith "/" then [] else position) (Path.pieces target)
              (⟨next, rest⟩ :: detours)
termination_by (tree.unmet known, pending names detours)
decreasing_by
  · exact pending_return_lt tree known position d outer
  · exact Prod.Lex.right _ (pending_lt name rest detours)
  · exact Prod.Lex.right _ (pending_lt name rest detours)
  · exact Prod.Lex.right _ (pending_lt name rest detours)
  · exact Prod.Lex.right _ (pending_lt name rest detours)
  · exact Prod.Lex.left _ _ (unmet_cons_lt none _link _new)

theorem followTrail_cons_free (tree : FileTree) (known : Known) (position : Position)
    (name : String) (rest : List String) (detours : List Detour) (busy : ¬Path.isIdle name)
    (down : name ≠ "..") (fit : ¬Path.isUnfitName name)
    (free : tree.linkAt? (position ++ [name]) = none) :
    tree.followTrail known position (name :: rest) detours =
      insert (position ++ [name]) (tree.followTrail known (position ++ [name]) rest detours) := by
  rw [followTrail.eq_def]
  simp only [if_neg busy, if_neg down, if_neg fit]
  split
  · rfl
  next target link =>
    rw [free] at link
    cases link

theorem followTrail_cons_link (tree : FileTree) (known : Known) (position : Position)
    (name : String) (rest : List String) (detours : List Detour) (target : String)
    (busy : ¬Path.isIdle name) (down : name ≠ "..") (fit : ¬Path.isUnfitName name)
    (link : tree.linkAt? (position ++ [name]) = some target) :
    tree.followTrail known position (name :: rest) detours = insert (position ++ [name])
      (match known.get? (position ++ [name]) with
      | some (some goal) => tree.followTrail known goal rest detours
      | some none => ∅
      | none =>
        tree.followTrail ((position ++ [name], none) :: known)
          (if target.startsWith "/" then [] else position) (Path.pieces target)
          (⟨position ++ [name], rest⟩ :: detours)) := by
  rw [followTrail.eq_def]
  simp only [if_neg busy, if_neg down, if_neg fit]
  split
  next free =>
    rw [link] at free
    cases free
  next target' linked =>
    -- The trail goes on as the path does, in the three cases of `follow`.
    obtain rfl : target = target' := Option.some.inj (link.symm.trans linked)
    split
    next found => rw [found]
    next found => rw [found]
    next found => rw [found]

/-- A name that is taken has been looked up. -/
theorem mem_followTrail (tree : FileTree) (known : Known) (position : Position) (name : String)
    (rest : List String) (detours : List Detour) (busy : ¬Path.isIdle name) (down : name ≠ "..")
    (fit : ¬Path.isUnfitName name) :
    position ++ [name] ∈ tree.followTrail known position (name :: rest) detours := by
  rw [followTrail.eq_def]
  simp only [if_neg busy, if_neg down, if_neg fit]
  exact Set.mem_insert _ _

theorem follow_eq_of_trail {t u : FileTree} (known : Known) (position : Position)
    (names : List String) (detours : List Detour)
    (agree : AgreeOn (t.followTrail known position names detours) t u) :
    u.follow known position names detours = t.follow known position names detours ∧
      u.followTrail known position names detours = t.followTrail known position names detours := by
  -- Each name that is not skipped is looked at, so both trees have the same link there, or none.
  fun_induction follow t known position names detours with
  | case1 known position =>
    rw [follow, followTrail.eq_def, followTrail.eq_def]
    exact ⟨rfl, rfl⟩
  | case2 known position d outer ih =>
    rw [followTrail.eq_def] at agree
    rw [follow, followTrail.eq_def, followTrail.eq_def t]
    exact ih agree
  | case3 known position detours name rest idle ih =>
    rw [followTrail.eq_def] at agree
    simp only [if_pos idle] at agree
    rw [follow, followTrail.eq_def, followTrail.eq_def t]
    simp only [if_pos idle]
    exact ih agree
  | case4 known position detours rest busy ih =>
    rw [followTrail.eq_def] at agree
    simp only [if_neg busy, if_true] at agree
    rw [follow, followTrail.eq_def, followTrail.eq_def t]
    simp only [if_neg busy, if_true]
    exact ih agree
  | case5 known position detours name rest busy down unfit =>
    rw [follow, followTrail.eq_def, followTrail.eq_def t]
    simp only [if_neg busy, if_neg down, if_pos unfit, and_self]
  | case6 known position detours name rest busy down fit next free ih =>
    have same := agree.linkAt?_eq (t.mem_followTrail known position name rest detours busy down fit)
    rw [t.followTrail_cons_free _ _ _ _ _ busy down fit free] at agree ⊢
    obtain ⟨followed, passed⟩ := ih (agree.mono (Set.subset_insert _ _))
    rw [u.follow_cons_free _ _ _ _ _ busy down fit (same.trans free),
      u.followTrail_cons_free _ _ _ _ _ busy down fit (same.trans free), passed]
    exact ⟨followed, rfl⟩
  | case7 known position detours name rest busy down fit next target link goal answered ih =>
    have same := agree.linkAt?_eq (t.mem_followTrail known position name rest detours busy down fit)
    rw [t.followTrail_cons_link _ _ _ _ _ target busy down fit link, answered] at agree
    obtain ⟨followed, passed⟩ := ih (agree.mono (Set.subset_insert _ _))
    rw [t.followTrail_cons_link _ _ _ _ _ target busy down fit link,
      u.follow_cons_link _ _ _ _ _ target busy down fit (same.trans link),
      u.followTrail_cons_link _ _ _ _ _ target busy down fit (same.trans link), answered]
    exact ⟨followed, congrArg (insert next) passed⟩
  | case8 known position detours name rest busy down fit next target link entered =>
    have same := agree.linkAt?_eq (t.mem_followTrail known position name rest detours busy down fit)
    rw [t.followTrail_cons_link _ _ _ _ _ target busy down fit link,
      u.follow_cons_link _ _ _ _ _ target busy down fit (same.trans link),
      u.followTrail_cons_link _ _ _ _ _ target busy down fit (same.trans link), entered]
    exact ⟨rfl, rfl⟩
  | case9 known position detours name rest busy down fit next target link new ih =>
    have same := agree.linkAt?_eq (t.mem_followTrail known position name rest detours busy down fit)
    rw [t.followTrail_cons_link _ _ _ _ _ target busy down fit link, new] at agree
    obtain ⟨followed, passed⟩ := ih (agree.mono (Set.subset_insert _ _))
    rw [t.followTrail_cons_link _ _ _ _ _ target busy down fit link,
      u.follow_cons_link _ _ _ _ _ target busy down fit (same.trans link),
      u.followTrail_cons_link _ _ _ _ _ target busy down fit (same.trans link), new]
    exact ⟨followed, congrArg (insert next) passed⟩

/-- The positions that are looked at while an absolute path is resolved: what is left of an endless
link is looked up once more. -/
def resolveTrail (tree : FileTree) (path : Path) : Set Position :=
  tree.followTrail [] [] path.names [] ∪
    match tree.follow [] [] path.names [] with
    | .endless link rests => tree.findTrail .followed (unending link rests)
    | _ => ∅

theorem resolve_eq_of_trail {t u : FileTree} (path : Path)
    (agree : AgreeOn (t.resolveTrail path) t u) :
    u.resolve path = t.resolve path ∧ u.resolveTrail path = t.resolveTrail path := by
  unfold resolveTrail at agree ⊢
  obtain ⟨followed, passed⟩ := follow_eq_of_trail [] [] path.names []
    (agree.mono Set.subset_union_left)
  have agree := agree.mono Set.subset_union_right
  unfold resolve
  rw [followed, passed]
  generalize t.follow [] [] path.names [] = ended at agree ⊢
  cases ended with
  | resolved position => exact ⟨rfl, rfl⟩
  | unfit position => exact ⟨rfl, rfl⟩
  | endless link rests =>
    -- The path that is left behind an endless link is looked at too.
    obtain ⟨_, passed⟩ := find_eq_of_trail .followed (unending link rests) agree
    refine ⟨?_, congrArg _ passed⟩
    dsimp only at agree ⊢
    unfold findTrail at agree
    split
    · rfl
    next fit =>
      rw [if_neg fit] at agree
      rw [stat, stat, (locate_eq_of_trail .followed _ agree).1]

end Montage.FileTree
