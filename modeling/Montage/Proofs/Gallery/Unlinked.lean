import Montage.Proofs.Gallery.Footprint

/-!
# Footprints in trees without links

In a tree without links a plain path is looked at from the root down to its end, and nowhere else.
So an errand at plain paths looks at what stands above them and below those that it writes, and
changes only what stands at or below the latter.
-/
namespace Montage

open FileTree

namespace FileTree

variable {tree : FileTree}

/-- Without links a walk looks no further than along its names. -/
theorem trail_subset (linkless : tree.IsLinkless) (ending : Ending) (links : Nat)
    (position : Position) (names : List String) (named : ∀ name ∈ names, Path.IsName name) :
    tree.trail ending links position names ⊆ {p | p <+: position ++ names} := by
  induction names generalizing position with
  | nil =>
    rw [trail.eq_def, List.append_nil]
    exact Set.singleton_subset_iff.mpr List.prefix_rfl
  | cons name rest ih =>
    have taken := named name List.mem_cons_self
    have onward := ih (position ++ [name]) fun n member => named n (List.mem_cons_of_mem _ member)
    rw [List.append_assoc, List.singleton_append] at onward
    have here : position ++ [name] <+: position ++ name :: rest := ⟨rest, by simp⟩
    have empty := Set.empty_subset {p | p <+: position ++ name :: rest}
    rw [trail.eq_def]
    -- The walk ends here, or goes on to the next name; there is no link to lead it away.
    refine Set.insert_subset (List.prefix_append _ _) ?_
    simp only [taken.busy, Bool.false_eq_true, if_false, if_neg taken.down]
    split
    · exact empty
    split
    · exact empty
    split
    · exact empty
    refine Set.insert_subset here ?_
    split
    · exact empty
    next target link =>
      have free := linkless.linkAt?_eq_none (position ++ [name])
      rw [linkAt?, link] at free
      cases free
    next => exact onward

/-- So does a look-up. -/
theorem findTrail_subset (linkless : tree.IsLinkless) (ending : Ending) {path : Path}
    (plain : path.IsPlain) : tree.findTrail ending path ⊆ {p | p <+: path.names} := by
  rw [findTrail, locateTrail, plain.steps_eq]
  split
  · exact Set.empty_subset _
  split
  · exact Set.empty_subset _
  · exact tree.trail_subset linkless ending maxLinks [] path.names plain.named

theorem holderTrail_subset (linkless : tree.IsLinkless) {path : Path} (plain : path.IsPlain) :
    tree.holderTrail path ⊆ {p | p <+: path.names} := by
  rw [holderTrail, plain.steps_eq]
  split
  · exact Set.empty_subset _
  · refine (tree.trail_subset linkless .followed maxLinks [] path.names.dropLast fun name member =>
      plain.named name (List.dropLast_subset _ member)).trans ?_
    exact fun p above => List.IsPrefix.trans above (List.dropLast_prefix _)

/-- Without links names are followed straight down, up to one that no file system takes. -/
theorem followTrail_subset (linkless : tree.IsLinkless) (known : Known) (position : Position)
    (names : List String) (named : ∀ name ∈ names, Path.IsName name) :
    tree.followTrail known position names [] ⊆ {p | p <+: position ++ names} ∧
      (tree.follow known position names [] = .resolved (position ++ names) ∨
        ∃ stuck, tree.follow known position names [] = .unfit stuck) := by
  induction names generalizing position with
  | nil =>
    rw [followTrail.eq_def, follow, List.append_nil]
    exact ⟨Set.empty_subset _, .inl rfl⟩
  | cons name rest ih =>
    have taken := named name List.mem_cons_self
    have onward := ih (position ++ [name]) fun n member => named n (List.mem_cons_of_mem _ member)
    rw [List.append_assoc, List.singleton_append] at onward
    have busy : ¬Path.isIdle name := Bool.eq_false_iff.mp taken.busy
    -- A name that no file system takes is not looked up, and ends the trail.
    by_cases unfit : Path.isUnfitName name = true
    · rw [followTrail.eq_def, follow]
      simp only [if_neg busy, if_neg taken.down, if_pos unfit]
      exact ⟨Set.empty_subset _, .inr ⟨_, rfl⟩⟩
    · have free := linkless.linkAt?_eq_none (position ++ [name])
      rw [tree.followTrail_cons_free _ _ _ _ _ busy taken.down unfit free,
        tree.follow_cons_free _ _ _ _ _ busy taken.down unfit free]
      exact ⟨Set.insert_subset ⟨rest, by simp⟩ onward.1, onward.2⟩

/-- So does a resolution. -/
theorem resolveTrail_subset (linkless : tree.IsLinkless) {path : Path}
    (named : ∀ name ∈ path.names, Path.IsName name) :
    tree.resolveTrail path ⊆ {p | p <+: path.names} := by
  obtain ⟨followed, ends⟩ := tree.followTrail_subset linkless [] [] path.names named
  rw [resolveTrail]
  refine Set.union_subset followed ?_
  rcases ends with resolved | ⟨stuck, unfit⟩
  · rw [resolved]
    exact Set.empty_subset _
  · rw [unfit]
    exact Set.empty_subset _

/-- Without links a plain path resolves to itself. -/
theorem eq_of_resolve (linkless : tree.IsLinkless) {path full : Path} (plain : path.IsPlain)
    (resolved : tree.resolve path = .ok full) : full = path := by
  obtain ⟨_, ends⟩ := tree.followTrail_subset linkless [] [] path.names plain.named
  rw [FileTree.resolve] at resolved
  rcases ends with followed | ⟨stuck, unfit⟩
  · rw [followed, List.nil_append] at resolved
    obtain ⟨root, names⟩ := path
    obtain rfl : root = "/" := plain.root_eq
    cases resolved
    rfl
  · rw [unfit] at resolved
    cases resolved

/-- Without links an edit changes what its path names. -/
theorem goals_subset (linkless : tree.IsLinkless) (ending : Ending) {path : Path}
    (plain : path.IsPlain) : goals ending path tree ⊆ {p | path.names <+: p} := by
  rintro p ⟨present, found⟩
  have resolved : tree.Resolved path := ⟨plain, fun p _ => linkless.linkAt?_eq_none p⟩
  rw [resolved.find_eq] at found
  obtain ⟨entry, _, same⟩ := Except.map_eq_ok_iff.mp found
  cases same
  exact List.prefix_rfl

/-- Without links a move changes what its two paths name. -/
theorem places_subset (linkless : tree.IsLinkless) {source target : Path}
    (plain : source.IsPlain) (plain' : target.IsPlain) (below : source.names ≠ [])
    (below' : target.names ≠ []) :
    places source target tree ⊆ {p | source.names <+: p} ∪ {p | target.names <+: p} := by
  have held {path : Path} (plain : path.IsPlain) (below : path.names ≠ []) {holder : Position}
      (found : tree.holder path = .ok holder) : holder ++ [path.lastStep] = path.names := by
    have held : tree.Held path := ⟨plain, fun p _ => linkless.linkAt?_eq_none p⟩
    rw [((held.holder_eq_ok_iff holder).mp found).2.2]
    exact plain.dropLast_append_lastStep below
  rintro p ⟨path, holder, rfl | rfl, found, under⟩
  · exact .inl (held plain below found ▸ under)
  · exact .inr (held plain' below' found ▸ under)

/-- Without links nothing becomes one. -/
theorem IsLinkless.put (linkless : tree.IsLinkless) {position : Position} (below : position ≠ [])
    {entry : Option Entry} (other : ∀ target, entry ≠ some (.link target)) :
    (tree.put position entry).IsLinkless := by
  intro e _
  by_cases here : e.1 = position
  · rw [linkAt?, tree.get?_put below, if_pos here]
    rcases entry with _ | _ | _ | target
    · rfl
    · rfl
    · rfl
    · exact absurd rfl (other target)
  · exact (linkAt?_congr (by rw [tree.get?_put below, if_neg here])).trans
      (linkless.linkAt?_eq_none e.1)

/-- A tree without links gets none from an edit that writes none. -/
theorem IsLinkless.edit (linkless : tree.IsLinkless) {ending : Ending} {path : Path}
    {choose : Option Entry → Except FileError (Option Entry)}
    (spares : ∀ entry, choose (some .directory) ≠ .ok entry)
    (other : ∀ present target, choose present ≠ .ok (some (.link target))) {next : FileTree}
    (done : tree.edit ending path choose = .ok next) : next.IsLinkless := by
  obtain ⟨position, entry, _, chosen, rfl⟩ := exists_of_edit done
  have below : position ≠ [] := ne_nil_of_place fun directory => spares entry (directory ▸ chosen)
  exact linkless.put below fun target link => other _ target (link ▸ chosen)

/-- A tree without links gets none when something is moved. -/
theorem IsLinkless.rename (linkless : tree.IsLinkless) (proper : tree.IsProper)
    {source target : Path} {next : FileTree} (done : tree.rename source target = .ok next) :
    next.IsLinkless := by
  have self : AgreeOn (renameTrail source target tree) tree tree := fun _ _ => rfl
  rcases rename_of_trail source target self with
    ⟨e, failed, _⟩ | ⟨still, _⟩ | ⟨holder, holder', entry, _, _, free, moved, _⟩
  · rw [failed] at done
    cases done
  · rw [still] at done
    cases done
    exact linkless
  · rw [moved] at done
    cases done
    obtain ⟨apart, _, empty⟩ := apart_of_moveObstacle proper free
    intro e _
    -- Whatever shows after the move stood somewhere before it, and was no link.
    have there := tree.get?_move (p := e.1) (by simp) (by simp) apart empty
    split at there
    · have free := linkless.linkAt?_eq_none (holder ++ [source.lastStep] ++
        e.1.drop (holder' ++ [target.lastStep]).length)
      rw [linkAt?] at free ⊢
      rwa [there]
    split at there
    · rw [linkAt?, there]
    · rw [linkAt?_congr there, linkless.linkAt?_eq_none]

end FileTree

namespace Errand

variable {α β ε : Type} {looks changes : Set Position}

/-- On trees without links an errand looks and changes only at certain positions, and makes no
link. -/
structure Treads (looks changes : Set Position) (run : Run α) : Prop where
  looks : run.looks ⊆ looks
  changes : run.changes ⊆ changes
  proper : run.tree.IsProper
  linkless : run.tree.IsLinkless

def IsWithin (looks changes : Set Position) (errand : Errand α) : Prop :=
  ∀ tree, tree.IsProper → tree.IsLinkless → Treads looks changes (errand.run tree)

theorem isWithin_pure (reply : α) : IsWithin looks changes (pure reply) := fun _ proper linkless =>
  ⟨Set.empty_subset _, Set.empty_subset _, proper, linkless⟩

/-- Errands that stay within bounds do so one after the other. -/
theorem IsWithin.bind {first : Errand α} {next : α → Errand β}
    (begin' : IsWithin looks changes first)
    (onward : ∀ reply, IsWithin looks changes (next reply)) :
    IsWithin looks changes (first >>= next) := by
  intro tree proper linkless
  have begun := begin' tree proper linkless
  have ended := onward (first.run tree).reply _ begun.proper begun.linkless
  exact ⟨Set.union_subset begun.looks ended.looks, Set.union_subset begun.changes ended.changes,
    ended.proper, ended.linkless⟩

/-- A question stays within bounds that it looks no further than. -/
theorem isWithin_ask {seen : FileTree → Set Position} (question : FileTree → α)
    (within : ∀ tree, tree.IsLinkless → seen tree ⊆ looks) :
    IsWithin looks changes (ask seen question) := fun tree proper linkless =>
  ⟨within tree linkless, Set.empty_subset _, proper, linkless⟩

theorem isWithin_alter {seen changed : FileTree → Set Position}
    {operation : FileTree → Except ε FileTree} (operates : Operates seen changed operation)
    (looks' : ∀ tree, tree.IsLinkless → seen tree ⊆ looks)
    (changes' : ∀ tree, tree.IsLinkless → changed tree ⊆ changes)
    (linkless' : ∀ tree next, tree.IsProper → tree.IsLinkless → operation tree = .ok next →
      next.IsLinkless) :
    IsWithin looks changes (alter seen changed operation) := by
  intro tree proper linkless
  unfold alter
  dsimp only
  -- An operation that is refused has looked around, and left everything as it was.
  cases came : operation tree with
  | ok next =>
    exact ⟨looks' tree linkless, changes' tree linkless, (operates.done tree next proper came).1,
      linkless' tree next proper linkless came⟩
  | error e => exact ⟨looks' tree linkless, Set.empty_subset _, proper, linkless⟩

/-! ### Errands at plain paths -/

/-- The positions at or below certain paths. -/
def grounds (written : List Path) : Set Position := {p | ∃ path ∈ written, path.names <+: p}

/-- The positions on the way to certain paths, and those at or below certain paths. -/
def ways (paths written : List Path) : Set Position :=
  {p | ∃ path ∈ paths, p <+: path.names} ∪ grounds written

variable {paths written : List Path} {path : Path}

theorem findTrail_subset_ways (plain : path.IsPlain) (listed : path ∈ paths) (ending : Ending)
    (tree : FileTree) (linkless : tree.IsLinkless) :
    tree.findTrail ending path ⊆ ways paths written := fun _ looked =>
  .inl ⟨path, listed, tree.findTrail_subset linkless ending plain looked⟩

theorem isWithin_edit {ending : Ending} {operation : FileTree → Except FileError FileTree}
    {choose : Option Entry → Except FileError (Option Entry)} (plain : path.IsPlain)
    (listed : path ∈ paths) (own : path ∈ written)
    (edits : ∀ tree, operation tree = tree.edit ending path choose)
    (spares : ∀ entry, choose (some .directory) ≠ .ok entry)
    (other : ∀ present target, choose present ≠ .ok (some (.link target))) :
    IsWithin (ways paths written) (grounds written)
      (alter (·.findTrail ending path) (goals ending path) operation) := by
  rw [funext edits]
  refine isWithin_alter (operates_edit spares) (findTrail_subset_ways plain listed ending) ?_ ?_
  · exact fun tree linkless p goal => ⟨path, own, tree.goals_subset linkless ending plain goal⟩
  · exact fun tree next _ linkless done => linkless.edit spares other done

theorem isWithin_unlink (plain : path.IsPlain) (listed : path ∈ paths) (own : path ∈ written) :
    IsWithin (ways paths written) (grounds written) (unlink path) := by
  refine isWithin_edit plain listed own (unlink_eq_edit path) (fun _ => nofun) ?_
  rintro (_ | _ | _ | _) target made <;> cases made

theorem isWithin_write (plain : path.IsPlain) (listed : path ∈ paths) (own : path ∈ written)
    (content : String) : IsWithin (ways paths written) (grounds written) (write path content) := by
  refine isWithin_edit plain listed own (write_eq_edit path content) (fun _ => nofun) ?_
  rintro (_ | _ | _ | _) target made <;> cases made

theorem isWithin_makeDirectory (plain : path.IsPlain) (listed : path ∈ paths)
    (own : path ∈ written) :
    IsWithin (ways paths written) (grounds written) (makeDirectory path) := by
  refine isWithin_edit plain listed own (makeDirectory_eq_edit path) (fun _ => nofun) ?_
  rintro (_ | _ | _ | _) target made <;> cases made

theorem isWithin_rename {source target : Path} (plain : source.IsPlain) (plain' : target.IsPlain)
    (below : source.names ≠ []) (below' : target.names ≠ []) (listed : source ∈ paths)
    (listed' : target ∈ paths) (own : source ∈ written) (own' : target ∈ written) :
    IsWithin (ways paths written) (grounds written) (rename source target) := by
  have changed (tree : FileTree) (linkless : tree.IsLinkless) :
      places source target tree ⊆ grounds written := fun p place =>
    (tree.places_subset linkless plain plain' below below' place).elim
      (fun under => ⟨source, own, under⟩) fun under => ⟨target, own', under⟩
  refine isWithin_alter (operates_rename source target) ?_ changed ?_
  · rintro tree linkless p ((held | held') | place)
    · exact .inl ⟨source, listed, tree.holderTrail_subset linkless plain held⟩
    · exact .inl ⟨target, listed', tree.holderTrail_subset linkless plain' held'⟩
    · exact .inr (changed tree linkless place)
  · exact fun tree next proper linkless done => linkless.rename proper done

theorem isWithin_doesExist (plain : path.IsPlain) (listed : path ∈ paths) :
    IsWithin (ways paths written) (grounds written) (doesExist path) :=
  isWithin_ask _ (findTrail_subset_ways plain listed .followed)

theorem isWithin_content? (plain : path.IsPlain) (listed : path ∈ paths) :
    IsWithin (ways paths written) (grounds written) (content? path) :=
  isWithin_ask _ (findTrail_subset_ways plain listed .followed)

end Errand

end Montage
