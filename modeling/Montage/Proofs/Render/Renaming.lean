import Montage.Proofs.Render.Confinement

/-!
# Destinations under a new name

A new name that is a single name, and at which no link stands, gives a destination its sibling of
that name or is refused. But what a request gives as a new name may be any text, and is read as a
path: with a slash in it, or where a link stands, it leads to another directory of the gallery. So
the new destination is the sibling exactly if the text is a name and its place resolves to itself.
-/
namespace Montage

namespace Path

/-- The path of another name in the same directory. -/
def sibling (p : Path) (name : String) : Path := ⟨p.root, p.names.dropLast ++ [name]⟩

theorem sibling_parent (p : Path) (name : String) : (p.sibling name).parent = p.parent := by
  rw [parent, sibling, List.dropLast_concat]
  rfl

theorem sibling_name (p : Path) (name : String) : (p.sibling name).name = name := by
  rw [Path.name, sibling, List.getLastD_concat]

/-- The sibling is the only path in the directory that has the name. -/
theorem eq_sibling_iff (p q : Path) (name : String) (given : name ≠ "") :
    q = p.sibling name ↔ q.parent = p.parent ∧ q.name = name := by
  constructor
  · rintro rfl
    exact ⟨p.sibling_parent name, p.sibling_name name⟩
  · rintro ⟨beside, rfl⟩
    have below : q.names ≠ [] := by
      intro none
      exact given (by rw [Path.name, none]; rfl)
    obtain ⟨root, front⟩ := Path.mk.inj beside
    rw [sibling, ← root, ← front, q.name_eq below, List.dropLast_append_getLast below]

end Path

namespace FileTree

/-- A position without links resolves to itself or, if no file system takes one of its names, to
nothing. -/
theorem follow_cases_of_isReached (tree : FileTree) (known : Known) (position : Position)
    (names : List String) (h : tree.IsReached (position ++ names)) :
    tree.follow known position names [] = .resolved (position ++ names) ∨
      ∃ unfit, tree.follow known position names [] = .unfit unfit := by
  -- Each name is taken as it stands, so the position grows while the rest of the path shrinks.
  induction names generalizing position with
  | nil =>
    rw [follow, List.append_nil]
    exact .inl rfl
  | cons name rest ih =>
    have shape : position ++ [name] ++ rest = position ++ name :: rest := by
      rw [List.append_assoc, List.singleton_append]
    have named := h.named name (List.mem_append_right _ List.mem_cons_self)
    have free : tree.linkAt? (position ++ [name]) = none := h.clear _ ⟨rest, shape⟩
    have busy : ¬Path.isIdle name = true := Bool.eq_false_iff.mp named.busy
    by_cases unfit : Path.isUnfitName name = true
    · rw [follow, if_neg busy, if_neg named.down, if_pos unfit]
      exact .inr ⟨_, rfl⟩
    · rw [tree.follow_cons_free known position name rest [] busy named.down unfit free, ← shape]
      exact ih (position ++ [name]) (by rwa [shape])

theorem resolve_of_resolved {tree : FileTree} {path full : Path} (h : tree.Resolved path)
    (found : tree.resolve path = .ok full) : full = path := by
  have followed := tree.follow_cases_of_isReached [] [] path.names ⟨h.plain.named, h.clear⟩
  rw [List.nil_append] at followed
  have whole : Path.absolute path.names = path := by
    rw [Path.absolute, ← h.plain.root_eq]
  rw [resolve] at found
  rcases followed with reached | ⟨unfit, refused⟩
  · rw [reached] at found
    cases found
    exact whole
  · rw [refused] at found
    cases found

end FileTree

namespace Storage

open FileTree

variable {s : Storage} {tree : FileTree} {path newName : String} {own full : Path}

theorem destination_none :
    s.destination tree path none = s.fileDestination tree (Path.ofString path) path := by
  rw [destination]
  cases s.fileDestination tree (Path.ofString path) path <;> rfl

/-- Another name than the destination's own leads to another file. -/
theorem destination_some (given : newName ≠ "")
    (accepted : s.destination tree path none = .ok own) :
    s.destination tree path (some newName) =
      if newName = own.name then .ok own
      else s.fileDestination tree (s.renamed own newName) (s.renamed own newName).text := by
  have text : newName.isEmpty = false := by simpa using given
  rw [destination_none] at accepted
  rw [destination, accepted]
  simp only [text, Bool.false_or, decide_eq_true_eq]
  rfl

theorem isOutput_of_fileDestination {path : Path} {shown : String} (rooted : s.root.IsPlain)
    (whole : path.IsWhole) (h : s.fileDestination tree path shown = .ok full) :
    s.IsOutput tree full := by
  obtain ⟨resolved, below, file⟩ := (s.fileDestination_eq_ok_iff tree path shown full).mp h
  exact ⟨s.confines_of_resolve tree path shown full rooted whole resolved, below, file⟩

theorem IsOutput.names_ne (h : s.IsOutput tree own) (rooted : s.root.IsPlain) :
    own.names ≠ s.root.names := by
  intro same
  have root : own.root = s.root.root := h.confines.plain.root_eq.trans rooted.root_eq.symm
  have equal : own = ⟨own.root, own.names⟩ := rfl
  rw [root, same] at equal
  exact h.below equal

theorem IsOutput.isName (h : s.IsOutput tree own) (rooted : s.root.IsPlain) :
    Path.IsName own.name := by
  have below : own.names ≠ [] := by
    intro none
    have above := h.confines.under
    rw [none] at above
    exact h.names_ne rooted (none.trans (List.prefix_nil.mp above).symm)
  rw [own.name_eq below]
  exact h.confines.plain.named _ (List.getLast_mem below)

/-- A single name leads to the sibling of the destination. -/
theorem join_renamed (h : s.IsOutput tree own) (rooted : s.root.IsPlain)
    (named : Path.IsName newName) : s.root.join (s.renamed own newName) = own.sibling newName := by
  obtain ⟨rest, shape⟩ := h.confines.under
  have root : own.root = s.root.root := h.confines.plain.root_eq.trans rooted.root_eq.symm
  have nonempty : rest ≠ [] := by
    rintro rfl
    rw [List.append_nil] at shape
    exact h.names_ne rooted shape.symm
  -- The directory's names below the root are added to the root again.
  have under := h.confines.isUnder rooted
  have relative : s.renamed own newName = ⟨"", rest.dropLast ++ [newName]⟩ := by
    rw [renamed, Path.relativeTo?, if_pos under, named.ofString_eq, ← shape, List.drop_left]
    rfl
  rw [relative, Path.sibling, root, ← shape, List.dropLast_append_of_ne_nil nonempty,
    List.append_assoc]
  rfl

/-- Whatever the new name, an accepted destination is an output file. -/
theorem isOutput_of_destination (rooted : s.root.IsPlain) {name : Option String}
    (h : s.destination tree path name = .ok full) : s.IsOutput tree full := by
  obtain ⟨read, shown, whole, file⟩ := s.fileDestination_of_destination tree full path name h
  exact isOutput_of_fileDestination rooted (whole rooted.whole) file

theorem resolved_sibling (h : tree.Resolved own) (named : Path.IsName newName)
    (free : tree.linkAt? (own.sibling newName).names = none) :
    tree.Resolved (own.sibling newName) := by
  refine ⟨⟨h.plain.root_eq, ?_⟩, h.held.clear.snoc newName free⟩
  intro name member
  rcases List.mem_append.mp member with old | new
  · exact h.plain.named name ((List.dropLast_sublist own.names).subset old)
  · rwa [List.mem_singleton.mp new]

/-- A single name is the destination's own, or leads to where its sibling of that name does. -/
theorem renamed_cases (output : s.IsOutput tree own) (rooted : s.root.IsPlain)
    (named : Path.IsName newName) (accepted : s.destination tree path none = .ok own)
    (found : s.destination tree path (some newName) = .ok full) :
    newName = own.name ∧ full = own.sibling newName ∨
      newName ≠ own.name ∧ tree.resolve (own.sibling newName) = .ok full := by
  rw [destination_some named.ne_empty accepted] at found
  split at found
  next same =>
    cases found
    exact .inl ⟨same, (own.eq_sibling_iff own newName named.ne_empty).mpr ⟨rfl, same.symm⟩⟩
  next other =>
    have resolved := ((s.fileDestination_eq_ok_iff tree _ _ full).mp found).1
    rw [← join_renamed output rooted named]
    exact .inr ⟨other, ((s.resolve_eq_ok_iff tree _ _ full).mp resolved).1⟩

theorem destination_sibling_iff (output : s.IsOutput tree own) (rooted : s.root.IsPlain)
    (named : Path.IsName newName) (other : newName ≠ own.name)
    (accepted : s.destination tree path none = .ok own)
    (stays : tree.resolve (own.sibling newName) = .ok (own.sibling newName)) :
    s.destination tree path (some newName) = .ok (own.sibling newName) ↔
      tree.isDirectory (own.sibling newName) = .ok false := by
  have root : own.root = s.root.root := output.confines.plain.root_eq.trans rooted.root_eq.symm
  -- The destination is below the root, so its directory is the root or below it, and the sibling is
  -- below the root too.
  have above : s.root.names <+: own.names.dropLast :=
    prefix_dropLast_of_ne output.confines.under (output.names_ne rooted).symm
  have under : (own.sibling newName).isUnder s.root = true := by
    rw [Path.isUnder, Path.sibling, root, Bool.and_eq_true]
    exact ⟨decide_eq_true rfl,
      List.isPrefixOf_iff_prefix.mpr (above.trans (List.prefix_append _ _))⟩
  have below : own.sibling newName ≠ s.root := by
    intro same
    have lengths := congrArg List.length (congrArg Path.names same)
    rw [Path.sibling, List.length_append, List.length_singleton] at lengths
    have := above.length_le
    omega
  rw [destination_some named.ne_empty accepted, if_neg other, fileDestination_eq_ok_iff,
    resolve_eq_ok_iff, join_renamed output rooted named]
  exact ⟨fun h => h.2.2, fun file => ⟨⟨stays, under⟩, below, file⟩⟩

/-- A destination that was renamed is the sibling of the new name exactly if the new name is a name
and its place resolves to itself, or is the name of the destination already. The place of a name
does so if no link stands there and the destination was resolved, as it always is without links
that lead back to themselves. A place that resolves to itself is accepted unless it is a
directory. -/
theorem destination_renames_iff (s : Storage) (tree : FileTree) (path newName : String) (own : Path)
    (rooted : s.root.IsPlain) (given : newName ≠ "")
    (accepted : s.destination tree path none = .ok own) :
    (∀ full, s.destination tree path (some newName) = .ok full →
      ((full.parent = own.parent ∧ full.name = newName) ↔ Path.IsName newName ∧
        (newName = own.name ∨
          tree.resolve (own.sibling newName) = .ok (own.sibling newName)))) ∧
    (Path.IsName newName → tree.linkAt? (own.sibling newName).names = none →
      (tree.HasEndlessLink → tree.Resolved own) →
      ∀ full, s.destination tree path (some newName) = .ok full →
        full.parent = own.parent ∧ full.name = newName) ∧
    (Path.IsName newName → newName ≠ own.name →
      tree.resolve (own.sibling newName) = .ok (own.sibling newName) →
      (s.destination tree path (some newName) = .ok (own.sibling newName) ↔
        tree.isDirectory (own.sibling newName) = .ok false)) := by
  have output := isOutput_of_destination rooted accepted
  refine ⟨?_, ?_, fun named other => destination_sibling_iff output rooted named other accepted⟩
  · intro full found
    rw [← own.eq_sibling_iff full newName given]
    constructor
    · rintro rfl
      -- A path that comes out of the gallery ends in a name, whatever was asked for.
      have named := (isOutput_of_destination rooted found).isName rooted
      rw [own.sibling_name newName] at named
      refine ⟨named, ?_⟩
      exact (renamed_cases output rooted named accepted found).imp And.left And.right
    · rintro ⟨named, stays⟩
      rcases renamed_cases output rooted named accepted found with ⟨_, kept⟩ | ⟨other, led⟩
      · exact kept
      · exact Except.ok.inj (led.symm.trans (stays.resolve_left other))
  · intro named free loops full found
    rw [← own.eq_sibling_iff full newName given]
    have resolved : tree.Resolved own := output.confines.resolved.elim id loops
    rcases renamed_cases output rooted named accepted found with ⟨_, kept⟩ | ⟨_, led⟩
    · exact kept
    · exact resolve_of_resolved (resolved_sibling resolved named free) led

/-- The storage of the sample gallery. -/
def sample : Storage := ⟨.absolute ["gallery"], ".rendering"⟩

/-- What paths lead to in a gallery without links. -/
theorem destination_sample (tree : FileTree) (linkless : tree.IsLinkless) (text : String)
    (names : List String) (read : Path.ofString text = ⟨"", names⟩)
    (named : ∀ name ∈ sample.root.names ++ names, Path.IsName name)
    (unbroken : ∀ name ∈ sample.root.names ++ names, Path.isUnfitName name = false)
    (below : names ≠ [])
    (absent : tree.entry (.absolute (sample.root.names ++ names)) = .ok none) :
    sample.destination tree text none = .ok (.absolute (sample.root.names ++ names)) := by
  have place := linkless.isReached _ named
  have file := place.resolved.isDirectory_of_entry absent nofun
  refine sample.destination_of_file tree _ _ ((sample.fileDestination_eq_ok_iff ..).mpr
    ⟨?_, ?_, file⟩)
  · rw [read]
    exact sample.resolve_of_isReached tree _ _ rfl rfl place unbroken
  · intro same
    exact below (List.append_right_eq_self.mp (congrArg Path.names same))

/-- A film that is not there yet stands beside its old place under another name. -/
theorem destination_renames_sample :
    let own : Path := .absolute ["gallery", "film.mp4"]
    let full : Path := .absolute ["gallery", "final.mp4"]
    sample.root.IsPlain ∧ "final.mp4" ≠ "" ∧ sample.destination .sample "film.mp4" none = .ok own ∧
      sample.destination .sample "film.mp4" (some "final.mp4") = .ok full ∧
      full.parent = own.parent ∧ full.name = "final.mp4" := by
  intro own full
  have rooted : sample.root.IsPlain := ⟨rfl, by decide⟩
  have linkless : FileTree.sample.IsLinkless := by decide
  have accepted : sample.destination .sample "film.mp4" none = .ok own :=
    destination_sample .sample linkless "film.mp4" ["film.mp4"] (by decide)
      (by decide) (by decide) (by decide) (by decide)
  obtain ⟨_, beside, accepts⟩ := destination_renames_iff sample .sample "film.mp4" "final.mp4" own
    rooted (by decide) accepted
  have place := linkless.isReached full.names (by decide)
  have stays := place.resolve_eq (by decide)
  have absent : FileTree.sample.entry full = .ok none := by decide
  have file := place.resolved.isDirectory_of_entry absent nofun
  -- The new name is free and no link stands at it, so the renamed destination is accepted.
  have found : sample.destination .sample "film.mp4" (some "final.mp4") = .ok full :=
    (accepts (by decide) (by decide) stays).mpr file
  have resolved := (linkless.isReached own.names (by decide)).resolved
  exact ⟨rooted, by decide, accepted, found, beside (by decide)
    (linkless.linkAt?_eq_none _) (fun _ => resolved) full found⟩

end Storage

/-- A gallery with a directory for finished films. -/
def FileTree.shelved : FileTree :=
  ⟨[(["gallery"], .directory), (["gallery", "exports"], .directory)]⟩

/-- A new name with double dots leads out of the destination's directory. -/
theorem Storage.not_destination_renames :
    sample.destination .shelved "exports/out.mp4" none =
        .ok (.absolute ["gallery", "exports", "out.mp4"]) ∧
      sample.destination .shelved "exports/out.mp4" (some "../clip.mp4") =
        .ok (.absolute ["gallery", "clip.mp4"]) ∧
      (Path.absolute ["gallery", "clip.mp4"]).parent ≠
        (Path.absolute ["gallery", "exports", "out.mp4"]).parent := by
  have linkless : FileTree.shelved.IsLinkless := by decide
  have own : sample.destination .shelved "exports/out.mp4" none =
      .ok (.absolute ["gallery", "exports", "out.mp4"]) :=
    destination_sample .shelved linkless "exports/out.mp4" ["exports", "out.mp4"]
      (by decide) (by decide) (by decide) (by decide) (by decide)
  have followed : FileTree.shelved.follow [] [] ["gallery", "exports", "..", "clip.mp4"] [] =
      .resolved ["gallery", "clip.mp4"] := by
    have free (p : Position) := linkless.linkAt?_eq_none p
    rw [FileTree.follow_cons_free _ _ _ "gallery" _ _ (by decide) (by decide)
      (by decide) (free _), FileTree.follow_cons_free _ _ _ "exports" _ _
      (by decide) (by decide) (by decide) (free _), FileTree.follow,
      if_neg (by decide), if_pos rfl, FileTree.follow_cons_free _ _ _ "clip.mp4" _ _
      (by decide) (by decide) (by decide) (free _), FileTree.follow]
    rfl
  have place := linkless.isReached ["gallery", "clip.mp4"] (by decide)
  have absent : FileTree.shelved.entry (.absolute ["gallery", "clip.mp4"]) = .ok none := by
    decide
  have file := place.resolved.isDirectory_of_entry absent (Option.some_ne_none _).symm
  have renamed : sample.renamed (.absolute ["gallery", "exports", "out.mp4"]) "../clip.mp4" =
      ⟨"", ["exports", "..", "clip.mp4"]⟩ := by decide
  refine ⟨own, ?_, by decide⟩
  -- The new name is put after the directory and resolved again, dots and all.
  rw [destination_some (by decide) own, if_neg (by decide), renamed]
  have led : FileTree.shelved.resolve (.absolute ["gallery", "exports", "..", "clip.mp4"]) =
      .ok (.absolute ["gallery", "clip.mp4"]) :=
    (FileTree.shelved.resolve_eq_ok_iff ..).mpr (.inl ⟨_, followed, rfl⟩)
  exact (sample.fileDestination_eq_ok_iff ..).mpr
    ⟨(sample.resolve_eq_ok_iff ..).mpr ⟨led, by rfl⟩, by decide, file⟩

end Montage
