import Montage.Proofs.Gallery.Links
import Montage.Proofs.Gallery.Walk
import Montage.Proofs.Graph.Assembly
import Montage.Proofs.Render.Alone

/-!
# The destination of a render

The engine writes next to the destination, so that a render that fails can leave the destination as
it was. It does so in all cases but one: what is at the destination is removed before the written
file is moved there, and an engine that has returned without writing one leaves nothing to move.
-/
namespace Montage

open FileTree

namespace Production

/-- An engine that is given a path without links changes the entry at that path alone. -/
theorem edited_performAll (output : Path) (actions : List OutputAction) (tree : FileTree)
    (h : tree.Resolved output) : Edited [output] tree (performAll output actions tree).1 := by
  induction actions generalizing tree with
  | nil => exact .refl [output] tree
  | cons action rest ih =>
    rw [performAll]
    cases done : action.perform tree output with
    | error e => exact .refl [output] tree
    | ok next =>
      have step : Edited [output] tree next := by
        cases action with
        | write content => exact edited_of_write h content next done
        | makeDirectory => exact edited_of_makeDirectory h.held next done
      exact step.trans (ih next (step.links.resolved h))

/-- An engine that is given a link changes files alone, and if it changes any, the link can be
looked up. -/
theorem alike_performAll (output : Path) (actions : List OutputAction) (tree : FileTree)
    (target : String) (h : tree.Held output)
    (linked : tree.get? output.names = some (.link target)) :
    Alike tree (performAll output actions tree).1 ∧
      ((performAll output actions tree).1 = tree ∨
        (performAll output actions tree).1.entry output = .ok (some (.link target))) := by
  induction actions generalizing tree with
  | nil => exact ⟨.refl tree, .inl rfl⟩
  | cons action rest ih =>
    rw [performAll]
    cases done : action.perform tree output with
    | error e => exact ⟨.refl tree, .inl rfl⟩
    | ok next =>
      cases action with
      | write content =>
        have step := tree.alike_of_write output content next done
        have there := h.entry_of_write content target next linked done
        have linked' := (next.entry_ok output _ there).1
        obtain ⟨later, unchanged | changed⟩ := ih next (step.linksWithin.held h) linked'.symm
        · refine ⟨step.trans later, .inr ?_⟩
          dsimp only
          rw [unchanged, there]
        · exact ⟨step.trans later, .inr changed⟩
      | makeDirectory =>
        have done' : tree.makeDirectory output = .ok next := done
        rw [h.makeDirectory_eq] at done'
        split at done'
        · cases done'
        · cases done'
        next absent =>
          -- A directory is made only where nothing stands, not even a link.
          have missing := (tree.entry_ok output none absent).1
          rw [linked] at missing
          cases missing

theorem perform_tree (p : Production) (output : Path) (tree : FileTree) :
    (p.perform tree output).tree = (performAll output p.actions tree).1 := by
  unfold perform
  split
  next done e performed => rw [performed]
  next done performed => rw [performed]

end Production

namespace Storage

/-- Discarding a file edits its path alone. -/
theorem edited_discard (tree : FileTree) (path : Path) (h : tree.Held path) :
    Edited [path] tree (discard tree path).tree := by
  unfold discard
  split
  next removed ok => exact edited_of_unlink h removed ok
  · exact .refl [path] tree
  · split <;> exact .refl [path] tree

/-- There may be nothing to discard. -/
theorem discard_of_absent (tree : FileTree) (path : Path) (h : tree.Held path)
    (absent : tree.entry path = .ok none) : (discard tree path).tree = tree := by
  rw [discard, h.unlink_eq, absent]
  rfl

theorem discard_of_file (tree : FileTree) (path : Path) (content : String) (h : tree.Held path)
    (file : tree.entry path = .ok (some (.file content))) :
    (discard tree path).tree = tree.erase path.names := by
  rw [discard, h.unlink_eq, file]

/-- The two paths of a replacement. -/
structure Beside (tree : FileTree) (temp destination : Path) : Prop where
  held : tree.Held temp
  resolved : tree.Resolved destination
  tempApart : ¬temp.names <+: destination.names
  destinationApart : ¬destination.names <+: temp.names

namespace Beside

variable {tree : FileTree} {temp destination : Path}

theorem temp_ne_nil (h : Beside tree temp destination) : temp.names ≠ [] := fun empty =>
  h.tempApart (by rw [empty]; exact List.nil_prefix)

theorem destination_ne_nil (h : Beside tree temp destination) : destination.names ≠ [] :=
  fun empty => h.destinationApart (by rw [empty]; exact List.nil_prefix)

theorem within (h : Beside tree temp destination) {next : FileTree}
    (links : next.LinksWithin tree) : Beside next temp destination :=
  ⟨links.held h.held, links.resolved h.resolved, h.tempApart, h.destinationApart⟩

end Beside

/-- An old file is removed before the rename, and is gone also when that fails. -/
theorem replaceSteps_of_present (tree : FileTree) (temp destination : Path)
    (h : tree.Resolved destination) (entry : Entry)
    (present : tree.entry destination = .ok (some entry)) (file : entry ≠ .directory) :
    replaceSteps tree temp destination =
      match (tree.erase destination.names).rename temp destination with
      | .error e => (tree.erase destination.names, some e)
      | .ok moved => (moved, none) := by
  -- The file is seen, then removed, and the rename finds the place free.
  have doesExist : tree.doesExist destination = .ok true := by
    rw [FileTree.doesExist, h.test_eq, tree.isUnfit_of_entry destination _ present, present]
    rfl
  have cleared : tree.unlink destination = .ok (tree.erase destination.names) := by
    rw [h.held.unlink_eq, present]
    cases entry with
    | directory => exact absurd rfl file
    | file content => rfl
    | link target => rfl
  have stepped := replaceSteps.eq_def tree temp destination
  simp only [doesExist, if_true, cleared] at stepped
  exact stepped

/-- Where something is at the destination, it is removed whether or not there is something to be
moved in its place. -/
theorem replace_of_present (tree : FileTree) (temp destination : Path)
    (h : Beside tree temp destination) (entry : Entry)
    (present : tree.entry destination = .ok (some entry)) (file : entry ≠ .directory) :
    (∃ moved, replace tree temp destination = (moved, .ok ()) ∧
      ∃ written, tree.entry temp = .ok (some written)) ∨
    (∃ e, replace tree temp destination = (tree.erase destination.names, .error e) ∧
      ∀ written, tree.entry temp ≠ .ok (some written)) := by
  have erased := Edited.erase tree destination h.destination_ne_nil
  have beside := h.within erased.links
  have sameTemp : (tree.erase destination.names).entry temp = tree.entry temp := by
    refine erased.entry_eq temp fun path member => ?_
    rw [List.mem_singleton.mp member]
    exact h.destinationApart
  rw [replace, replaceSteps_of_present tree temp destination h.resolved entry present file]
  -- By now the destination is gone, and all depends on whether there is something to move.
  cases renamed : (tree.erase destination.names).rename temp destination with
  | ok moved =>
    obtain ⟨written, _, found, _⟩ := FileTree.rename_ok beside.held beside.resolved.held
      h.temp_ne_nil h.destination_ne_nil moved renamed
    exact .inl ⟨moved, rfl, written, by rw [← sameTemp, found]⟩
  | error e =>
    have missing (written : Entry) : tree.entry temp ≠ .ok (some written) := by
      intro found
      have free : (tree.erase destination.names).moveObstacle temp.names written
          destination.names none = none := by
        rw [moveObstacle, if_neg, if_neg]
        · rw [List.isPrefixOf_iff_prefix]
          exact h.destinationApart
        · rw [List.isPrefixOf_iff_prefix]
          exact h.tempApart
      have other : temp.names ≠ destination.names := fun same =>
        h.tempApart (same ▸ List.prefix_rfl)
      have moves := FileTree.rename_eq beside.held beside.resolved.held h.temp_ne_nil
        h.destination_ne_nil (tree.isUnfit_of_entry temp _ found)
        (tree.isUnfit_of_entry destination _ present) (some written) none (by rw [sameTemp, found])
        (tree.entry_erase destination entry present h.destination_ne_nil)
      dsimp only at moves
      rw [if_neg other, free, renamed] at moves
      cases moves
    right
    dsimp only
    split <;> exact ⟨_, rfl, missing⟩

/-- Where nothing is at the destination, a replacement that fails changes nothing. -/
theorem replace_of_absent (tree : FileTree) (temp destination : Path)
    (h : tree.Resolved destination)
    (absent : ∀ entry, tree.entry destination ≠ .ok (some entry)) :
    (∃ moved, replace tree temp destination = (moved, .ok ())) ∨
      ∃ e, replace tree temp destination = (tree, .error e) := by
  have steps : (∃ moved, replaceSteps tree temp destination = (moved, none)) ∨
      ∃ e, replaceSteps tree temp destination = (tree, some e) := by
    unfold replaceSteps
    cases there : tree.doesExist destination with
    | error e => exact .inr ⟨e, rfl⟩
    | ok present =>
      cases present with
      -- The rename is the only step that is left, and it changes nothing when it fails.
      | false =>
        simp only [Bool.false_eq_true, if_false]
        cases tree.rename temp destination with
        | ok moved => exact .inl ⟨moved, rfl⟩
        | error e => exact .inr ⟨e, rfl⟩
      | true =>
        -- The destination cannot be said to exist, since the names of its path lead to nothing.
        rw [FileTree.doesExist, h.test_eq] at there
        split at there
        · cases there
        split at there
        next entry found => exact absurd found (absent entry)
        · cases there
        · split at there <;> cases there
        · cases there
  unfold replace
  rcases steps with ⟨moved, done⟩ | ⟨e, failed⟩
  · rw [done]
    exact .inl ⟨moved, rfl⟩
  · rw [failed]
    dsimp only
    split <;> exact .inr ⟨_, rfl⟩

end Storage

/-- Whether something stands where a path points, be it a link. -/
def FileTree.HasEntry (tree : FileTree) (path : Path) : Prop :=
  ∃ position entry, tree.find .kept path = .ok (position, some entry)

theorem FileTree.Held.find_eq_iff {tree other : FileTree} {path : Path} (h : tree.Held path)
    (h' : other.Held path) :
    other.find .kept path = tree.find .kept path ↔ other.entry path = tree.entry path := by
  rw [h.find_eq, h'.find_eq]
  cases tree.entry path <;> cases other.entry path <;> simp [Except.map]

theorem FileTree.Held.hasEntry_iff {tree : FileTree} {path : Path} (h : tree.Held path) :
    tree.HasEntry path ↔ ∃ entry, tree.entry path = .ok (some entry) := by
  rw [HasEntry, h.find_eq]
  cases tree.entry path with
  | error e => simp [Except.map]
  | ok entry => simp [Except.map]

namespace Renderer

variable (r : Renderer)

/-- The engine is given what stands at its inputs. -/
theorem produced_eq (job : Job) (output : Path) (tree : FileTree) (plain : output.IsPlain) :
    r.produced job output tree =
      (r.engine.produce (call job output)
        (job.graph.inputs.map fun path => tree.content? (Path.ofString path))).perform tree
          output := by
  unfold produced
  change Production.perform _ tree (.ofString output.text) = _
  rw [plain.ofString_text]

/-- At a resolved output the engine edits its output alone. -/
theorem edited_produced (job : Job) (output : Path) (tree : FileTree) (h : tree.Resolved output) :
    Edited [output] tree (r.produced job output tree).tree := by
  rw [r.produced_eq job output tree h.plain, Production.perform_tree]
  exact Production.edited_performAll output _ tree h

/-- What the engine does at the output path, or through a link that stands there. -/
theorem produced_cases (job : Job) (output : Path) (tree : FileTree) (h : tree.Held output) :
    Edited [output] tree (r.produced job output tree).tree ∨
      ∃ target, tree.linkAt? output.names = some target ∧
        Alike tree (r.produced job output tree).tree ∧
        ((r.produced job output tree).tree = tree ∨
          (r.produced job output tree).tree.entry output = .ok (some (.link target))) := by
  -- Without a link at its end the output path is resolved, and the engine writes in place.
  cases linked : tree.linkAt? output.names with
  | none => exact .inl (r.edited_produced job output tree (h.resolved linked))
  | some target =>
    right
    have found : tree.get? output.names = some (.link target) := by
      unfold linkAt? at linked
      split at linked
      next there =>
        cases linked
        exact there
      next => cases linked
    rw [r.produced_eq job output tree h.plain, Production.perform_tree]
    exact ⟨target, rfl, Production.alike_performAll output _ tree target h found⟩

/-- The engine makes no link. -/
theorem links_produced (job : Job) (output : Path) (tree : FileTree) (h : tree.Held output) :
    (r.produced job output tree).tree.LinksWithin tree := by
  rcases r.produced_cases job output tree h with edited | ⟨_, _, alike, _⟩
  · exact edited.links
  · exact alike.linksWithin

theorem edited_abandoned (output : Path) (e : Failure) (tree : FileTree) (h : tree.Held output) :
    Edited [output] tree (r.abandoned output e tree).1 :=
  Storage.edited_discard tree output h

/-- A job whose engine returns without a file while something stands at the destination. -/
structure Loses (tree : FileTree) (job : Job) (output : Path) : Prop where
  present : tree.HasEntry job.destination
  returned : (r.produced job output tree).failure = none
  missing : ¬(r.produced job output tree).tree.HasEntry output

/-- A job whose engine reaches the destination through a link that stands at the output path. -/
structure Overwrites (tree : FileTree) (job : Job) (output : Path) : Prop where
  linked : tree.linkAt? output.names ≠ none
  changed : (r.produced job output tree).tree.find .kept job.destination ≠
    tree.find .kept job.destination

theorem success_result (e : Failure) : e.result.success = false := by
  cases e <;> rfl

/-- Before a silent observer every failure has a negative result. -/
theorem exists_verdict (silent : ∀ state, r.check state = none) (e : Failure) :
    ∃ result, r.verdict e = .ok result ∧ result.success = false := by
  rw [verdict, silent]
  exact ⟨e.result, rfl, success_result e⟩

theorem exists_abandoned (silent : ∀ state, r.check state = none) (output : Path) (e : Failure)
    (tree : FileTree) :
    ∃ result, (r.abandoned output e tree).2 = .ok result ∧ result.success = false := by
  simp only [abandoned]
  cases (Storage.discard tree output).result with
  | ok removed => exact r.exists_verdict silent e
  | error e => exact r.exists_verdict silent (.file e)

variable {r} {job : Job} {output : Path} {tree : FileTree}

/-- What happens at the temporary path leaves the entry at the destination alone. -/
theorem find_of_edited (beside : Storage.Beside tree output job.destination) {next : FileTree}
    (edited : Edited [output] tree next) :
    next.find .kept job.destination = tree.find .kept job.destination := by
  rw [beside.resolved.held.find_eq_iff (edited.links.held beside.resolved.held)]
  refine edited.entry_eq job.destination fun path member => ?_
  rw [List.mem_singleton.mp member]
  exact beside.tempApart

/-- Where the engine has returned and what it left has been moved, the render is announced. -/
theorem encoded_of_replace (quiet : r.check .finalizing = none) (moved : FileTree)
    (returned : (r.produced job output tree).failure = none)
    (replaced : Storage.replace (r.produced job output tree).tree output job.destination =
      (moved, .ok ())) : r.encoded job output tree = r.announced job moved := by
  rw [encoded, returned]
  dsimp only
  rw [finalized, quiet]
  dsimp only
  rw [replaced]

/-- Where the engine has left no file, the destination goes and the render fails. -/
theorem encoded_of_missing (silent : ∀ state, r.check state = none)
    (beside : Storage.Beside tree output job.destination) (entry : Entry)
    (present : (r.produced job output tree).tree.entry job.destination = .ok (some entry))
    (file : entry ≠ .directory) (returned : (r.produced job output tree).failure = none)
    (missing : ¬(r.produced job output tree).tree.HasEntry output) :
    (r.encoded job output tree).1.find .kept job.destination =
        .ok (job.destination.names, none) ∧
      ∃ result, (r.encoded job output tree).2 = .ok result ∧ result.success = false := by
  have beside' := beside.within (r.links_produced job output tree beside.held)
  rw [encoded, finalized, returned, silent]
  dsimp only
  generalize (r.produced job output tree).tree = after at beside' present missing ⊢
  -- The destination is cleared before the rename finds nothing to move.
  rcases Storage.replace_of_present after output job.destination beside' entry present file with
    ⟨moved, _, written, there⟩ | ⟨e, lost, _⟩
  · exact absurd (beside'.held.hasEntry_iff.mpr ⟨written, there⟩) missing
  · rw [lost]
    refine ⟨?_, r.exists_abandoned silent output e.failure _⟩
    have erased := Edited.erase after job.destination beside.destination_ne_nil
    have beside'' := beside'.within erased.links
    have gone := after.entry_erase job.destination entry present beside.destination_ne_nil
    dsimp only
    rw [find_of_edited beside'' (r.edited_abandoned output e.failure _ beside''.held),
      beside''.resolved.held.find_eq, gone]
    rfl

/-- A render that fails after the engine was called leaves the destination as the engine did, or
loses it. -/
theorem find_encoded (silent : ∀ state, r.check state = none)
    (beside : Storage.Beside tree output job.destination)
    (file : (r.produced job output tree).tree.entry job.destination ≠ .ok (some .directory))
    (result : RenderResult) (answer : (r.encoded job output tree).2 = .ok result)
    (failed : result.success = false) :
    ((r.encoded job output tree).1.find .kept job.destination =
        (r.produced job output tree).tree.find .kept job.destination ∧
      ¬((r.produced job output tree).failure = none ∧
        (r.produced job output tree).tree.HasEntry job.destination)) ∨
    ((r.encoded job output tree).1.find .kept job.destination =
        .ok (job.destination.names, none) ∧
      (r.produced job output tree).failure = none ∧
      (r.produced job output tree).tree.HasEntry job.destination ∧
      ¬(r.produced job output tree).tree.HasEntry output) := by
  have beside' := beside.within (r.links_produced job output tree beside.held)
  have lost := encoded_of_missing silent beside
  unfold encoded at answer lost ⊢
  cases returned : (r.produced job output tree).failure with
  | some e =>
    left
    exact ⟨find_of_edited beside' (r.edited_abandoned output e _ beside'.held), by simp⟩
  | none =>
    simp only [returned] at answer lost ⊢
    generalize (r.produced job output tree).tree = after at beside' file answer lost ⊢
    unfold finalized at answer lost ⊢
    simp only [silent] at answer lost ⊢
    -- A replacement that succeeds ends in success, so only the failing ones are left.
    have unsuccessful (moved : FileTree)
        (done : Storage.replace after output job.destination = (moved, .ok ())) : False := by
      rw [done] at answer
      dsimp only [announced] at answer
      rw [silent] at answer
      cases answer
      cases failed
    by_cases present : after.HasEntry job.destination
    · right
      obtain ⟨entry, found⟩ := beside'.resolved.held.hasEntry_iff.mp present
      have notDirectory : entry ≠ .directory := by
        rintro rfl
        exact file found
      rcases Storage.replace_of_present after output job.destination beside' entry found
        notDirectory with ⟨moved, done, _⟩ | ⟨e, _, missing⟩
      · exact (unsuccessful moved done).elim
      · have away : ¬after.HasEntry output := by
          rw [beside'.held.hasEntry_iff]
          rintro ⟨written, there⟩
          exact missing written there
        exact ⟨(lost entry found notDirectory trivial away).1, trivial, present, away⟩
    · left
      have absent (entry) : after.entry job.destination ≠ .ok (some entry) := fun found =>
        present (beside'.resolved.held.hasEntry_iff.mpr ⟨entry, found⟩)
      refine ⟨?_, fun both => present both.2⟩
      rcases Storage.replace_of_absent after output job.destination beside'.resolved absent with
        ⟨moved, done⟩ | ⟨e, unchanged⟩
      · exact (unsuccessful moved done).elim
      · rw [unchanged]
        exact find_of_edited beside' (r.edited_abandoned output e.failure after beside'.held)

/-- The engine does not put a directory in the destination's place. -/
theorem entry_produced_ne (beside : Storage.Beside tree output job.destination)
    (file : tree.entry job.destination ≠ .ok (some .directory)) :
    (r.produced job output tree).tree.entry job.destination ≠ .ok (some .directory) := by
  rcases r.produced_cases job output tree beside.held with edited | ⟨_, _, alike, _⟩
  · have same := (beside.resolved.held.find_eq_iff
      (edited.links.held beside.resolved.held)).mp (find_of_edited beside edited)
    rwa [same]
  · intro directory
    have here := ((r.produced job output tree).tree.entry_ok job.destination _ directory).1
    refine file ?_
    rw [alike.symm.entry_ok job.destination _ directory, (alike.directories _).mp here.symm]

/-- Of a job whose render fails the destination is as it was before, but where the engine leaves
no file for it, or reaches it through a link. -/
theorem encoded_keeps_destination_iff (silent : ∀ state, r.check state = none)
    (beside : Storage.Beside tree output job.destination)
    (file : tree.entry job.destination ≠ .ok (some .directory)) (result : RenderResult)
    (answer : (r.encoded job output tree).2 = .ok result) (failed : result.success = false) :
    (r.encoded job output tree).1.find .kept job.destination = tree.find .kept job.destination ↔
      ¬(r.Loses tree job output ∨ r.Overwrites tree job output) := by
  have ends := find_encoded silent beside (entry_produced_ne beside file) result answer failed
  -- What the engine has left at the destination decides, for the end leaves that or deletes it.
  by_cases same : (r.produced job output tree).tree.find .kept job.destination =
      tree.find .kept job.destination
  · have present : (r.produced job output tree).tree.HasEntry job.destination ↔
        tree.HasEntry job.destination := by
      rw [HasEntry, HasEntry, same]
    rcases ends with ⟨final, safe⟩ | ⟨final, returned, there, missing⟩
    · refine iff_of_true (final.trans same) ?_
      rintro (loses | overwrites)
      · exact safe ⟨loses.returned, present.mpr loses.present⟩
      · exact overwrites.changed same
    · refine iff_of_false ?_ (not_not.mpr (.inl ⟨present.mp there, returned, missing⟩))
      obtain ⟨position, entry, found⟩ := present.mp there
      rw [final, found]
      exact nofun
  · -- Only an engine that has gone through a link can have changed the destination.
    rcases r.produced_cases job output tree beside.held with
      edited | ⟨target, linked, _, unchanged | link⟩
    · exact absurd (find_of_edited beside edited) same
    · exact absurd (by rw [unchanged]) same
    · have free : tree.linkAt? output.names ≠ none := by
        rw [linked]
        exact Option.some_ne_none target
      refine iff_of_false ?_ (not_not.mpr (.inr ⟨free, same⟩))
      rcases ends with ⟨final, _⟩ | ⟨_, _, _, missing⟩
      · rwa [final]
      · refine absurd ?_ missing
        have held := (r.links_produced job output tree beside.held).held beside.held
        exact held.hasEntry_iff.mpr ⟨_, link⟩

/-- The inputs of a job's graph are sources of clips that are long enough to show. -/
theorem mem_sources_of_jobOf (destination : Path) (timeline : Timeline Binary64)
    (cache : SourceCache) (job : Job) (made : r.jobOf destination timeline cache = .ok job)
    (input : String) (listed : input ∈ job.graph.inputs) : input ∈ r.sources timeline := by
  unfold jobOf at made
  split at made
  · cases made
  next graph compiled =>
    obtain ⟨placed, parts⟩ := compileTimeline_assembled timeline cache r.compileOptions graph
      compiled
    rw [← Except.ok.inj made] at listed
    have kept : input ∈ distinct
        ((timeline.kept r.compileOptions.minClipDuration).map (·.sourcePath)) := by
      rw [← parts.inputs_eq]
      exact listed
    rw [mem_distinct, Timeline.kept, List.map_map] at kept
    exact kept

/-- A planned destination has passed the check of files. -/
theorem destination_of_plan (tree : FileTree) (request : RenderRequest) (destination : Path)
    (timeline : Timeline Binary64) (h : r.plan tree request = .ok (destination, timeline)) :
    ∃ path shown, (r.storage.root.IsWhole → path.IsWhole) ∧
      r.storage.fileDestination tree path shown = .ok destination := by
  obtain ⟨full, found, h⟩ := Except.bind_eq_ok_iff.mp h
  obtain ⟨resolved, _, h⟩ := Except.bind_eq_ok_iff.mp h
  cases h
  rw [Except.mapError_eq_ok_iff] at found
  exact r.storage.fileDestination_of_destination tree destination _ _ found

/-- A planned destination is no directory. -/
theorem isDirectory_of_plan (tree : FileTree) (request : RenderRequest) (destination : Path)
    (timeline : Timeline Binary64) (h : r.plan tree request = .ok (destination, timeline)) :
    tree.isDirectory destination = .ok false := by
  obtain ⟨path, shown, _, file⟩ := destination_of_plan tree request destination timeline h
  exact ((r.storage.fileDestination_eq_ok_iff tree path shown destination).mp file).2.2

/-- A destination that has been planned leads where its names say, unless an endless link was
met. -/
theorem resolved_of_plan (tree : FileTree) (request : RenderRequest) (destination : Path)
    (timeline : Timeline Binary64) (rooted : r.storage.root.IsWhole)
    (h : r.plan tree request = .ok (destination, timeline)) :
    tree.Resolved destination ∨ tree.HasEndlessLink := by
  obtain ⟨path, shown, whole, file⟩ := destination_of_plan tree request destination timeline h
  have resolved := ((r.storage.fileDestination_eq_ok_iff tree path shown destination).mp file).1
  have led := ((r.storage.resolve_eq_ok_iff tree path shown destination).mp resolved).1
  exact (tree.resolved_of_resolve _ destination (rooted.join (whole rooted)) led).2

end Renderer

/-- The temporary file of a resolved destination is named in the same directory. -/
theorem Storage.held_tempPath (s : Storage) (tree : FileTree) (destination output : Path)
    (whole : '/' ∉ s.tempSuffix.toList) (resolved : tree.Resolved destination)
    (temp : s.tempPath destination = .ok output) :
    tree.Held output ∧ output.names ≠ [] ∧ destination.names ≠ [] ∧
      output.names.length = destination.names.length := by
  have plain := s.isPlain_tempPath destination output whole resolved.plain temp
  obtain ⟨nonempty, rfl⟩ := s.tempPath_eq destination output temp
  -- Only the last name differs, so the directories above are those of the destination.
  have clear : tree.IsClear
      (destination.names.dropLast ++ [Path.nameWith s.tempSuffix destination.name]).dropLast := by
    rw [List.dropLast_concat]
    exact resolved.held.clear
  have lengths : (destination.names.dropLast ++
      [Path.nameWith s.tempSuffix destination.name]).length = destination.names.length := by
    rw [List.length_append, List.length_dropLast, List.length_singleton]
    have := List.length_pos_iff.mpr nonempty
    omega
  exact ⟨⟨plain, clear⟩, List.concat_ne_nil _ _, nonempty, lengths⟩

/-- The temporary file of a resolved destination stands beside it, unless it is the same file. -/
theorem Storage.beside_of_ne (s : Storage) (tree : FileTree) (destination output : Path)
    (whole : '/' ∉ s.tempSuffix.toList) (resolved : tree.Resolved destination)
    (temp : s.tempPath destination = .ok output) (ne : output.names ≠ destination.names) :
    Storage.Beside tree output destination := by
  obtain ⟨held, _, _, lengths⟩ := s.held_tempPath tree destination output whole resolved temp
  -- Two paths of one length are prefixes of each other only if they are equal.
  have apart {p q : List String} (lengths : p.length = q.length) (ne : p ≠ q) : ¬p <+: q :=
    fun below => ne (below.eq_of_length lengths)
  exact ⟨held, resolved, apart lengths ne, apart lengths.symm ne.symm⟩

/-- The temporary file stands beside its destination, under another name. -/
theorem Storage.beside_tempPath (s : Storage) (tree : FileTree) (destination output : Path)
    (marked : s.tempSuffix ≠ "") (whole : '/' ∉ s.tempSuffix.toList)
    (resolved : tree.Resolved destination) (temp : s.tempPath destination = .ok output) :
    Storage.Beside tree output destination :=
  s.beside_of_ne tree destination output whole resolved temp
    (s.tempPath_names_ne destination output marked temp)

/-- A renderer of a small gallery, whose sources all measure the same. -/
def Renderer.sample (engine : Engine) : Renderer where
  storage := ⟨.absolute ["gallery"], ".rendering"⟩
  settings := .standard
  prober _ := .ok ⟨.int 64, .int 48, .bool true⟩
  engine
  invalidator _ tree := ⟨tree, [], none⟩
  observer := none

/-- A gallery of two files. -/
def FileTree.sample : FileTree :=
  ⟨[(["gallery"], .directory), (["gallery", "a.mp4"], .file "film"),
    (["gallery", "out.mp4"], .file "old")]⟩

/-- An engine that does the same at every call, at once. -/
def Engine.scripted (production : Production) : Engine := ⟨fun _ => 0, fun _ _ => production⟩

/-- A request for two clips of one source. -/
def RenderRequest.sample (destination : String) : RenderRequest :=
  ⟨.overlapping, destination, none⟩

/-- The timeline of a sample request with its source resolved. -/
def Timeline.sample : Timeline Binary64 :=
  Timeline.overlapping.mapSources (Renderer.replacement [("a.mp4", "/gallery/a.mp4")])

/-- A name in the gallery is reached where no link stands. -/
theorem FileTree.reached_sample {tree : FileTree} {name : String} (named : Path.IsName name)
    (open' : tree.linkAt? ["gallery"] = none) (clear : tree.linkAt? ["gallery", name] = none) :
    tree.IsReached ["gallery", name] :=
  ((IsReached.nil tree).snoc "gallery" (by decide) open').snoc name named clear

theorem FileTree.IsLinkless.reached_sample {tree : FileTree} {name : String}
    (h : tree.IsLinkless) (named : Path.IsName name) : tree.IsReached ["gallery", name] :=
  FileTree.reached_sample named (h.linkAt?_eq_none _) (h.linkAt?_eq_none _)

theorem Renderer.resolved_sample (tree : FileTree) (linkless : tree.IsLinkless) (name : String)
    (named : Path.IsName name) : tree.Resolved (.absolute ["gallery", name]) :=
  (linkless.reached_sample named).resolved

/-- A name in the gallery that leads to no link is its own resolution. -/
theorem Renderer.resolve_sample (engine : Engine) (tree : FileTree) (name shown : String)
    (reached : tree.IsReached ["gallery", name]) (unbroken : Path.isUnfitName name = false) :
    (Renderer.sample engine).storage.resolve tree ⟨"", [name]⟩ shown =
      .ok (.absolute ["gallery", name]) := by
  refine (Renderer.sample engine).storage.resolve_of_isReached tree ⟨"", [name]⟩ shown rfl rfl
    reached ?_
  intro other member
  rcases List.mem_pair.mp member with rfl | rfl
  · decide
  · exact unbroken

theorem FileTree.Resolved.isDirectory_of_entry {tree : FileTree} {path : Path}
    {entry : Option Entry} (h : tree.Resolved path) (found : tree.entry path = .ok entry)
    (file : entry ≠ some .directory) : tree.isDirectory path = .ok false := by
  rw [isDirectory, h.test_eq, found, tree.isUnfit_of_entry _ _ found]
  cases entry with
  | none => rfl
  | some entry =>
    have other : entry ≠ .directory := fun same => file (by rw [same])
    simp [other]

theorem Renderer.destination_sample (engine : Engine) (tree : FileTree) (name : String)
    (reached : tree.IsReached ["gallery", name]) (entry : Option Entry)
    (found : tree.entry (.absolute ["gallery", name]) = .ok entry)
    (file : entry ≠ some .directory) :
    (Renderer.sample engine).storage.destination tree name none =
      .ok (.absolute ["gallery", name]) := by
  have directory := reached.resolved.isDirectory_of_entry found file
  have read : Path.ofString name = ⟨"", [name]⟩ :=
    (reached.named name (List.mem_pair.mpr (.inr rfl))).ofString_eq
  -- What is looked up has a name that a file system takes.
  have unbroken : Path.isUnfitName name = false :=
    Bool.eq_false_iff.mpr (List.any_eq_false.mp (tree.isUnfit_of_entry _ _ found) name
      (List.mem_pair.mpr (.inr rfl)))
  exact (Renderer.sample engine).storage.destination_of_file tree name _
    (((Renderer.sample engine).storage.fileDestination_eq_ok_iff ..).mpr
      ⟨by rw [read, resolve_sample engine tree name name reached unbroken], nofun, directory⟩)

/-- A sample request is planned for where its destination resolves to. -/
theorem Renderer.plan_of_destination (engine : Engine) (tree : FileTree) (name : String)
    (full : Path) (source : tree.IsReached ["gallery", "a.mp4"])
    (destination : (Renderer.sample engine).storage.destination tree name none = .ok full) :
    (Renderer.sample engine).plan tree (.sample name) = .ok (full, .sample) := by
  have read : Path.ofString "a.mp4" = ⟨"", ["a.mp4"]⟩ := by decide
  have sources : (Renderer.sample engine).resolveSources tree Timeline.overlapping =
      .ok [("a.mp4", "/gallery/a.mp4")] := by
    have paths : Timeline.overlapping.sourcePaths = ["a.mp4"] := by decide
    rw [Renderer.resolveSources, paths, List.mapM_cons, read,
      resolve_sample engine tree "a.mp4" "a.mp4" source (by decide)]
    rfl
  have destination' : (Renderer.sample engine).storage.destination tree
      (RenderRequest.sample name).destinationPath (RenderRequest.sample name).newName =
        .ok full := destination
  have sources' : (Renderer.sample engine).resolveSources tree
      (RenderRequest.sample name).timeline = .ok [("a.mp4", "/gallery/a.mp4")] := sources
  rw [Renderer.plan, destination', sources']
  rfl

theorem Renderer.plan_sample (engine : Engine) (tree : FileTree) (name : String)
    (linkless : tree.IsLinkless) (named : Path.IsName name) (entry : Option Entry)
    (found : tree.entry (.absolute ["gallery", name]) = .ok entry)
    (file : entry ≠ some .directory) :
    (Renderer.sample engine).plan tree (.sample name) =
      .ok (.absolute ["gallery", name], .sample) :=
  plan_of_destination engine tree name _ (linkless.reached_sample (by decide))
    (destination_sample engine tree name (linkless.reached_sample named) entry found file)

/-- A request to render over the old file of the sample tree is planned for its path. -/
theorem Renderer.plan_old (engine : Engine) :
    (Renderer.sample engine).plan .sample (.sample "out.mp4") =
      .ok (.absolute ["gallery", "out.mp4"], .sample) :=
  plan_sample engine .sample "out.mp4" (by decide) (by decide) (some (.file "old")) (by decide)
    nofun

theorem Production.failure_perform (p : Production) (tree : FileTree) (output : Path)
    (h : p.failure ≠ none) : (p.perform tree output).failure ≠ none := by
  unfold perform
  split
  · exact Option.some_ne_none _
  · exact h

theorem Renderer.order_sample (engine : Engine) (tree : FileTree) (name : String)
    {destination : Path} (output : Path)
    (planned : (Renderer.sample engine).plan tree (.sample name) = .ok (destination, .sample))
    (temp : (Renderer.sample engine).storage.tempPath destination = .ok output) :
    ∃ job, (Renderer.sample engine).order tree (.sample name) = .ok (job, output) := by
  let found : SourceCache := [("/gallery/a.mp4", .found ⟨64, 48, true, false⟩)]
  have surveyed : (Renderer.sample engine).surveyed .sample = .ok found := by
    -- The survey does not depend on the engine, so that it can be run with one that does nothing.
    rw [(Renderer.sample engine).surveyed_congr (.sample (.scripted ⟨[], [], none⟩)) _ rfl rfl]
    decide +kernel
  obtain ⟨graph, compiled⟩ := CompileOutcome.exists_graph
    (compileTimeline .sample found (Renderer.sample engine).compileOptions)
    (by decide +kernel : (compileTimeline .sample found
      (Renderer.sample (.scripted ⟨[], [], none⟩)).compileOptions).graph.isOk = true)
  refine ⟨⟨destination, (Renderer.sample engine).probeWarnings found, graph⟩, ?_⟩
  simp only [order, planned, surveyed, jobOf, compiled, temp, bind, Except.bind, Except.mapError]
  rfl

namespace Renderer

/-- Of a render that fails the destination is as it was before, whatever the sources, the prober
and the engine are like, but for two cases: the engine returned without a file while something
stood there, or it wrote there through a link at the temporary path. Only links that lead back to
themselves can leave a destination unresolved. A move that the system refuses for a reason outside
the tree, when the old file is gone already, would be a third case. -/
theorem failed_keeps_destination_iff (r : Renderer) (request : RenderRequest) (site : Site)
    (destination : Path) (result : RenderResult)
    (marked : r.storage.tempSuffix ≠ "") (whole : '/' ∉ r.storage.tempSuffix.toList)
    (rooted : r.storage.root.IsWhole)
    (silent : ∀ observe ∈ r.observer, ∀ state, observe state = none)
    (idle : site.locks.current = [])
    (planned : ∀ found timeline, r.plan site.tree request = .ok (found, timeline) →
      found = destination)
    (resolved : site.tree.HasEndlessLink → site.tree.Resolved destination)
    (answered : (r.render request site).2.answer? = some (.ok result))
    (failed : result.success = false) :
    (r.render request site).1.tree.find .kept destination = site.tree.find .kept destination ↔
      ¬∃ job output, r.order site.tree request = .ok (job, output) ∧
        (r.Loses site.tree job output ∨ r.Overwrites site.tree job output) := by
  have quiet (state : RenderState) : r.check state = none := by
    unfold check
    cases observer : r.observer with
    | none => rfl
    | some observe => exact silent observe observer state
  obtain ⟨answer, answer_eq, outcome_eq⟩ := r.render_outcome request site idle
  rw [answered, Option.some.injEq] at answer_eq
  subst answer_eq
  rw [outcome, quiet] at outcome_eq
  cases ordered : r.order site.tree request with
  | error e =>
    -- Before the engine is called nothing has been written.
    rw [ordered] at outcome_eq
    have tree : (r.render request site).1.tree = site.tree := congrArg Prod.fst outcome_eq
    rw [tree]
    exact iff_of_true rfl (by rintro ⟨job, output, ok, _⟩; cases ok)
  | ok found =>
    obtain ⟨job, output⟩ := found
    rw [ordered] at outcome_eq
    have tree : (r.render request site).1.tree = (r.encoded job output site.tree).1 :=
      congrArg Prod.fst outcome_eq
    have given : .ok result = (r.encoded job output site.tree).2 := congrArg Prod.snd outcome_eq
    obtain ⟨timeline, _, plan, _, temp⟩ := order_ok site.tree request job output ordered
    obtain rfl := planned job.destination timeline plan
    have resolved := (resolved_of_plan site.tree request _ _ rooted plan).elim id resolved
    have beside := r.storage.beside_tempPath site.tree job.destination output marked whole resolved
      temp
    have file : site.tree.entry job.destination ≠ .ok (some .directory) := by
      intro directory
      have isDirectory := isDirectory_of_plan site.tree request _ _ plan
      rw [FileTree.isDirectory, resolved.test_eq,
        site.tree.isUnfit_of_entry _ _ directory, directory] at isDirectory
      cases isDirectory
    rw [tree, encoded_keeps_destination_iff quiet beside file result given.symm failed]
    refine not_congr ⟨fun either => ⟨job, output, rfl, either⟩, ?_⟩
    rintro ⟨job', output', same, either⟩
    cases same
    exact either

/-- A render that fails in the engine leaves the file at its destination. -/
theorem failed_keeps_destination_of_sample :
    let r := sample
      (.scripted ⟨[.write "part"], [], some (.foreign .runtime "RuntimeError" "lost")⟩)
    let site : Site := ⟨.sample, .empty, .empty⟩
    ∃ result, (r.render (.sample "out.mp4") site).2.answer? = some (.ok result) ∧
      result.success = false ∧
      (r.render (.sample "out.mp4") site).1.tree.find .kept (.absolute ["gallery", "out.mp4"]) =
        .ok (["gallery", "out.mp4"], some (.file "old")) := by
  intro r site
  have linkless : FileTree.sample.IsLinkless := by decide
  have resolved := resolved_sample .sample linkless "out.mp4" (by decide)
  have planned : r.plan .sample (.sample "out.mp4") =
      .ok (.absolute ["gallery", "out.mp4"], .sample) := plan_old _
  obtain ⟨job, ordered⟩ := order_sample _ _ "out.mp4"
    (.absolute ["gallery", "out.rendering.mp4"]) planned (by decide +kernel)
  have fails (job : Job) (output : Path) :
      (r.produced job output .sample).failure ≠ none :=
    Production.failure_perform _ _ _ nofun
  obtain ⟨result, answered, failed⟩ : ∃ result,
      (r.render (.sample "out.mp4") site).2.answer? = some (.ok result) ∧
        result.success = false := by
    rw [(r.render_of_order _ site rfl rfl ordered).2]
    unfold encoded
    cases failure : (r.produced job _ .sample).failure with
    | none => exact absurd failure (fails job _)
    | some e =>
      obtain ⟨result, given, failed⟩ := r.exists_abandoned (fun _ => rfl)
        (.absolute ["gallery", "out.rendering.mp4"]) e (r.produced job _ .sample).tree
      exact ⟨result, congrArg some given, failed⟩
  -- No link is in the tree, and the engine does not return, so neither exception applies.
  have kept := (r.failed_keeps_destination_iff (.sample "out.mp4") site
    (.absolute ["gallery", "out.mp4"]) result (by decide) (by decide) (by decide) nofun rfl (by
      intro found timeline plan
      rw [planned] at plan
      cases plan
      rfl) (fun _ => resolved) answered failed).mpr (by
      rintro ⟨job', output', _, loses | overwrites⟩
      · exact fails job' output' loses.returned
      · exact overwrites.linked (linkless.linkAt?_eq_none output'.names))
  refine ⟨result, answered, failed, ?_⟩
  rw [kept, resolved.find_eq]
  decide

/-- A render whose engine returns without a file fails, and the file at its destination is gone. -/
theorem failed_loses_destination :
    let r := sample (.scripted ⟨[], [], none⟩)
    let site : Site := ⟨.sample, .empty, .empty⟩
    ∃ result, (r.render (.sample "out.mp4") site).2.answer? = some (.ok result) ∧
      result.success = false ∧
      site.tree.find .kept (.absolute ["gallery", "out.mp4"]) =
        .ok (["gallery", "out.mp4"], some (.file "old")) ∧
      (r.render (.sample "out.mp4") site).1.tree.find .kept (.absolute ["gallery", "out.mp4"]) =
        .ok (["gallery", "out.mp4"], none) := by
  intro r site
  have resolved := resolved_sample .sample (by decide) "out.mp4" (by decide)
  have old : FileTree.sample.entry (.absolute ["gallery", "out.mp4"]) =
      .ok (some (.file "old")) := by decide
  have planned : r.plan .sample (.sample "out.mp4") =
      .ok (.absolute ["gallery", "out.mp4"], .sample) := plan_old _
  have temp : r.storage.tempPath (.absolute ["gallery", "out.mp4"]) =
      .ok (.absolute ["gallery", "out.rendering.mp4"]) := by decide +kernel
  obtain ⟨job, ordered⟩ := order_sample _ _ "out.mp4" _ planned temp
  obtain ⟨_, _, plan, _⟩ := order_ok _ _ job _ ordered
  rw [planned, Except.ok.injEq, Prod.mk.injEq] at plan
  have beside := r.storage.beside_tempPath .sample _ _ (by decide) (by decide)
    resolved temp
  rw [plan.1] at beside
  -- The engine does nothing and returns, so nothing is at the temporary path to be moved.
  obtain ⟨gone, result, given, failed⟩ := encoded_of_missing (r := r) (fun _ => rfl) beside
    (.file "old") (by rw [← plan.1]; exact old) nofun rfl (by
      change ¬FileTree.sample.HasEntry _
      rw [beside.held.hasEntry_iff]
      rintro ⟨written, there⟩
      have absent : FileTree.sample.entry (.absolute ["gallery", "out.rendering.mp4"]) =
          .ok none := by decide
      rw [absent] at there
      cases there)
  obtain ⟨tree, answered⟩ := r.render_of_order _ site rfl rfl ordered
  refine ⟨result, by rw [answered]; exact congrArg some given, failed, ?_, ?_⟩
  · rw [resolved.find_eq, old]
    rfl
  · rw [← plan.1] at gone
    rw [tree]
    exact gone

end Renderer

end Montage
