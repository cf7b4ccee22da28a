import Montage.Proofs.Gallery.Changes
import Montage.Proofs.Gallery.Links
import Montage.Proofs.Render.Collaborators
import Montage.Proofs.Render.Destination

/-!
# The frame of a render

A render changes what stands where its destination and that one's thumbnail lead, on whatever file
tree and through whatever links, and takes away a file that stands at its temporary path. It changes
nothing else, and it leaves no temporary file behind, as long as neither a link nor a directory
stands at that path.
-/
namespace Montage

open FileTree

/-- Nothing stands where a path points, unless it is a file. -/
def FileTree.IsSpare (tree : FileTree) (path : Path) : Prop :=
  ∀ position entry, tree.find .kept path = .ok (position, some entry) →
    ∃ content, entry = .file content

/-- Where a file stands, or nothing, no directory is entered. -/
theorem FileTree.IsSpare.isClosed {tree : FileTree} {path : Path} {position : Position}
    {entry : Option Entry} (h : tree.IsSpare path)
    (found : tree.find .kept path = .ok (position, entry)) : tree.IsClosed position := by
  have here := get?_of_find_kept found
  refine ⟨?_, ?_⟩
  · intro directory
    rw [here, directory] at found
    obtain ⟨content, same⟩ := h position .directory found
    cases same
  · intro target linked
    rw [here, linked] at found
    obtain ⟨content, same⟩ := h position (.link target) found
    cases same

/-- Two plain paths below the root, at the first of which neither a link nor a directory stands. -/
structure Storage.Spare (tree : FileTree) (temp destination : Path) : Prop where
  plain : temp.IsPlain
  below : temp.names ≠ []
  plainDestination : destination.IsPlain
  belowDestination : destination.names ≠ []
  spare : tree.IsSpare temp

namespace Storage.Spare

variable {t u : FileTree} {temp destination : Path}

/-- Where no directory or link stood, none has come. -/
theorem file (h : Spare t temp destination) (covers : Covers t u) : u.IsSpare temp := by
  intro position entry found
  have here := get?_of_find_kept found
  have before := covers.find_kept found
  cases entry with
  | file content => exact ⟨content, rfl⟩
  | directory =>
    rw [covers.directories position here.symm] at before
    exact h.spare position .directory before
  | link target =>
    rw [covers.links position target here.symm] at before
    exact h.spare position (.link target) before

end Storage.Spare

namespace Production

variable {t u : FileTree} {output destination : Path} {actions : List OutputAction}

/-- An engine that writes files changes what stands at its output alone. -/
theorem changed_performAll (spare : Storage.Spare t output destination)
    (writes : ∀ action ∈ actions, ∃ content, action = .write content)
    (covers : Covers t u) : Changed [output] u (performAll output actions u).1 := by
  -- Each write covers the tree before it, so that what stands at the output stays a file.
  induction actions generalizing u with
  | nil => exact .refl [output] u
  | cons action rest ih =>
    obtain ⟨content, rfl⟩ := writes action List.mem_cons_self
    rw [performAll, OutputAction.perform]
    cases done : u.write output content with
    | error e => exact .refl [output] u
    | ok next =>
      have step : Changed [output] u next := by
        refine changed_write spare.plain spare.below ?_ content next done
        intro position target found
        obtain ⟨content, same⟩ := spare.file covers position _ found
        cases same
      exact step.trans (ih (fun other member => writes other (List.mem_cons_of_mem _ member))
        (covers.trans step.covers))

theorem alike_of_writes (output : Path) (tree : FileTree)
    (writes : ∀ action ∈ actions, ∃ content, action = .write content) :
    Alike tree (performAll output actions tree).1 := by
  induction actions generalizing tree with
  | nil => exact .refl tree
  | cons action rest ih =>
    obtain ⟨content, rfl⟩ := writes action List.mem_cons_self
    rw [performAll, OutputAction.perform]
    cases done : tree.write output content with
    | error e => exact .refl tree
    | ok next =>
      exact (tree.alike_of_write output content next done).trans
        (ih next fun other member => writes other (List.mem_cons_of_mem _ member))

end Production

namespace Storage

variable {t tree : FileTree} {path temp destination : Path}

theorem changed_discard (tree : FileTree) (path : Path) :
    Changed [path] tree (discard tree path).tree := by
  unfold discard
  split
  next removed ok => exact changed_unlink removed ok
  · exact .refl [path] tree
  · split <;> exact .refl [path] tree

/-- What is at the destination before the move, and that what is there has been removed. -/
theorem changed_clearing (next : FileTree) (present : Bool)
    (ok : (if present then tree.unlink destination else .ok tree) = .ok next) :
    Changed [destination] tree next := by
  cases present with
  | false =>
    cases ok
    exact .refl [destination] tree
  | true => exact changed_unlink next ok

theorem changed_replaceSteps (spare : Spare t temp destination) (covers : Covers t tree)
    (proper : tree.IsProper) :
    Changed [temp, destination] tree (replaceSteps tree temp destination).1 := by
  unfold replaceSteps
  cases tree.doesExist destination with
  | error e => exact .refl _ tree
  | ok present =>
    dsimp only
    -- The destination is cleared first, which is a change also when the rename is refused then.
    cases step : (if present then tree.unlink destination else .ok tree) with
    | error e => exact .refl _ tree
    | ok next =>
      have cleared := changed_clearing next present step
      have first : Changed [temp, destination] tree next :=
        cleared.mono fun path listed => List.mem_cons_of_mem temp listed
      dsimp only
      cases renamed : next.rename temp destination with
      | error e => exact first
      | ok moved =>
        have file := spare.file (covers.trans cleared.covers)
        exact first.trans (changed_rename spare.plain spare.below spare.plainDestination
          spare.belowDestination (cleared.proper proper) file moved renamed)

/-- A discarded file is gone. -/
theorem get?_discard (spare : Spare t temp destination) (covers : Covers t tree)
    (position : Position) (found : tree.find .kept temp = .ok (position, tree.get? position)) :
    (discard tree temp).tree.get? position = none := by
  have nonempty := (parent_of_find_kept spare.plain spare.below found).1
  -- The output is missing already, or it is a file, which can be removed.
  cases there : tree.get? position with
  | none =>
    have absent : tree.unlink temp = fail .noEntry temp := by
      rw [unlink, found, there]
      rfl
    rw [discard, absent]
    exact there
  | some entry =>
    obtain ⟨content, rfl⟩ := spare.file covers position entry (by rw [found, there])
    have removed : tree.unlink temp = .ok (tree.erase position) := by
      rw [unlink, found, there]
      rfl
    rw [discard, removed]
    dsimp only
    rw [get?_erase_at tree position position nonempty, if_pos rfl]

/-- When the destination has been cleared no file is there, and the temporary file is where it
was. -/
theorem find_clearing (spare : Spare t temp destination)
    (file : tree.isDirectory destination = .ok false) (present : Bool)
    (there : tree.doesExist destination = .ok present) (next : FileTree)
    (ok : (if present then tree.unlink destination else .ok tree) = .ok next) (position : Position)
    (found : tree.find .kept temp = .ok (position, tree.get? position)) :
    next.find .kept temp = .ok (position, next.get? position) ∧
      ∀ goal content, next.find .kept destination ≠ .ok (goal, some (.file content)) := by
  cases present with
  | false =>
    cases ok
    refine ⟨found, fun goal content found' => ?_⟩
    -- A file at the destination would have been seen.
    have followed :=
      find_of_kept spare.plainDestination spare.belowDestination .followed found' fun _ => nofun
    have exists' : tree.doesExist destination = .ok true := test_of_find _ followed
    rw [there] at exists'
    cases exists'
  | true =>
    obtain ⟨goal, found', _, other, rfl⟩ := unlink_ok next ok
    have below := (parent_of_find_kept spare.plainDestination spare.belowDestination found').1
    have after (p : Position) := tree.get?_erase_at goal p below
    have closed := isClosed_of_doesExist spare.plainDestination spare.belowDestination there file
      found'
    refine ⟨find_kept_of_elsewhere spare.plain spare.below found goal ?_ closed, ?_⟩
    · intro p away
      rw [after, if_neg away]
    · intro place content still
      have before := (changed_unlink _ ok).covers.find_kept still
      rw [found', Except.ok.injEq, Prod.mk.injEq] at before
      have gone := get?_of_find_kept still
      rw [← before.1, after, if_pos rfl] at gone
      cases gone

theorem replace_tree (tree : FileTree) (temp destination : Path) :
    (replace tree temp destination).1 = (replaceSteps tree temp destination).1 := by
  unfold replace
  cases replaceSteps tree temp destination with
  | mk next failure =>
    cases failure with
    | none => rfl
    | some e =>
      dsimp only
      split <;> rfl

/-- A replacement that succeeds takes the temporary file away, and one that fails leaves it where
it was. -/
theorem output_replaceSteps (spare : Spare t temp destination) (covers : Covers t tree)
    (proper : tree.IsProper) (file : tree.isDirectory destination = .ok false)
    (position : Position) (found : tree.find .kept temp = .ok (position, tree.get? position)) :
    ((replaceSteps tree temp destination).2 = none →
      (replaceSteps tree temp destination).1.get? position = none) ∧
    ((replaceSteps tree temp destination).2 ≠ none →
      (replaceSteps tree temp destination).1.find .kept temp =
        .ok (position, (replaceSteps tree temp destination).1.get? position)) := by
  unfold replaceSteps
  cases there : tree.doesExist destination with
  | error e => exact ⟨nofun, fun _ => found⟩
  | ok present =>
    dsimp only
    cases step : (if present then tree.unlink destination else .ok tree) with
    | error e => exact ⟨nofun, fun _ => found⟩
    | ok next =>
      have cleared := changed_clearing next present step
      obtain ⟨found', empty⟩ := find_clearing spare file present there next step position found
      dsimp only
      cases renamed : next.rename temp destination with
      | error e => exact ⟨nofun, fun _ => found'⟩
      | ok moved =>
        refine ⟨fun _ => ?_, fun failed => absurd rfl failed⟩
        obtain ⟨start, goal, entry, source, target, kept⟩ := exists_of_rename spare.plain
          spare.below spare.plainDestination spare.belowDestination moved renamed
        have here := get?_of_find_kept source
        obtain ⟨content, rfl⟩ := spare.file (covers.trans cleared.covers) start entry source
        rw [found', Except.ok.injEq, Prod.mk.injEq] at source
        obtain ⟨rfl, _⟩ := source
        rcases kept with ⟨rfl, _⟩ | ⟨_, free, rfl⟩
        -- Only a file that was its own destination could be left, and that has been cleared.
        · rw [← here] at target
          exact absurd target (empty position content)
        · obtain ⟨_, away, _⟩ := apart_of_moveObstacle (cleared.proper proper) free
          have other : next.get? position ≠ some .directory := by
            rw [← here]
            exact nofun
          exact next.get?_move_under List.prefix_rfl away (ne_nil_of_place other)

theorem replace_cases (tree : FileTree) (temp destination : Path) :
    ((replaceSteps tree temp destination).2 = none ∧
      replace tree temp destination = ((replaceSteps tree temp destination).1, .ok ())) ∨
    ((replaceSteps tree temp destination).2 ≠ none ∧
      ∃ e, replace tree temp destination = ((replaceSteps tree temp destination).1, .error e)) := by
  unfold replace
  cases replaceSteps tree temp destination with
  | mk next failure =>
    cases failure with
    | none => exact .inl ⟨rfl, rfl⟩
    | some e =>
      refine .inr ⟨nofun, ?_⟩
      dsimp only
      split <;> exact ⟨_, rfl⟩

theorem get?_of_unlink (tree : FileTree) (path : Path) (removed : FileTree) (p : Position)
    (ok : tree.unlink path = .ok removed) (absent : tree.get? p = none) :
    removed.get? p = none := by
  obtain ⟨position, _, there, directory, rfl⟩ := unlink_ok removed ok
  have nonempty : position ≠ [] := by
    rintro rfl
    exact directory rfl
  rw [get?_erase_at tree position p nonempty]
  split
  · rfl
  · exact absent

end Storage

namespace Renderer

variable {r : Renderer} {thumbnail : String → Option Path} {job : Job} {output : Path}
  {t u : FileTree}

/-- The paths that a job's render may change: of the file it makes, of the file it writes, and of
that one's thumbnail. -/
def touched (r : Renderer) (thumbnail : String → Option Path) (job : Job) (output : Path) :
    List Path :=
  [output, job.destination] ++ (thumbnail (r.shownPath job.destination)).toList

theorem changed_announced (drops : r.invalidator.Drops thumbnail) (u : FileTree) :
    Changed (r.touched thumbnail job output) u (r.announced job u).1 := by
  simp only [announced]
  rw [drops]
  cases dropped : thumbnail (r.shownPath job.destination) with
  | none => exact .refl _ u
  | some path =>
    dsimp only
    cases unlinked : u.unlink path with
    | error e => exact .refl _ u
    | ok next =>
      refine (changed_unlink next unlinked).mono ?_
      simp [touched, dropped]

theorem get?_announced (drops : r.invalidator.Drops thumbnail) (u : FileTree) (p : Position)
    (absent : u.get? p = none) : (r.announced job u).1.get? p = none := by
  simp only [announced]
  rw [drops]
  cases thumbnail (r.shownPath job.destination) with
  | none => exact absent
  | some path =>
    dsimp only
    cases unlinked : u.unlink path with
    | error e => exact absent
    | ok next => exact Storage.get?_of_unlink u path next p unlinked absent

theorem changed_output (h : Changed [output] t u) : Changed (r.touched thumbnail job output) t u :=
  h.mono (by simp [touched])

theorem changed_produced (spare : Storage.Spare t output job.destination)
    (writes : r.engine.WritesFiles) :
    Changed [output] t (r.produced job output t).tree := by
  rw [r.produced_eq job output t spare.plain, Production.perform_tree]
  exact Production.changed_performAll spare (writes _ _) (.refl t)

theorem changed_finalized (spare : Storage.Spare t output job.destination)
    (drops : r.invalidator.Drops thumbnail) (covers : Covers t u) (proper : u.IsProper) :
    Changed (r.touched thumbnail job output) u (r.finalized job output u).1 := by
  -- The replacement may fail halfway, and the output is discarded then as well.
  have replaced := Storage.changed_replaceSteps spare covers proper
  rw [← Storage.replace_tree] at replaced
  have replaced : Changed (r.touched thumbnail job output) u
      (Storage.replace u output job.destination).1 := replaced.mono (by simp [touched])
  unfold finalized
  cases r.check .finalizing with
  | some e => exact changed_output (Storage.changed_discard u output)
  | none =>
    dsimp only
    cases done : Storage.replace u output job.destination with
    | mk next result =>
      rw [done] at replaced
      cases result with
      | ok _ => exact replaced.trans (changed_announced drops next)
      | error e => exact replaced.trans (changed_output (Storage.changed_discard next output))

/-- A job's render changes only what stands where its paths lead. -/
theorem changed_encoded (spare : Storage.Spare t output job.destination)
    (writes : r.engine.WritesFiles) (drops : r.invalidator.Drops thumbnail)
    (proper : t.IsProper) :
    Changed (r.touched thumbnail job output) t (r.encoded job output t).1 := by
  have produced := changed_produced spare writes
  have first : Changed (r.touched thumbnail job output) t (r.produced job output t).tree :=
    changed_output produced
  unfold encoded
  cases (r.produced job output t).failure with
  | some e => exact first.trans (changed_output (Storage.changed_discard _ output))
  | none =>
    exact first.trans (changed_finalized spare drops produced.covers (produced.proper proper))

/-- Where the temporary file was, nothing is when the engine has been called and the render has
ended. -/
theorem output_encoded (spare : Storage.Spare t output job.destination)
    (writes : r.engine.WritesFiles) (drops : r.invalidator.Drops thumbnail)
    (proper : t.IsProper) (file : t.isDirectory job.destination = .ok false) (position : Position)
    (entry : Option Entry) (found : t.find .kept output = .ok (position, entry)) :
    (r.encoded job output t).1.get? position = none := by
  have produced := changed_produced spare writes
  have alike : Alike t (r.produced job output t).tree := by
    rw [r.produced_eq job output t spare.plain, Production.perform_tree]
    exact Production.alike_of_writes output t (writes _ _)
  have found' := find_kept_of_elsewhere spare.plain spare.below found position (by
    intro p away
    refine produced.elsewhere p ?_
    intro path listed entry there
    rw [List.mem_singleton.mp listed, found, Except.ok.injEq, Prod.mk.injEq] at there
    exact away there.1.symm) (spare.spare.isClosed found)
  have discarded {next : FileTree} (covers : Covers t next)
      (there : next.find .kept output = .ok (position, next.get? position)) :
      (Storage.discard next output).tree.get? position = none :=
    Storage.get?_discard spare covers position there
  rw [← alike.isDirectory_eq job.destination] at file
  -- The file is discarded after every failure, and a move that succeeds takes it away.
  unfold encoded
  cases (r.produced job output t).failure with
  | some e => exact discarded produced.covers found'
  | none =>
    unfold finalized
    cases r.check .finalizing with
    | some e => exact discarded produced.covers found'
    | none =>
      have proper' := produced.proper proper
      have steps := Storage.output_replaceSteps spare produced.covers proper' file position found'
      have replaced := Storage.changed_replaceSteps spare produced.covers proper'
      dsimp only
      rcases Storage.replace_cases (r.produced job output t).tree output job.destination with
        ⟨moved, done⟩ | ⟨stopped, e, done⟩
      · rw [done]
        exact get?_announced drops _ position (steps.1 moved)
      · rw [done]
        exact discarded (produced.covers.trans replaced.covers) (steps.2 stopped)

/-- A position that a request may change: where its destination leads, or that one's thumbnail. -/
def MayChange (r : Renderer) (thumbnail : String → Option Path) (tree : FileTree)
    (request : RenderRequest) (p : Position) : Prop :=
  ∃ destination timeline, r.plan tree request = .ok (destination, timeline) ∧
    ∃ path ∈ destination :: (thumbnail (r.shownPath destination)).toList,
      ∃ entry, tree.find .kept path = .ok (p, entry)

theorem isPlain_of_plan (tree : FileTree) (request : RenderRequest) (destination : Path)
    (timeline : Timeline Binary64) (rooted : r.storage.root.IsPlain)
    (h : r.plan tree request = .ok (destination, timeline)) : destination.IsPlain := by
  obtain ⟨path, shown, whole, file⟩ := destination_of_plan tree request destination timeline h
  obtain ⟨resolved, _, _⟩ :=
    (r.storage.fileDestination_eq_ok_iff tree path shown destination).mp file
  exact r.storage.isPlain_of_resolve tree path shown destination rooted (whole rooted.whole)
    resolved

/-- The paths of a planned render are plain and below the root. -/
theorem spare_of_plan {tree : FileTree} {request : RenderRequest} {destination : Path}
    {timeline : Timeline Binary64} (whole : '/' ∉ r.storage.tempSuffix.toList)
    (rooted : r.storage.root.IsPlain)
    (plan : r.plan tree request = .ok (destination, timeline))
    (temp : r.storage.tempPath destination = .ok output) (spare : tree.IsSpare output) :
    Storage.Spare tree output destination := by
  have plain := isPlain_of_plan tree request _ _ rooted plan
  obtain ⟨below, names⟩ := r.storage.tempPath_eq destination output temp
  exact ⟨r.storage.isPlain_tempPath _ output whole plain temp, by rw [names]; simp, plain, below,
    spare⟩

/-- A position that a request's temporary file takes. -/
def IsTemporary (r : Renderer) (tree : FileTree) (request : RenderRequest) (p : Position) : Prop :=
  ∃ destination timeline output entry, r.plan tree request = .ok (destination, timeline) ∧
    r.storage.tempPath destination = .ok output ∧ tree.find .kept output = .ok (p, entry)

/-- A render changes nothing but what stands where its destination and that one's thumbnail lead,
except that a file at its temporary path goes; and what is at that path afterwards has been there
before. -/
theorem spares_elsewhere (r : Renderer) (thumbnail : String → Option Path)
    (request : RenderRequest) (site : Site) (whole : '/' ∉ r.storage.tempSuffix.toList)
    (rooted : r.storage.root.IsPlain) (writes : r.engine.WritesFiles)
    (drops : r.invalidator.Drops thumbnail) (proper : site.tree.IsProper)
    (idle : site.locks.current = [])
    (spare : ∀ destination timeline output,
      r.plan site.tree request = .ok (destination, timeline) →
        r.storage.tempPath destination = .ok output → site.tree.IsSpare output) :
    (∀ p, ¬r.MayChange thumbnail site.tree request p →
      (r.render request site).1.tree.get? p = site.tree.get? p ∨
        r.IsTemporary site.tree request p ∧ (r.render request site).1.tree.get? p = none) ∧
    ∀ destination timeline output, r.plan site.tree request = .ok (destination, timeline) →
      r.storage.tempPath destination = .ok output → ∀ position entry,
        (r.render request site).1.tree.find .kept output = .ok (position, some entry) →
          site.tree.find .kept output = .ok (position, some entry) := by
  obtain ⟨answer, _, outcome_eq⟩ := r.render_outcome request site idle
  have tree := congrArg Prod.fst outcome_eq
  dsimp only at tree
  rw [tree, outcome]
  cases r.check .idle with
  | some e => exact ⟨fun _ _ => .inl rfl, fun _ _ _ _ _ _ _ found => found⟩
  | none =>
    dsimp only
    cases ordered : r.order site.tree request with
    | error e => exact ⟨fun _ _ => .inl rfl, fun _ _ _ _ _ _ _ found => found⟩
    | ok found =>
      obtain ⟨job, output⟩ := found
      obtain ⟨timeline, _, plan, _, temp⟩ := order_ok site.tree request job output ordered
      have file := isDirectory_of_plan site.tree request _ _ plan
      have beside := spare_of_plan whole rooted plan temp (spare _ timeline output plan temp)
      have changed := changed_encoded beside writes drops proper
      -- Whichever way the job ends, the temporary file has been moved or discarded.
      have gone (position : Position) (entry : Option Entry)
          (found : site.tree.find .kept output = .ok (position, entry)) :
          (r.encoded job output site.tree).1.get? position = none :=
        output_encoded beside writes drops proper file position entry found
      refine ⟨?_, ?_⟩
      · intro p keeps
        -- The job changes what the temporary path leads to and what the request may change.
        by_cases here : ∃ entry, site.tree.find .kept output = .ok (p, entry)
        · obtain ⟨entry, found⟩ := here
          exact .inr ⟨⟨job.destination, timeline, output, entry, plan, temp, found⟩,
            gone p entry found⟩
        · refine .inl (changed.elsewhere p ?_)
          intro path listed entry found
          rcases List.mem_cons.mp listed with rfl | listed
          · exact here ⟨entry, found⟩
          · exact keeps ⟨job.destination, timeline, plan, path, listed, entry, found⟩
      · intro destination timeline' output' plan' temp' position entry found
        cases plan.symm.trans plan'
        cases temp.symm.trans temp'
        have there := get?_of_find_kept found
        rw [gone position _ (changed.covers.find_kept found)] at there
        cases there

theorem eq_of_mayChange_sample (engine : Engine) (tree : FileTree) (name : String)
    (p : Position) (resolved : tree.Resolved (.absolute ["gallery", name]))
    (planned : (sample engine).plan tree (.sample name) =
      .ok (.absolute ["gallery", name], .sample))
    (h : (sample engine).MayChange (fun _ => none) tree (.sample name) p) :
    p = ["gallery", name] := by
  obtain ⟨destination, timeline, plan, path, listed, entry, found⟩ := h
  cases planned.symm.trans plan
  rw [List.mem_singleton.mp listed] at found
  exact (resolved.held.entry_of_find found).2

/-- A render that writes a new file at its destination leaves its source as it was, and no
temporary file. -/
theorem spares_elsewhere_sample :
    let r := sample (.scripted ⟨[.write "new"], [], none⟩)
    let site : Site := ⟨.sample, .empty, .empty⟩
    (r.render (.sample "out.mp4") site).1.tree.get? ["gallery", "a.mp4"] = some (.file "film") ∧
      ¬(r.render (.sample "out.mp4") site).1.tree.HasEntry
        (.absolute ["gallery", "out.rendering.mp4"]) := by
  intro r site
  have resolved := resolved_sample .sample (by decide)
  have planned : r.plan .sample (.sample "out.mp4") =
      .ok (.absolute ["gallery", "out.mp4"], .sample) := plan_old _
  have temp : r.storage.tempPath (.absolute ["gallery", "out.mp4"]) =
      .ok (.absolute ["gallery", "out.rendering.mp4"]) := by decide +kernel
  have absent : FileTree.sample.find .kept (.absolute ["gallery", "out.rendering.mp4"]) =
      .ok (["gallery", "out.rendering.mp4"], none) := by
    rw [(resolved "out.rendering.mp4" (by decide)).find_eq]
    decide
  obtain ⟨elsewhere, left⟩ := r.spares_elsewhere (fun _ => none) (.sample "out.mp4") site
    (by decide) ⟨rfl, by decide⟩ (by
      intro call contents action member
      exact ⟨"new", List.mem_singleton.mp member⟩) (fun _ _ => rfl)
    (FileTree.sample.isProper_of_entries (by decide)) rfl (by
      intro destination timeline output plan temp' position entry found
      cases planned.symm.trans plan
      cases temp.symm.trans temp'
      cases absent.symm.trans found)
  -- The source is neither the destination nor at the temporary path.
  refine ⟨?_, ?_⟩
  · have source := elsewhere ["gallery", "a.mp4"] (by
      intro changes
      exact absurd (eq_of_mayChange_sample _ _ "out.mp4" _
        (resolved "out.mp4" (by decide)) planned changes) (by decide))
    rcases source with same | ⟨⟨destination, timeline, output, entry, plan, temp', found⟩, _⟩
    · rw [same]
      decide
    · cases planned.symm.trans plan
      cases temp.symm.trans temp'
      exact absurd (absent.symm.trans found) (by simp)
  · rintro ⟨position, entry, found⟩
    cases absent.symm.trans (left _ _ _ planned temp position entry found)

/-- The gallery with something at the temporary path of `out.mp4`, a directory perhaps. -/
def besideSample (entry : Entry) (inside : List (Position × Entry)) : Site :=
  ⟨⟨FileTree.sample.entries ++ (["gallery", "out.rendering.mp4"], entry) :: inside⟩, .empty,
    .empty⟩

section

variable (engine : Engine) (entry : Entry) (inside : List (Position × Entry))

theorem resolved_beside :
    (besideSample entry inside).tree.Resolved (.absolute ["gallery", "out.mp4"]) :=
  (reached_sample (by decide) rfl rfl).resolved

theorem planned_beside :
    (sample engine).plan (besideSample entry inside).tree (.sample "out.mp4") =
      .ok (.absolute ["gallery", "out.mp4"], .sample) :=
  plan_of_destination engine _ "out.mp4" _
    (reached_sample (by decide) rfl rfl)
    (destination_sample engine _ "out.mp4" (reached_sample (by decide) rfl rfl)
      (some (.file "old")) (by rfl) nofun)

theorem not_mayChange_beside (p : Position) (other : p ≠ ["gallery", "out.mp4"]) :
    ¬(sample engine).MayChange (fun _ => none) (besideSample entry inside).tree
      (.sample "out.mp4") p := fun changes =>
  other (eq_of_mayChange_sample engine _ "out.mp4" _ (resolved_beside entry inside)
    (planned_beside engine entry inside) changes)

theorem order_beside :
    ∃ job, job.destination = .absolute ["gallery", "out.mp4"] ∧
      (sample engine).order (besideSample entry inside).tree (.sample "out.mp4") =
        .ok (job, .absolute ["gallery", "out.rendering.mp4"]) := by
  have planned := planned_beside engine entry inside
  have temp : (⟨.absolute ["gallery"], ".rendering"⟩ : Storage).tempPath
      (.absolute ["gallery", "out.mp4"]) = .ok (.absolute ["gallery", "out.rendering.mp4"]) := by
    decide +kernel
  obtain ⟨job, order⟩ := order_sample engine _ "out.mp4" _ planned temp
  exact ⟨job, destination_of_order order planned, order⟩

end

/-- A link at the temporary path of `out.mp4` is written through. -/
theorem write_beside :
    (besideSample (.link "a.mp4") []).tree.write (.absolute ["gallery", "out.rendering.mp4"])
        "part" =
      .ok ((besideSample (.link "a.mp4") []).tree.set ["gallery", "a.mp4"] (.file "part")) := by
  let tree := (besideSample (.link "a.mp4") []).tree
  -- One link of the forty that may be followed has been met when the walk starts again.
  have film : tree.walk .written 39 ["gallery"] ["a.mp4"] =
      .ok (["gallery", "a.mp4"], some (.file "film")) := by
    rw [walk_single _ .written 39 ["gallery"] "a.mp4" (by decide) rfl]
    rfl
  have target : Path.pieces "a.mp4" = ["a.mp4"] := by decide
  have walked : tree.walk .written 40 [] ["gallery", "out.rendering.mp4"] =
      .ok (["gallery", "a.mp4"], some (.file "film")) := by
    rw [walk_cons _ .written 40 [] "gallery" _ (not_not.mpr rfl) (by decide)
      (by decide) (by decide) (by decide)]
    change walk _ .written 40 ["gallery"] ["out.rendering.mp4"] = _
    rw [walk_single _ .written 40 ["gallery"] "out.rendering.mp4" (by decide) rfl,
      if_neg (by decide)]
    change walk _ .written 39 (if "a.mp4".startsWith "/" then [] else ["gallery"])
      (Path.pieces "a.mp4") = _
    rw [if_neg (by decide +kernel), target, film]
  have found : tree.find .written (.absolute ["gallery", "out.rendering.mp4"]) =
      .ok (["gallery", "a.mp4"], some (.file "film")) :=
    (find_eq_ok_iff ..).mpr ⟨by decide, by decide, walked⟩
  change tree.write _ _ = _
  rw [write, found]
  rfl

/-- A directory at the temporary path of `out.mp4` takes the place of the destination, with what is
in it. -/
theorem replace_beside :
    let site := besideSample .directory [(["gallery", "out.rendering.mp4", "x"], .file "kept")]
    Storage.replace site.tree (.absolute ["gallery", "out.rendering.mp4"])
        (.absolute ["gallery", "out.mp4"]) =
      ((site.tree.erase ["gallery", "out.mp4"]).move ["gallery", "out.rendering.mp4"]
        ["gallery", "out.mp4"], .ok ()) := by
  intro site
  have resolved := resolved_beside .directory
    [(["gallery", "out.rendering.mp4", "x"], .file "kept")]
  have there : site.tree.doesExist (.absolute ["gallery", "out.mp4"]) = .ok true := by
    rw [doesExist, resolved.test_eq]
    decide
  have gone : site.tree.unlink (.absolute ["gallery", "out.mp4"]) =
      .ok (site.tree.erase ["gallery", "out.mp4"]) := by
    have old : site.tree.entry (.absolute ["gallery", "out.mp4"]) = .ok (some (.file "old")) := by
      decide
    rw [resolved.held.unlink_eq, old]
    rfl
  let cleared := site.tree.erase ["gallery", "out.mp4"]
  -- A directory may be moved to where nothing is, and the old file has been deleted before.
  have moved : cleared.rename (.absolute ["gallery", "out.rendering.mp4"])
      (.absolute ["gallery", "out.mp4"]) =
        .ok (cleared.move ["gallery", "out.rendering.mp4"] ["gallery", "out.mp4"]) := by
    have temp : cleared.Resolved (.absolute ["gallery", "out.rendering.mp4"]) :=
      (reached_sample (by decide) (by decide) (by decide)).resolved
    have free : cleared.Resolved (.absolute ["gallery", "out.mp4"]) :=
      (reached_sample (by decide) (by decide) (by decide)).resolved
    have found : cleared.entry (.absolute ["gallery", "out.rendering.mp4"]) =
        .ok (some .directory) := by
      decide
    have found' : cleared.entry (.absolute ["gallery", "out.mp4"]) = .ok none := by
      decide
    exact temp.held.rename_eq_move (List.cons_ne_nil _ _) free.held (List.cons_ne_nil _ _) found
      found' (by decide) (by decide)
  rw [Storage.replace, Storage.replaceSteps, there]
  dsimp only
  rw [if_pos rfl, gone]
  dsimp only
  rw [moved]

/-- A render deletes a file that stands at its temporary path, it overwrites another file through a
link that stands there, and it moves a directory that stands there, though none of these is its
destination. -/
theorem not_spares_beside :
    let r (actions : List OutputAction) (failure : Option Failure) :=
      sample (.scripted ⟨actions, [], failure⟩)
    let lost : Failure := .foreign .runtime "RuntimeError" "lost"
    let filed := besideSample (.file "kept") []
    let linked := besideSample (.link "a.mp4") []
    let nested := besideSample .directory [(["gallery", "out.rendering.mp4", "x"], .file "kept")]
    (¬(r [] (some lost)).MayChange (fun _ => none) filed.tree (.sample "out.mp4")
        ["gallery", "out.rendering.mp4"] ∧
      filed.tree.get? ["gallery", "out.rendering.mp4"] = some (.file "kept") ∧
      ((r [] (some lost)).render (.sample "out.mp4") filed).1.tree.get?
        ["gallery", "out.rendering.mp4"] = none) ∧
    (¬(r [.write "part"] (some lost)).MayChange (fun _ => none) linked.tree (.sample "out.mp4")
        ["gallery", "a.mp4"] ∧
      linked.tree.get? ["gallery", "a.mp4"] = some (.file "film") ∧
      ((r [.write "part"] (some lost)).render (.sample "out.mp4") linked).1.tree.get?
        ["gallery", "a.mp4"] = some (.file "part")) ∧
    (¬(r [] none).MayChange (fun _ => none) nested.tree (.sample "out.mp4")
        ["gallery", "out.rendering.mp4", "x"] ∧
      nested.tree.get? ["gallery", "out.rendering.mp4", "x"] = some (.file "kept") ∧
      ((r [] none).render (.sample "out.mp4") nested).1.tree.get?
        ["gallery", "out.rendering.mp4", "x"] = none) := by
  intro r lost filed linked nested
  have plain : (Path.absolute ["gallery", "out.rendering.mp4"]).IsPlain :=
    ⟨rfl, by decide⟩
  refine ⟨⟨not_mayChange_beside _ _ _ _ (by decide), by rfl, ?_⟩,
    ⟨not_mayChange_beside _ _ _ _ (by decide), by rfl, ?_⟩,
    not_mayChange_beside _ _ _ _ (by decide), by rfl, ?_⟩
  · have held : filed.tree.Held (.absolute ["gallery", "out.rendering.mp4"]) :=
      (reached_sample (by decide) rfl rfl).resolved.held
    obtain ⟨job, _, order⟩ := order_beside (r [] (some lost)).engine (.file "kept") []
    have discarded : ((r [] (some lost)).encoded job (.absolute ["gallery", "out.rendering.mp4"])
        filed.tree).1 = filed.tree.erase ["gallery", "out.rendering.mp4"] :=
      Storage.discard_of_file filed.tree _ "kept" held (by decide)
    rw [((r [] (some lost)).render_of_order _ filed rfl rfl order).1, discarded]
    decide
  · obtain ⟨job, _, order⟩ := order_beside (r [.write "part"] (some lost)).engine (.link "a.mp4") []
    have written : ((r [.write "part"] (some lost)).produced job
        (.absolute ["gallery", "out.rendering.mp4"]) linked.tree) =
          ⟨linked.tree.set ["gallery", "a.mp4"] (.file "part"), [], some lost⟩ := by
      rw [produced_eq _ job _ _ plain]
      change Production.perform ⟨[.write "part"], [], _⟩ _ _ = _
      rw [Production.perform, Production.performAll, OutputAction.perform, write_beside]
      rfl
    rw [((r [.write "part"] (some lost)).render_of_order _ linked rfl rfl order).1, encoded,
      written]
    -- The link is deleted then, and not what it led to.
    have discarded := Storage.changed_discard
      (linked.tree.set ["gallery", "a.mp4"] (.file "part"))
      (.absolute ["gallery", "out.rendering.mp4"])
    refine (discarded.elsewhere ["gallery", "a.mp4"] ?_).trans (by decide)
    intro path listed entry found
    rw [List.mem_singleton.mp listed] at found
    obtain ⟨_, holder, _, child⟩ := (find_kept_eq_ok_iff plain (by decide)).mp found
    obtain ⟨_, same, _⟩ := (child_eq_ok_iff ..).mp child
    have last := congrArg List.getLast? same
    rw [List.getLast?_concat] at last
    exact absurd last (by decide)
  · obtain ⟨job, same, order⟩ := order_beside (r [] none).engine .directory
      [(["gallery", "out.rendering.mp4", "x"], .file "kept")]
    have moved : (r [] none).encoded job (.absolute ["gallery", "out.rendering.mp4"]) nested.tree =
        (r [] none).announced job _ := encoded_of_replace rfl _ rfl (same ▸ replace_beside)
    rw [((r [] none).render_of_order _ nested rfl rfl order).1, moved]
    change FileTree.get? (move _ _ _) _ = none
    decide

end Renderer

end Montage
