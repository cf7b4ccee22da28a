import Montage.Proofs.Gallery.Moving
import Montage.Proofs.Render.Confinement

/-!
# Delivery

A render that succeeds has delivered what the engine left for it: the entry at the temporary path
stands at the destination, nothing is left at the temporary path, and the path in the result is one
that leads to the destination when it is resolved again. The last holds only where resolving has
come to an end: a destination that was named behind an endless link may hold links itself, and then
its path in the result leads elsewhere, or nowhere in the gallery.
-/
namespace Montage

open FileTree

namespace Storage

/-- What stood at a temporary path stands at the destination, and nothing else on the way there has
changed. -/
structure Moves (tree : FileTree) (temp destination : Path) (written : Entry)
    (moved : FileTree) : Prop where
  found : tree.entry temp = .ok (some written)
  placed : moved.entry destination = .ok (some written)
  gone : moved.get? temp.names = none
  above : ∀ p, p <+: destination.names → p ≠ destination.names → moved.get? p = tree.get? p

/-- A replacement that succeeds moves what is at the temporary path, whatever was at the
destination. -/
theorem Beside.exists_moves {tree moved : FileTree} {temp destination : Path}
    (h : Beside tree temp destination)
    (ok : replace tree temp destination = (moved, .ok ())) :
    ∃ written, Moves tree temp destination written moved := by
  obtain ⟨ne, cleared, written, edited, absent, found, rfl⟩ :=
    replace_ok h.held h.resolved h.temp_ne_nil h.destination_ne_nil ok
  -- Above the destination nothing is moved and nothing is replaced.
  have above (p : Position) (le : p <+: destination.names) (other : p ≠ destination.names) :
      (cleared.move temp.names destination.names).get? p = cleared.get? p := by
    refine cleared.get?_move_apart h.destination_ne_nil ?_ ?_
    · exact fun below => h.tempApart (below.trans le)
    · intro below
      exact other (le.eq_of_length (Nat.le_antisymm le.length_le below.length_le))
  have goal :
      (cleared.move temp.names destination.names).get? destination.names = some written := by
    rw [cleared.get?_move_target ne h.temp_ne_nil h.destination_ne_nil,
      ← (cleared.entry_ok temp _ found).1]
  refine ⟨written, ?_, ?_, ?_, ?_⟩
  · rw [← found, edited.entry_eq temp]
    intro path listed
    rw [List.mem_singleton.mp listed]
    exact h.destinationApart
  · rw [cleared.entry_of_agree_above _ destination none absent fun p le other =>
      (above p le other).symm, goal]
  · exact cleared.get?_move_under List.prefix_rfl h.destinationApart h.temp_ne_nil
  · intro p le other
    rw [above p le other]
    refine edited.elsewhere p fun path listed => ?_
    rwa [List.mem_singleton.mp listed]

/-- The relative form of a path that is reached under the root resolves to the path. -/
theorem exists_relative (s : Storage) (tree : FileTree) (full : Path) (rooted : s.root.IsPlain)
    (plain : full.IsPlain) (under : full.isUnder s.root = true) (inside : full ≠ s.root)
    (reached : tree.IsReached full.names) (unbroken : full.isUnfit = false) :
    ∃ relative, s.relative? full = some relative ∧
      s.resolve tree (Path.ofString relative) relative = .ok full := by
  -- The relative form holds the names below the root, and at least one of them.
  obtain ⟨rest, shape⟩ : ∃ rest, s.root.names ++ rest = full.names := by
    rw [Path.isUnder, Bool.and_eq_true] at under
    exact List.isPrefixOf_iff_prefix.mp under.2
  have full_eq : full = .absolute (s.root.names ++ rest) := by
    rcases full with ⟨root, names⟩
    obtain rfl : root = "/" := plain.root_eq
    rw [shape]
    rfl
  have nonempty : rest ≠ [] := by
    rintro rfl
    refine inside ?_
    rw [full_eq, List.append_nil, Path.absolute, ← rooted.root_eq]
  have named : ∀ name ∈ rest, Path.IsName name := fun name member =>
    plain.named name (shape ▸ List.mem_append_right _ member)
  refine ⟨Path.text ⟨"", rest⟩, ?_, ?_⟩
  · rw [relative?, Path.relativeTo?, if_pos under, ← shape, List.drop_left]
    rfl
  · rw [Path.ofString_relative rest nonempty named, full_eq]
    refine s.resolve_of_isReached tree ⟨"", rest⟩ _ rooted.root_eq rfl (shape.symm ▸ reached) ?_
    intro name member
    rw [shape] at member
    rw [Path.isUnfit, List.any_eq_false] at unbroken
    exact Bool.eq_false_iff.mpr (unbroken name member)

end Storage

namespace Renderer

variable {r : Renderer} {job : Job} {output : Path} {tree : FileTree} {result : RenderResult}

theorem verdict_fails {e : Failure} (given : r.verdict e = .ok result) :
    result.success = false := by
  rw [verdict] at given
  split at given
  · cases given
    exact success_result e
  · cases given

theorem abandoned_fails {e : Failure} (given : (r.abandoned output e tree).2 = .ok result) :
    result.success = false := by
  simp only [abandoned] at given
  split at given
  · exact verdict_fails given
  · exact verdict_fails given

/-- There is one way to succeed: the engine has returned, what it left has been moved to the
destination, and the result names the destination. -/
theorem exists_of_success (given : (r.encoded job output tree).2 = .ok result)
    (success : result.success = true) : ∃ moved,
      Storage.replace (r.produced job output tree).tree output job.destination = (moved, .ok ()) ∧
      (r.encoded job output tree).1 = (r.invalidator (r.shownPath job.destination) moved).tree ∧
      result = .succeeded (r.shownPath job.destination) job.warnings := by
  -- Whatever goes wrong, the render is abandoned, and that is no success.
  have abandons {e : Failure} {after : FileTree}
      (given : (r.abandoned output e after).2 = .ok result) : False := by
    rw [abandoned_fails given] at success
    cases success
  unfold encoded at given ⊢
  cases returned : (r.produced job output tree).failure with
  | some e =>
    rw [returned] at given
    exact (abandons given).elim
  | none =>
    rw [returned] at given
    dsimp only at given ⊢
    unfold finalized at given ⊢
    cases quiet : r.check .finalizing with
    | some e =>
      rw [quiet] at given
      exact (abandons given).elim
    | none =>
      rw [quiet] at given
      dsimp only at given ⊢
      split at given
      next moved replaced =>
        rw [replaced]
        refine ⟨moved, rfl, rfl, ?_⟩
        simp only [announced] at given
        split at given
        · exact (Except.ok.inj given).symm
        · cases given
      next => exact (abandons given).elim

/-- A render that succeeds has come to a job, and the job has succeeded. -/
theorem exists_order_of_success {request : RenderRequest} {site : Site}
    (idle : site.locks.current = [])
    (answered : (r.render request site).2.answer? = some (.ok result))
    (success : result.success = true) :
    ∃ job output, r.order site.tree request = .ok (job, output) ∧
      (r.render request site).1.tree = (r.encoded job output site.tree).1 ∧
      (r.encoded job output site.tree).2 = .ok result := by
  obtain ⟨answer, given, outcome_eq⟩ := r.render_outcome request site idle
  rw [answered, Option.some.injEq] at given
  subst given
  rw [outcome] at outcome_eq
  cases quiet : r.check .idle with
  | some e =>
    rw [quiet] at outcome_eq
    cases congrArg Prod.snd outcome_eq
  | none =>
    rw [quiet] at outcome_eq
    cases order : r.order site.tree request with
    | error e =>
      rw [order] at outcome_eq
      -- A request that has not come to a job is answered with a failure.
      have fails := verdict_fails (congrArg Prod.snd outcome_eq).symm
      rw [success] at fails
      cases fails
    | ok ordered =>
      obtain ⟨job, output⟩ := ordered
      rw [order] at outcome_eq
      exact ⟨job, output, rfl, congrArg Prod.fst outcome_eq, (congrArg Prod.snd outcome_eq).symm⟩

/-- A destination with nothing in the way of a delivery: it leads where its names say, no link
stands at the temporary path, and neither is in a place of thumbnails. -/
structure Unhindered (thumbnail : Position → Prop) (tree : FileTree)
    (destination output : Path) : Prop where
  resolved : tree.HasEndlessLink → tree.Resolved destination
  unlinked : tree.linkAt? output.names = none
  apart : ∀ p, thumbnail p → ¬p <+: destination.names ∧ p ≠ output.names

/-- A delivery. What the engine left at the temporary path is at the destination and no longer
there, and the result has the path of the destination, which resolves to it. -/
structure Delivers (r : Renderer) (request : RenderRequest) (before after : FileTree)
    (destination : Path) (result : RenderResult) : Prop where
  written : ∃ job output entry, r.order before request = .ok (job, output) ∧
    job.destination = destination ∧ (∀ target, entry ≠ .link target) ∧
    (r.produced job output before).tree.find .kept output = .ok (output.names, some entry) ∧
    after.find .kept destination = .ok (destination.names, some entry) ∧ ¬after.HasEntry output
  named : ∃ relative, r.storage.relative? destination = some relative ∧
    result.path = some relative ∧
    r.storage.resolve after (Path.ofString relative) relative = .ok destination

/-- A delivered file is still there when the thumbnails have been seen to, and so is the way to
it. -/
theorem delivers_of_moves {thumbnail : Position → Prop} {request : RenderRequest}
    {before : FileTree} {written : Entry} {moved : FileTree}
    (whole : '/' ∉ r.storage.tempSuffix.toList) (rooted : r.storage.root.IsPlain)
    (touches : ∀ relative tree p, ¬thumbnail p →
      (r.invalidator relative tree).tree.get? p = tree.get? p)
    (order : r.order before request = .ok (job, output))
    (clear : Unhindered thumbnail before job.destination output)
    (beside : Storage.Beside before output job.destination)
    (moves : Storage.Moves (r.produced job output before).tree output job.destination written
      moved) :
    r.Delivers request before (r.invalidator (r.shownPath job.destination) moved).tree
      job.destination (.succeeded (r.shownPath job.destination) job.warnings) := by
  obtain ⟨timeline, _, plan, _, temp⟩ := order_ok before request job output order
  obtain ⟨path, shown, _, file⟩ := destination_of_plan before request job.destination timeline plan
  obtain ⟨resolves, inside, _⟩ :=
    (r.storage.fileDestination_eq_ok_iff before path shown job.destination).mp file
  have under := ((r.storage.resolve_eq_ok_iff before path shown job.destination).mp resolves).2
  have edited := r.edited_produced job output before (beside.held.resolved clear.unlinked)
  have beside' := beside.within edited.links
  have plain := beside.resolved.plain
  have unlinked : ∀ target, written ≠ .link target := by
    rintro target rfl
    have there := ((r.produced job output before).tree.entry_ok output _ moves.found).1
    exact (linkAt?_eq_none _ _).mp (edited.links _ clear.unlinked) target there.symm
  -- The thumbnail is neither the destination nor above it, so dropping it leaves the way there.
  generalize final : (r.invalidator (r.shownPath job.destination) moved).tree = after
  have kept (p : Position) (le : p <+: job.destination.names) : after.get? p = moved.get? p := by
    rw [← final]
    exact touches _ moved p fun place => (clear.apart p place).1 le
  have placed : after.entry job.destination = .ok (some written) := by
    rw [entry_congr after moved job.destination kept, moves.placed]
  -- No link stands on the way: none did before, and the file that was moved there is none.
  have reached : after.IsReached job.destination.names := by
    refine ⟨plain.named, fun p le => ?_⟩
    rw [linkAt?_congr (kept p le)]
    by_cases last : p = job.destination.names
    · rw [linkAt?_eq_none, last, ← (moved.entry_ok job.destination _ moves.placed).1]
      exact fun target same => unlinked target (Option.some.inj same)
    · rw [linkAt?_congr (moves.above p le last)]
      exact beside'.resolved.clear p le
  have resolved : after.Resolved job.destination := ⟨plain, reached.clear⟩
  have left := (r.storage.held_tempPath after job.destination output whole resolved temp).1
  constructor
  · refine ⟨job, output, written, order, rfl, unlinked, ?_, ?_, ?_⟩
    · rw [beside'.held.find_eq, moves.found]
      rfl
    · rw [resolved.held.find_eq, placed]
      rfl
    · rw [left.hasEntry_iff]
      rintro ⟨entry, there⟩
      have gone : after.get? output.names = none := by
        rw [← final, touches _ moved _ fun place => (clear.apart _ place).2 rfl, moves.gone]
      rw [← (after.entry_ok output _ there).1] at gone
      cases gone
  · obtain ⟨relative, named, back⟩ := r.storage.exists_relative after job.destination rooted plain
      under inside reached (after.isUnfit_of_entry _ _ placed)
    refine ⟨relative, named, ?_, back⟩
    rw [RenderResult.succeeded, shownPath, named]
    rfl

/-- Of a render that succeeds, what the engine left for it at the temporary path is at the
destination, nothing is left at the temporary path, and the path of the result leads to the
destination when it is resolved again. So it is for every gallery and request, whether or not there
was a file before, the name was new, the path went through links or the thumbnail could be dropped;
only behind links that lead back to themselves a destination may have been left unresolved. -/
theorem delivers_on_success (r : Renderer) (thumbnail : Position → Prop) (request : RenderRequest)
    (site : Site) (result : RenderResult) (whole : '/' ∉ r.storage.tempSuffix.toList)
    (rooted : r.storage.root.IsPlain) (idle : site.locks.current = [])
    (touches : ∀ relative tree p, ¬thumbnail p →
      (r.invalidator relative tree).tree.get? p = tree.get? p)
    (clear : ∀ destination timeline output,
      r.plan site.tree request = .ok (destination, timeline) →
        r.storage.tempPath destination = .ok output →
          Unhindered thumbnail site.tree destination output)
    (answered : (r.render request site).2.answer? = some (.ok result))
    (success : result.success = true) :
    ∃ destination timeline, r.plan site.tree request = .ok (destination, timeline) ∧
      r.Delivers request site.tree (r.render request site).1.tree destination result := by
  obtain ⟨job, output, order, final, given⟩ := exists_order_of_success idle answered success
  obtain ⟨timeline, _, plan, _, temp⟩ := order_ok site.tree request job output order
  have clear := clear job.destination timeline output plan temp
  have resolved := (resolved_of_plan site.tree request _ _ rooted.whole plan).elim id
    clear.resolved
  obtain ⟨moved, replaced, tree, rfl⟩ := exists_of_success given success
  obtain ⟨held, below, below', _⟩ :=
    r.storage.held_tempPath site.tree job.destination output whole resolved temp
  have links := r.links_produced job output site.tree held
  -- A file cannot take its own place, so success shows the two paths to differ.
  have ne := (Storage.replace_ok (links.held held) (links.resolved resolved) below below'
    replaced).1
  have beside := r.storage.beside_of_ne site.tree job.destination output whole resolved temp ne
  obtain ⟨written, moves⟩ := (beside.within links).exists_moves replaced
  refine ⟨job.destination, timeline, plan, ?_⟩
  rw [final, tree]
  exact delivers_of_moves whole rooted touches order clear beside moves

/-- An engine that writes a file, and does nothing else. -/
theorem produced_sample (job : Job) (output : Path) (tree written : FileTree) (content : String)
    (scripted : r.engine = .scripted ⟨[.write content], [], none⟩) (plain : output.IsPlain)
    (wrote : tree.write output content = .ok written) :
    r.produced job output tree = ⟨written, [], none⟩ := by
  rw [r.produced_eq job output tree plain, scripted]
  change Production.perform ⟨[.write content], [], none⟩ tree output = _
  rw [Production.perform, Production.performAll, OutputAction.perform, wrote]
  rfl

/-- A render whose file has been moved to its destination succeeds, whatever came of the
thumbnail. -/
theorem render_of_replace {request : RenderRequest} (site : Site) {moved : FileTree}
    (idle : site.locks.current = []) (quiet : ∀ state, r.check state = none)
    (order : r.order site.tree request = .ok (job, output))
    (returned : (r.produced job output site.tree).failure = none)
    (replaced : Storage.replace (r.produced job output site.tree).tree output job.destination =
      (moved, .ok ())) :
    (r.render request site).1.tree = (r.invalidator (r.shownPath job.destination) moved).tree ∧
      (r.render request site).2.answer? =
        some (.ok (.succeeded (r.shownPath job.destination) job.warnings)) := by
  obtain ⟨final, answer⟩ := r.render_of_order request site idle (quiet .idle) order
  rw [encoded_of_replace (quiet .finalizing) moved returned replaced, announced,
    quiet .done] at final answer
  exact ⟨final, answer⟩

/-- A sample render whose file has been moved to its destination succeeds, with any invalidator of
thumbnails. -/
theorem render_sample (r : Renderer) (name content : String) (tree written moved : FileTree)
    (same : r = { sample (.scripted ⟨[.write content], [], none⟩) with
      invalidator := r.invalidator })
    {destination output : Path} (plain : output.IsPlain)
    (planned : (sample (.scripted ⟨[.write content], [], none⟩)).plan tree (.sample name) =
      .ok (destination, .sample))
    (temp : (sample (.scripted ⟨[.write content], [], none⟩)).storage.tempPath destination =
      .ok output)
    (wrote : tree.write output content = .ok written)
    (replaced : Storage.replace written output destination = (moved, .ok ())) :
    let site : Site := ⟨tree, .empty, .empty⟩
    (r.render (.sample name) site).1.tree = (r.invalidator (r.shownPath destination) moved).tree ∧
      ∃ warnings, (r.render (.sample name) site).2.answer? =
        some (.ok (.succeeded (r.shownPath destination) warnings)) := by
  intro site
  obtain ⟨job, ordered⟩ := order_sample _ tree name output planned temp
  obtain rfl := destination_of_order ordered planned
  -- A job is ordered before anything is done about thumbnails.
  have order : r.order site.tree (.sample name) = .ok (job, output) := by
    refine (order_congr r (sample _) tree _ ?_ ?_ ?_ ?_).trans ordered <;> rw [same]
  have produced := produced_sample (r := r) job output tree written content
    (congrArg engine same) plain wrote
  have quiet (state : RenderState) : r.check state = none := by
    rw [same]
    rfl
  obtain ⟨final, answer⟩ := render_of_replace site rfl quiet order
    (by rw [produced]) (by rw [produced]; exact replaced)
  exact ⟨final, job.warnings, answer⟩

/-- A new file in the sample gallery, first beside the destination and then in its place. -/
theorem moves_sample :
    let r := sample (.scripted ⟨[.write "new"], [], none⟩)
    let destination : Path := .absolute ["gallery", "out.mp4"]
    let output : Path := .absolute ["gallery", "out.rendering.mp4"]
    r.plan .sample (.sample "out.mp4") = .ok (destination, .sample) ∧
      r.storage.tempPath destination = .ok output ∧
      ∃ written moved, FileTree.sample.write output "new" = .ok written ∧
        Storage.replace written output destination = (moved, .ok ()) ∧
        moved.get? ["gallery", "out.mp4"] = some (.file "new") := by
  intro r destination output
  let written := FileTree.sample.set ["gallery", "out.rendering.mp4"] (.file "new")
  let cleared := written.erase ["gallery", "out.mp4"]
  let moved := cleared.move ["gallery", "out.rendering.mp4"] ["gallery", "out.mp4"]
  have output_resolved := resolved_sample .sample (by decide) "out.rendering.mp4" (by decide)
  have destination_resolved := resolved_sample written (by decide) "out.mp4" (by decide)
  refine ⟨?_, by decide +kernel, written, moved, ?_, ?_, by decide⟩
  · exact plan_old _
  -- The engine finds the temporary path free.
  · have absent : FileTree.sample.entry output = .ok none := by decide
    rw [output_resolved.write_eq, absent]
    rfl
  · refine Storage.replace_eq_ok_iff.mpr ⟨true, cleared, ?_, ?_, ?_⟩
    · rw [doesExist, destination_resolved.test_eq]
      decide
    -- The old file is deleted, and then its place is free.
    · have old : written.entry destination = .ok (some (.file "old")) := by decide
      rw [if_pos rfl, destination_resolved.held.unlink_eq, old]
      rfl
    · have source := resolved_sample cleared (by decide) "out.rendering.mp4" (by decide)
      have target := resolved_sample cleared (by decide) "out.mp4" (by decide)
      have found : cleared.entry output = .ok (some (.file "new")) := by decide
      have free : cleared.entry destination = .ok none := by decide
      exact source.held.rename_eq_move (List.cons_ne_nil _ _) target.held (List.cons_ne_nil _ _)
        found free (by decide) (by decide)

/-- A render puts its file in place of the one that was there. -/
theorem delivers_on_success_sample :
    let r := sample (.scripted ⟨[.write "new"], [], none⟩)
    let site : Site := ⟨.sample, .empty, .empty⟩
    let final := (r.render (.sample "out.mp4") site).1.tree
    ∃ result, (r.render (.sample "out.mp4") site).2.answer? = some (.ok result) ∧
      result.success = true ∧ result.path = some "out.mp4" ∧
      r.Delivers (.sample "out.mp4") .sample final (.absolute ["gallery", "out.mp4"]) result ∧
      final.get? ["gallery", "out.mp4"] = some (.file "new") := by
  intro r site final
  have linkless : FileTree.sample.IsLinkless := by decide
  have output := resolved_sample .sample linkless "out.rendering.mp4" (by decide)
  obtain ⟨planned, temp, written, moved, wrote, replaced, new⟩ := moves_sample
  obtain ⟨tree, warnings, answered⟩ :=
    render_sample r "out.mp4" "new" .sample written moved rfl output.plain planned temp wrote
      replaced
  obtain ⟨place, timeline, plan, delivers⟩ := r.delivers_on_success (fun _ => False)
    (.sample "out.mp4") site _ (by decide) ⟨rfl, by decide⟩ rfl
    (fun _ _ _ _ => rfl) (by
      intro found timeline beside plan temp'
      cases planned.symm.trans plan
      cases temp.symm.trans temp'
      exact ⟨fun _ => resolved_sample .sample linkless "out.mp4" (by decide),
        linkless.linkAt?_eq_none _, fun _ absurdity => absurdity.elim⟩) answered rfl
  cases planned.symm.trans plan
  have shown : r.shownPath (.absolute ["gallery", "out.mp4"]) = "out.mp4" := by decide
  refine ⟨_, answered, rfl, congrArg some shown, delivers, ?_⟩
  -- What the file holds is not part of the theorem, but of the moves.
  change (r.render (.sample "out.mp4") site).1.tree.get? _ = _
  rw [tree]
  exact new

/-- Behind a link that leads back to itself a file is delivered through another link that leads out
of the gallery. Nothing is at the temporary path before, and the render succeeds, but the path of
its result is refused when it is resolved again. -/
theorem not_delivers_behind_loop :
    let r := sample (.scripted ⟨[.write "new"], [], none⟩)
    let site : Site := ⟨.looped, .empty, .empty⟩
    let request : RenderRequest := .sample "loop/../escape/out.mp4"
    site.tree.find .kept (.absolute ["gallery", "escape", "out.rendering.mp4"]) =
        .ok (["out.rendering.mp4"], none) ∧
      ∃ result, (r.render request site).2.answer? = some (.ok result) ∧ result.success = true ∧
        result.path = some "escape/out.mp4" ∧
        ∀ full, r.storage.resolve (r.render request site).1.tree (Path.ofString "escape/out.mp4")
          "escape/out.mp4" ≠ .ok full := by
  intro r site request
  let destination : Path := .absolute ["gallery", "escape", "out.mp4"]
  let output : Path := .absolute ["gallery", "escape", "out.rendering.mp4"]
  let written := FileTree.looped.set ["out.rendering.mp4"] (.file "new")
  let moved := written.move ["out.rendering.mp4"] ["out.mp4"]
  -- Both paths go through the link `escape`, to positions beside the gallery.
  have plain : destination.IsPlain := ⟨rfl, by decide⟩
  have plain' : output.IsPlain := ⟨rfl, by decide⟩
  obtain ⟨_, absent⟩ := find_looped .looped rfl rfl
  obtain ⟨free, there⟩ := find_looped written rfl rfl
  have wrote : FileTree.looped.write output "new" = .ok written := by
    rw [write, find_of_kept plain' (List.cons_ne_nil _ _) .written absent
      fun _ => (Option.some_ne_none _).symm]
    rfl
  have replaced : Storage.replace written output destination = (moved, .ok ()) := by
    refine Storage.replace_eq_ok_iff.mpr ⟨false, written, ?_, rfl, ?_⟩
    · exact test_of_find _ (find_of_kept plain (List.cons_ne_nil _ _) .followed free
        fun _ => (Option.some_ne_none _).symm)
    · exact rename_of_find_kept plain' (List.cons_ne_nil _ _) plain (List.cons_ne_nil _ _) there
        free (by decide) (by decide)
  obtain ⟨tree, warnings, answered⟩ := render_sample r "loop/../escape/out.mp4" "new"
    .looped written moved rfl plain' (planned_looped r.engine) (by decide +kernel) wrote replaced
  have read : Path.ofString "escape/out.mp4" = ⟨"", ["escape", "out.mp4"]⟩ := by decide
  have shown : r.shownPath destination = "escape/out.mp4" := by decide
  -- Without the loop before it, `escape` is followed, and leads out.
  refine ⟨absent, _, answered, rfl, congrArg some shown, ?_⟩
  rw [tree, read]
  exact r.storage.resolve_ne_ok moved _ _ (leaves_escape r.engine moved (by decide)
    (by decide) (by decide))

end Renderer

end Montage
