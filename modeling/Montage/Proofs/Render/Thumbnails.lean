import Montage.Proofs.Render.Delivery

/-!
# The thumbnail of a written file

When a render has written a file, the thumbnail that is dropped is the one of the file's path with
slashes for its backslashes. For most files that is their own thumbnail, and then no other file
changes. But a backslash may stand in the name of a file. Such a file keeps its old thumbnail, and
the one of another file goes in its place.
-/
namespace Montage

open FileTree

theorem Text.slash_not_mem_hex (width n : Nat) : '/' ∉ hex width n := by
  have digits : ∀ k < 16, hexDigit k ≠ '/' := by decide
  rw [hex, List.mem_map]
  rintro ⟨i, _, here⟩
  exact digits _ (Nat.mod_lt _ (by decide)) here

/-- An invalidator leaves no file where the thumbnail was that it drops. -/
theorem Invalidator.Drops.gone {invalidator : Invalidator} {thumbnail : String → Option Path}
    (drops : invalidator.Drops thumbnail) {relative : String} {path : Path}
    (named : thumbnail relative = some path) {tree : FileTree} {position : Position}
    {entry : Entry}
    (found : (invalidator relative tree).tree.find .kept path = .ok (position, some entry)) :
    entry = .directory := by
  rw [drops, named] at found
  dsimp only at found
  cases unlinked : tree.unlink path with
  | ok next =>
    rw [unlinked] at found
    dsimp only at found
    obtain ⟨place, before, _, file, rfl⟩ := unlink_ok next unlinked
    have below : place ≠ [] := by
      rintro rfl
      exact file rfl
    -- The path leads where it led, and there the file has been taken away.
    have same := (changed_unlink _ unlinked).covers.find_kept found
    rw [before, Except.ok.injEq, Prod.mk.injEq] at same
    have there := get?_of_find_kept found
    rw [← same.1, tree.get?_erase_at place place below, if_pos rfl] at there
    cases there
  | error e =>
    rw [unlinked] at found
    dsimp only at found
    rw [unlink, found] at unlinked
    cases entry with
    | directory => rfl
    | file content => cases unlinked
    | link target => cases unlinked

namespace ThumbnailCache

/-- The name of a thumbnail is 32 digits and an extension. -/
theorem isName_hexDigest (relative : String) : Path.IsName (Md5.hexDigest relative ++ ".jpg") := by
  have whole : '/' ∉ (Md5.hexDigest relative).toList := by
    rw [Md5.hexDigest, String.toList_ofList, List.mem_flatMap]
    rintro ⟨b, _, here⟩
    exact Text.slash_not_mem_hex 2 b.toNat here
  have chars : (Md5.hexDigest relative ++ ".jpg").toList =
      (Md5.hexDigest relative).toList ++ ['.', 'j', 'p', 'g'] := String.toList_append
  -- Too long to be a path's step to the same or the upper directory.
  have long : 4 ≤ (Md5.hexDigest relative ++ ".jpg").toList.length := by
    rw [chars, List.length_append]
    exact Nat.le_add_left 4 _
  have other (name : String) (short : name.toList.length < 4) :
      Md5.hexDigest relative ++ ".jpg" ≠ name := by
    intro same
    rw [same] at long
    omega
  constructor
  · rw [Path.isIdle, Bool.or_eq_false_iff]
    exact ⟨by simp, decide_eq_false (other "." (by decide))⟩
  · exact other ".." (by decide)
  · rw [chars, List.mem_append, not_or]
    exact ⟨whole, by decide⟩

variable {cache : ThumbnailCache} {tree : FileTree}

theorem path_eq (cache : ThumbnailCache) (relative : String) : cache.path relative =
    ⟨cache.directory.root, cache.directory.names ++ [Md5.hexDigest relative ++ ".jpg"]⟩ := by
  rw [path, (isName_hexDigest relative).ofString_eq]
  rfl

theorem eq_path {relative : String} {thumbnail : Path}
    (named : cache.path? relative = .ok thumbnail) : thumbnail = cache.path relative := by
  unfold path? at named
  split at named
  · cases named
  · -- No unification here: it would compute the digest.
    exact (Except.ok.inj named).symm

theorem isPlain_path (placed : cache.directory.IsPlain) (relative : String) :
    (cache.path relative).IsPlain := by
  rw [path_eq]
  refine ⟨placed.root_eq, fun name member => ?_⟩
  rcases List.mem_append.mp member with above | here
  · exact placed.named name above
  · rw [List.mem_singleton.mp here]
    exact isName_hexDigest relative

/-- A thumbnail is looked up under the digest of the file's path. -/
theorem getLast?_of_find (placed : cache.directory.IsPlain) {relative : String} {p : Position}
    {entry : Option Entry} (found : tree.find .kept (cache.path relative) = .ok (p, entry)) :
    p.getLast? = some (Md5.hexDigest relative ++ ".jpg") := by
  have plain := isPlain_path placed relative
  have below : (cache.path relative).names ≠ [] := by
    rw [path_eq]
    exact List.concat_ne_nil _ _
  obtain ⟨_, holder, _, child⟩ := (find_kept_eq_ok_iff plain below).mp found
  obtain ⟨_, rfl, _⟩ := (tree.child_eq_ok_iff ..).mp child
  rw [List.getLast?_concat, Path.lastStep, plain.steps_eq, path_eq, List.getLastD_concat]

/-- Thumbnails of different digests stand in different places. -/
theorem position_ne (placed : cache.directory.IsPlain) {a b : String}
    (differ : Md5.hexDigest a ≠ Md5.hexDigest b) {p q : Position} {entry entry' : Option Entry}
    (found : tree.find .kept (cache.path a) = .ok (p, entry))
    (found' : tree.find .kept (cache.path b) = .ok (q, entry')) : p ≠ q := by
  rintro rfl
  have same := (getLast?_of_find placed found).symm.trans (getLast?_of_find placed found')
  rw [Option.some.injEq] at same
  exact differ (by simpa using same)

theorem toList_slashed (relative : String) : (slashed relative).toList =
    relative.toList.map fun c => if c = '\\' then '/' else c :=
  String.toList_map

/-- Only backslashes are rewritten. -/
theorem slashed_eq_self_iff (relative : String) :
    slashed relative = relative ↔ '\\' ∉ relative.toList := by
  constructor
  · intro same member
    rw [← same, toList_slashed, List.mem_map] at member
    obtain ⟨c, _, here⟩ := member
    split at here
    · exact absurd here (by decide)
    next other => exact other here
  · intro none
    have kept : (relative.toList.map fun c => if c = '\\' then '/' else c) =
        relative.toList.map id := by
      refine List.map_congr_left fun c member => if_neg ?_
      rintro rfl
      exact none member
    rw [← String.toList_inj, toList_slashed, kept, List.map_id]

/-- The thumbnail of a file, if it can have one, is no longer there, and nothing else has changed
but in some places that belong to the file itself. -/
structure Forgets (cache : ThumbnailCache) (relative : String) (own : Position → Prop)
    (before after : FileTree) : Prop where
  gone : ∀ thumbnail, cache.path? relative = .ok thumbnail → ∀ position entry,
    after.find .kept thumbnail = .ok (position, some entry) → entry = .directory
  kept : ∀ p, ¬own p → (∀ thumbnail, cache.path? relative = .ok thumbnail →
    ∀ entry, before.find .kept thumbnail ≠ .ok (p, entry)) → after.get? p = before.get? p

end ThumbnailCache

/-- A gallery with the thumbnails of two files, one of which has a backslash in its name. -/
def FileTree.thumbed : FileTree :=
  ⟨[(["gallery"], .directory), (["gallery", "a.mp4"], .file "film"),
    (["gallery", ".thumbs"], .directory),
    (["gallery", ".thumbs", "35e9414aa78b05fa761f8d3677eb80b7.jpg"], .file "stale"),
    (["gallery", ".thumbs", "70947a578dab71427c58d5768a2c93b1.jpg"], .file "other")]⟩

namespace Renderer

variable {r : Renderer} {cache : ThumbnailCache} {request : RenderRequest} {site : Site}
  {result : RenderResult}

/-- A position of the file that a request writes, or of its temporary file. -/
def Writes (r : Renderer) (tree : FileTree) (request : RenderRequest) (p : Position) : Prop :=
  r.MayChange (fun _ => none) tree request p ∨ r.IsTemporary tree request p

/-- A render that succeeds forgets the thumbnail of the path of its result, spelled with slashes. -/
theorem forgets_slashed (whole : '/' ∉ r.storage.tempSuffix.toList)
    (rooted : r.storage.root.IsPlain)
    (caching : r.invalidator = cache.invalidator) (writes : r.engine.WritesFiles)
    (proper : site.tree.IsProper) (idle : site.locks.current = [])
    (spare : ∀ destination timeline output,
      r.plan site.tree request = .ok (destination, timeline) →
        r.storage.tempPath destination = .ok output → site.tree.IsSpare output)
    (answered : (r.render request site).2.answer? = some (.ok result))
    (success : result.success = true) :
    ∃ destination timeline relative, r.plan site.tree request = .ok (destination, timeline) ∧
      r.storage.relative? destination = some relative ∧ result.path = some relative ∧
      cache.Forgets (ThumbnailCache.slashed relative) (r.Writes site.tree request) site.tree
        (r.render request site).1.tree := by
  obtain ⟨job, output, order, final, given⟩ := exists_order_of_success idle answered success
  obtain ⟨timeline, _, plan, _, temp⟩ := order_ok site.tree request job output order
  obtain ⟨moved, _, tree, rfl⟩ := exists_of_success given success
  have drops := cache.drops
  rw [← caching] at drops
  have beside := spare_of_plan whole rooted plan temp (spare _ timeline output plan temp)
  have changed := changed_encoded beside writes drops proper
  have inside := (isOutput_of_plan rooted _ _ plan).confines.isUnder rooted
  have shown : r.storage.relative? job.destination = some (r.shownPath job.destination) := by
    rw [shownPath, Storage.relative?, Path.relativeTo?, if_pos inside]
    rfl
  refine ⟨job.destination, timeline, _, plan, shown, rfl, ?_, ?_⟩
  · intro thumbnail named position entry found
    rw [final, tree] at found
    exact drops.gone (congrArg Except.toOption named) found
  · intro p other away
    rw [final]
    refine changed.elsewhere p ?_
    intro path listed entry found
    -- A render edits where its two files lead and where the dropped thumbnail does.
    rcases List.mem_append.mp listed with written | thumbnail
    · rcases List.mem_pair.mp written with rfl | rfl
      · exact other (.inr ⟨job.destination, timeline, _, entry, plan, temp, found⟩)
      · exact other (.inl ⟨_, timeline, plan, _, List.mem_cons_self, entry, found⟩)
    · have named := Option.mem_toList.mp thumbnail
      exact away path (Except.toOption_eq_some_iff.mp named) entry found

/-- Of a render that succeeds, the thumbnail that is dropped is the one of the result's path with
slashes for backslashes, and nothing else changes but the written file and its temporary file. So
without a backslash in the path it is the file's own thumbnail; with one, where the two digests
differ, the file's own thumbnail stays as it was. -/
theorem drops_thumbnail (r : Renderer) (cache : ThumbnailCache) (request : RenderRequest)
    (site : Site) (result : RenderResult) (whole : '/' ∉ r.storage.tempSuffix.toList)
    (rooted : r.storage.root.IsPlain) (placed : cache.directory.IsPlain)
    (caching : r.invalidator = cache.invalidator) (writes : r.engine.WritesFiles)
    (proper : site.tree.IsProper) (idle : site.locks.current = [])
    (spare : ∀ destination timeline output,
      r.plan site.tree request = .ok (destination, timeline) →
        r.storage.tempPath destination = .ok output → site.tree.IsSpare output)
    (answered : (r.render request site).2.answer? = some (.ok result))
    (success : result.success = true) :
    ∃ destination timeline relative, r.plan site.tree request = .ok (destination, timeline) ∧
      r.storage.relative? destination = some relative ∧ result.path = some relative ∧
      cache.Forgets (ThumbnailCache.slashed relative) (r.Writes site.tree request) site.tree
        (r.render request site).1.tree ∧
      ('\\' ∉ relative.toList → cache.Forgets relative (r.Writes site.tree request) site.tree
        (r.render request site).1.tree) ∧
      (Md5.hexDigest relative ≠ Md5.hexDigest (ThumbnailCache.slashed relative) →
        ∀ p entry, ¬r.Writes site.tree request p →
          site.tree.find .kept (cache.path relative) = .ok (p, entry) →
            (r.render request site).1.tree.get? p = site.tree.get? p) := by
  obtain ⟨destination, timeline, relative, plan, shown, path, forgets⟩ :=
    forgets_slashed whole rooted caching writes proper idle spare answered success
  refine ⟨destination, timeline, relative, plan, shown, path, forgets, ?_, ?_⟩
  · intro plain
    rwa [(ThumbnailCache.slashed_eq_self_iff relative).mpr plain] at forgets
  · intro differ p entry other found
    -- Thumbnails of different digests have different names, wherever links lead.
    refine forgets.kept p other fun thumbnail named entry' found' => ?_
    rw [ThumbnailCache.eq_path named] at found'
    exact ThumbnailCache.position_ne placed differ found found' rfl

/-- The sample renderer with a cache of thumbnails. -/
def caching (cache : ThumbnailCache) : Renderer :=
  { sample (.scripted ⟨[.write "new"], [], none⟩) with invalidator := cache.invalidator }

theorem caching_eq (cache : ThumbnailCache) : caching cache =
    { sample (.scripted ⟨[.write "new"], [], none⟩) with
      invalidator := (caching cache).invalidator } := by
  rw [caching]

theorem invalidator_caching (cache : ThumbnailCache) :
    (caching cache).invalidator = cache.invalidator := by
  rw [caching]

/-- A cache of thumbnails in the sample gallery. -/
def thumbs : ThumbnailCache := ⟨.absolute ["gallery", ".thumbs"]⟩

/-- In the sample gallery a render forgets the thumbnail of the file that it writes. -/
theorem drops_thumbnail_sample :
    let r := caching thumbs
    let site : Site := ⟨.sample, .empty, .empty⟩
    let request : RenderRequest := .sample "out.mp4"
    ∃ result, (r.render request site).2.answer? = some (.ok result) ∧
      result.success = true ∧ result.path = some "out.mp4" ∧
      thumbs.Forgets "out.mp4" (r.Writes .sample request) .sample
        (r.render request site).1.tree := by
  intro r site request
  have linkless : FileTree.sample.IsLinkless := by decide
  have beside := resolved_sample .sample linkless "out.rendering.mp4" (by decide)
  obtain ⟨planned, temp, written, moved, wrote, replaced, _⟩ := moves_sample
  obtain ⟨_, warnings, answered⟩ :=
    render_sample r "out.mp4" "new" .sample written moved (caching_eq thumbs) beside.plain planned
      temp wrote replaced
  have planned' : r.plan .sample request = .ok (.absolute ["gallery", "out.mp4"], .sample) :=
    (plan_congr r (sample r.engine) .sample request rfl).trans planned
  have spare (destination : Path) (timeline : Timeline Binary64) (output : Path)
      (plan : r.plan .sample request = .ok (destination, timeline))
      (temp' : r.storage.tempPath destination = .ok output) : FileTree.sample.IsSpare output := by
    intro position entry found
    cases planned'.symm.trans plan
    cases temp.symm.trans temp'
    have absent : FileTree.sample.find .kept (.absolute ["gallery", "out.rendering.mp4"]) =
        .ok (["gallery", "out.rendering.mp4"], none) := by
      rw [beside.find_eq]
      decide
    cases absent.symm.trans found
  -- The sample engine writes one file, at the path that it is given.
  have writes : r.engine.WritesFiles := by
    intro call contents action member
    exact ⟨"new", List.mem_singleton.mp member⟩
  have proper := FileTree.sample.isProper_of_entries (by decide)
  obtain ⟨destination, _, relative, _, _, path, _, forgets, _⟩ := drops_thumbnail r thumbs
    request site _ (by decide) ⟨rfl, by decide⟩ ⟨rfl, by decide⟩
    (invalidator_caching thumbs) writes proper rfl spare answered rfl
  have shown : r.shownPath (.absolute ["gallery", "out.mp4"]) = "out.mp4" := by decide
  rw [RenderResult.succeeded, shown, Option.some.injEq] at path
  subst path
  exact ⟨_, answered, rfl, congrArg some shown, forgets (by decide)⟩

theorem path_thumbs :
    thumbs.path "a\\b.mp4" =
        .absolute ["gallery", ".thumbs", "35e9414aa78b05fa761f8d3677eb80b7.jpg"] ∧
      thumbs.path "a/b.mp4" =
        .absolute ["gallery", ".thumbs", "70947a578dab71427c58d5768a2c93b1.jpg"] := by
  decide +kernel

/-- A film whose name has a backslash is put beside another one. -/
theorem moves_thumbed :
    let destination : Path := .absolute ["gallery", "a\\b.mp4"]
    let output : Path := .absolute ["gallery", "a\\b.rendering.mp4"]
    (sample (.scripted ⟨[.write "new"], [], none⟩)).plan .thumbed (.sample "a\\b.mp4") =
        .ok (destination, .sample) ∧
      ∃ written moved, FileTree.thumbed.write output "new" = .ok written ∧
        Storage.replace written output destination = (moved, .ok ()) ∧ moved.IsLinkless ∧
        moved.get? (thumbs.path "a\\b.mp4").names = some (.file "stale") ∧
        moved.entry (thumbs.path "a/b.mp4") = .ok (some (.file "other")) := by
  intro destination output
  -- The trees are named, so that each question about them is one small evaluation.
  let written := FileTree.thumbed.set ["gallery", "a\\b.rendering.mp4"] (.file "new")
  let moved := written.move ["gallery", "a\\b.rendering.mp4"] ["gallery", "a\\b.mp4"]
  have linkless : FileTree.thumbed.IsLinkless := by decide
  have beside := resolved_sample .thumbed linkless "a\\b.rendering.mp4" (by decide)
  have source :=
    resolved_sample written (by decide) "a\\b.rendering.mp4" (by decide)
  have target := resolved_sample written (by decide) "a\\b.mp4" (by decide)
  rw [path_thumbs.1, path_thumbs.2]
  refine ⟨?_, written, moved, ?_, ?_, by decide, by decide, by decide⟩
  · exact plan_sample _ _ "a\\b.mp4" linkless (by decide) none (by decide) nofun
  · have absent : FileTree.thumbed.entry output = .ok none := by decide
    rw [beside.write_eq, absent]
    rfl
  · refine Storage.replace_eq_ok_iff.mpr ⟨false, written, ?_, rfl, ?_⟩
    · rw [doesExist, target.test_eq]
      decide
    · have found : written.entry output = .ok (some (.file "new")) := by decide
      have free : written.entry destination = .ok none := by decide
      exact source.held.rename_eq_move (List.cons_ne_nil _ _) target.held (List.cons_ne_nil _ _)
        found free (by decide) (by decide)

/-- A render that writes a file with a backslash in its name leaves that file's thumbnail where it
is, and drops the one of another file. -/
theorem not_drops_thumbnail :
    let r := caching thumbs
    let site : Site := ⟨.thumbed, .empty, .empty⟩
    let final := (r.render (.sample "a\\b.mp4") site).1.tree
    ∃ result, (r.render (.sample "a\\b.mp4") site).2.answer? = some (.ok result) ∧
      result.success = true ∧ result.path = some "a\\b.mp4" ∧
      final.get? (thumbs.path "a\\b.mp4").names = some (.file "stale") ∧
      site.tree.get? (thumbs.path "a/b.mp4").names = some (.file "other") ∧
      final.get? (thumbs.path "a/b.mp4").names = none := by
  intro r site final
  obtain ⟨planned, written, moved, wrote, replaced, linkless, stale, other⟩ := moves_thumbed
  have plain : (Path.absolute ["gallery", "a\\b.rendering.mp4"]).IsPlain :=
    ⟨rfl, by decide⟩
  obtain ⟨tree, warnings, answered⟩ := render_sample r "a\\b.mp4" "new" .thumbed written
    moved (caching_eq thumbs) plain planned (by decide +kernel) wrote replaced
  have shown : r.shownPath (.absolute ["gallery", "a\\b.mp4"]) = "a\\b.mp4" := by decide
  have thumbnail : (thumbs.path "a/b.mp4").IsPlain :=
    ThumbnailCache.isPlain_path ⟨rfl, by decide⟩ "a/b.mp4"
  have unlinked : moved.unlink (thumbs.path "a/b.mp4") =
      .ok (moved.erase (thumbs.path "a/b.mp4").names) := by
    have held : moved.Held (thumbs.path "a/b.mp4") :=
      ⟨thumbnail, (linkless.isReached _ thumbnail.named).dropLast.clear⟩
    rw [held.unlink_eq, other]
  -- The file is shown with its backslash, but the thumbnail is looked for under a slash.
  have final_eq : final = moved.erase (thumbs.path "a/b.mp4").names := by
    have slashes : ThumbnailCache.slashed "a\\b.mp4" = "a/b.mp4" := by decide +kernel
    have named : thumbs.path? "a/b.mp4" = .ok (thumbs.path "a/b.mp4") := rfl
    change (r.render (.sample "a\\b.mp4") site).1.tree = _
    rw [tree, shown, invalidator_caching, thumbs.drops]
    dsimp only
    rw [slashes, named]
    dsimp only [Except.toOption]
    rw [unlinked]
  have below : (thumbs.path "a/b.mp4").names ≠ [] := by
    rw [ThumbnailCache.path_eq]
    exact List.concat_ne_nil _ _
  refine ⟨_, answered, rfl, congrArg some shown, ?_, ?_, ?_⟩
  · -- The two digests are computed, so the two thumbnails are known to be different files.
    have apart : (thumbs.path "a\\b.mp4").names ≠ (thumbs.path "a/b.mp4").names := by
      rw [path_thumbs.1, path_thumbs.2]
      decide
    rw [final_eq, moved.get?_erase_at _ _ below, if_neg apart, stale]
  · rw [path_thumbs.2]
    decide
  · rw [final_eq, moved.get?_erase_at _ _ below, if_pos rfl]

end Renderer

end Montage
