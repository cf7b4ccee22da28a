import Mathlib.Data.Set.Lattice
import Mathlib.Order.CompletePartialOrder
import Montage.Proofs.Gallery.Unlinked
import Montage.Proofs.Render.Destination
import Montage.Proofs.Render.Errand

/-!
# Requests that keep apart

Two renders keep out of each other's way when neither changes what the other one looks at, be it
only for a while. In a tree without links that is so if nothing which one of them writes stands at
or above a path that the other one has to do with.
-/
namespace Montage

open FileTree

namespace Renderer

variable (r : Renderer) (thumbnail : String → Option Path)

/-- What the render of a request does to the files, and what it answers, when the request has been
planned on a tree. -/
def carrying (planned : FileTree) (request : RenderRequest) :
    Errand (Except Failure RenderResult) :=
  match r.check .idle with
  | some e => pure (.error e)
  | none =>
    match r.order planned request with
    | .error e => pure (r.verdict e)
    | .ok (job, output) => r.encoding thumbnail job output

/-- The positions at which one sees what stands at the destination of a request. -/
def aims (planned : FileTree) (request : RenderRequest) (tree : FileTree) : Set Position :=
  {p | ∃ destination timeline ending, r.plan planned request = .ok (destination, timeline) ∧
    p ∈ tree.findTrail ending destination}

/-- The positions that the render of a request looks at, and those that show what it leaves at its
destination. -/
def looks (tree : FileTree) (request : RenderRequest) : Set Position :=
  r.planTrail request tree ∪ ((r.carrying thumbnail tree request).run tree).looks ∪
    (r.aims tree request tree ∪ r.aims tree request (r.outcome tree request tree).1)

/-- The positions that the render of a request changes, if only for a while. -/
def changes (tree : FileTree) (request : RenderRequest) : Set Position :=
  ((r.carrying thumbnail tree request).run tree).changes

/-- Requests for different destinations, none of whose renders changes anything that another one
looks at. -/
structure Apart (tree : FileTree) (requests : List RenderRequest) : Prop where
  proper : tree.IsProper
  destinations : requests.Pairwise fun a b => ∀ destination timeline timeline',
    r.plan tree a = .ok (destination, timeline) → r.plan tree b ≠ .ok (destination, timeline')
  spared : requests.Pairwise fun a b =>
    Disjoint (r.changes thumbnail tree a) (r.looks thumbnail tree b) ∧
      Disjoint (r.changes thumbnail tree b) (r.looks thumbnail tree a)

variable {r thumbnail}

/-- A request is carried out locally. -/
theorem isLocal_carrying (r : Renderer) (thumbnail : String → Option Path) (planned : FileTree)
    (request : RenderRequest) :
    (r.carrying thumbnail planned request).IsLocal := by
  unfold carrying
  cases r.check .idle with
  | some e => exact Errand.isLocal_pure _
  | none =>
    dsimp only
    cases r.order planned request with
    | error e => exact Errand.isLocal_pure _
    | ok made => exact isLocal_encoding made.1 made.2

/-- Carried out, a request comes to its outcome. -/
theorem result_carrying (drops : r.invalidator.Drops thumbnail) (planned : FileTree)
    (request : RenderRequest) (tree : FileTree) :
    (r.carrying thumbnail planned request).result tree = r.outcome planned request tree := by
  rw [carrying, outcome]
  cases r.check .idle with
  | some e => rfl
  | none =>
    dsimp only
    cases r.order planned request with
    | error e => rfl
    | ok made => exact result_encoding made.1 made.2 drops tree

/-- Where the trees agree on what a request looks at, its plan is the same. -/
theorem plan_of_agree {planned now : FileTree} {request : RenderRequest}
    (agree : AgreeOn (r.looks thumbnail planned request) planned now) :
    r.plan now request = r.plan planned request :=
  (r.decides_plan request planned now
    (agree.mono (Set.subset_union_left.trans Set.subset_union_left))).1

/-- What a request looks at is part of what it may look at. -/
theorem run_subset_looks (tree : FileTree) (request : RenderRequest) :
    ((r.carrying thumbnail tree request).run tree).looks ⊆ r.looks thumbnail tree request :=
  Set.subset_union_right.trans Set.subset_union_left

/-- What stands at its destination a render leaves where it looks, before the engine's work and
after it. -/
theorem find_of_agree {planned tree now : FileTree} {request : RenderRequest}
    (agree : AgreeOn (r.looks thumbnail planned request) tree now)
    (reached : tree = planned ∨ tree = (r.outcome planned request planned).1)
    {destination : Path} {timeline : Timeline Binary64}
    (plan : r.plan planned request = .ok (destination, timeline)) (ending : Ending) :
    now.find ending destination = tree.find ending destination := by
  refine (find_eq_of_trail ending destination (agree.mono fun p member => ?_)).1
  refine Set.mem_union_right _ ?_
  rcases reached with rfl | rfl
  · exact .inl ⟨destination, timeline, ending, plan, member⟩
  · exact .inr ⟨destination, timeline, ending, plan, member⟩

end Renderer

namespace Renderer.Apart

variable {r : Renderer} {thumbnail : String → Option Path} {planned : FileTree}
  {requests : List RenderRequest} {i j : Nat} {request other : RenderRequest}

/-- What holds of each two requests in their order, both ways, holds of every two. -/
theorem of_pairwise {P : RenderRequest → RenderRequest → Prop} (h : requests.Pairwise P)
    (swap : ∀ {a b}, P a b → P b a) (here : requests[i]? = some request)
    (there : requests[j]? = some other) (ne : i ≠ j) : P request other := by
  obtain ⟨below, rfl⟩ := List.getElem?_eq_some_iff.mp here
  obtain ⟨below', rfl⟩ := List.getElem?_eq_some_iff.mp there
  have pairs := List.pairwise_iff_getElem.mp h
  rcases Nat.lt_or_gt_of_ne ne with lt | gt
  · exact pairs i j below below' lt
  · exact swap (pairs j i below' below gt)

variable (apart : r.Apart thumbnail planned requests)

include apart

/-- Requests that are apart have different destinations. -/
theorem destination_ne (here : requests[i]? = some request) (there : requests[j]? = some other)
    (ne : i ≠ j) {destination : Path} {timeline : Timeline Binary64}
    (plan : r.plan planned other = .ok (destination, timeline)) (timeline' : Timeline Binary64) :
    r.plan planned request ≠ .ok (destination, timeline') := fun plan' =>
  of_pairwise apart.destinations (fun h d t t' one two => h d t' t two one) here there ne
    destination timeline' timeline plan' plan

/-- What one of two such requests changes the other one does not look at. -/
theorem disjoint (here : requests[i]? = some request) (there : requests[j]? = some other)
    (ne : i ≠ j) :
    Disjoint (r.changes thumbnail planned request) (r.looks thumbnail planned other) :=
  (of_pairwise apart.spared And.symm here there ne).1

end Renderer.Apart


/-! ### Trees without links -/

namespace Renderer

open Errand

variable (r : Renderer) (thumbnail : String → Option Path) (tree : FileTree)

/-- The paths that the render of a request may write: the destination, the temporary file next to it
and its thumbnail. -/
def written (request : RenderRequest) : List Path :=
  match r.plan tree request with
  | .error _ => []
  | .ok (destination, _) =>
    destination :: ((r.storage.tempPath destination).toOption.toList ++
      (thumbnail (r.shownPath destination)).toList)

/-- The paths that a request names, under the root. -/
def named (request : RenderRequest) : List Path :=
  (request.destinationPath :: request.timeline.sourcePaths).map fun text =>
    r.storage.root.join (Path.ofString text)

/-- The paths that the render of a request has to do with: those that it writes, those that the
request names and the sources that it reads. -/
def paths (request : RenderRequest) : List Path :=
  r.written thumbnail tree request ++ r.named request ++
    match r.plan tree request with
    | .error _ => []
    | .ok (_, timeline) => (r.sources timeline).map Path.ofString

/-- What one request's render writes is neither at nor above what another one's has to do with. -/
def Spares (writing other : RenderRequest) : Prop :=
  ∀ written ∈ r.written thumbnail tree writing, ∀ path ∈ r.paths thumbnail tree other,
    ¬written.names <+: path.names

/-- A request without a new name, all of whose paths go straight down from the root. -/
structure IsSimple (request : RenderRequest) : Prop where
  unnamed : request.newName = none
  plain : ∀ path ∈ r.paths thumbnail tree request, path.IsPlain
  below : ∀ path ∈ r.written thumbnail tree request, path.names ≠ []

/-- The positions that a simple request's render may look at, and those that it may change. -/
def scope (request : RenderRequest) : Set Position :=
  ways (r.paths thumbnail tree request) (r.written thumbnail tree request)

def estate (request : RenderRequest) : Set Position := grounds (r.written thumbnail tree request)

variable {r thumbnail tree} {request : RenderRequest}

theorem mem_paths_of_written {path : Path} (own : path ∈ r.written thumbnail tree request) :
    path ∈ r.paths thumbnail tree request :=
  List.mem_append_left _ (List.mem_append_left _ own)

theorem mem_paths_of_named {path : Path} (named : path ∈ r.named request) :
    path ∈ r.paths thumbnail tree request :=
  List.mem_append_left _ (List.mem_append_right _ named)

/-- What a planned request may write: its destination, the file beside it and the thumbnail. -/
theorem mem_written_of_plan (thumbnail : String → Option Path) {destination : Path}
    {timeline : Timeline Binary64}
    (plan : r.plan tree request = .ok (destination, timeline)) :
    destination ∈ r.written thumbnail tree request ∧
      (∀ output, r.storage.tempPath destination = .ok output →
        output ∈ r.written thumbnail tree request) ∧
      ∀ path, thumbnail (r.shownPath destination) = some path →
        path ∈ r.written thumbnail tree request := by
  rw [written, plan]
  refine ⟨List.mem_cons_self, fun output temp => ?_, fun path dropped => ?_⟩
  · simp [temp, Except.toOption]
  · simp [dropped]

theorem mem_paths_of_source {destination : Path} {timeline : Timeline Binary64} {source : String}
    (plan : r.plan tree request = .ok (destination, timeline))
    (listed : source ∈ r.sources timeline) :
    Path.ofString source ∈ r.paths thumbnail tree request := by
  rw [paths, plan]
  exact List.mem_append_right _ (List.mem_map_of_mem listed)

namespace IsSimple

variable (simple : r.IsSimple thumbnail tree request)

include simple

/-- A path that is written is plain, and is looked at and changed. -/
theorem of_written {path : Path} (own : path ∈ r.written thumbnail tree request) :
    path.IsPlain ∧ path ∈ r.paths thumbnail tree request :=
  ⟨simple.plain path (mem_paths_of_written own), mem_paths_of_written own⟩

theorem isWithin_reading (paths : List Path)
    (listed : ∀ path ∈ paths, path ∈ r.paths thumbnail tree request) :
    IsWithin (r.scope thumbnail tree request) (r.estate thumbnail tree request)
      (each content? paths) := by
  induction paths with
  | nil => exact isWithin_pure _
  | cons path rest ih =>
    obtain ⟨first, others⟩ := List.forall_mem_cons.mp listed
    exact (isWithin_content? (simple.plain path first) first).bind fun b =>
      (ih others).bind fun bs => isWithin_pure _

theorem isWithin_abandoning {output : Path} (own : output ∈ r.written thumbnail tree request)
    (failure : Failure) :
    IsWithin (r.scope thumbnail tree request) (r.estate thumbnail tree request)
      (r.abandoning output failure) := by
  obtain ⟨plain, listed⟩ := simple.of_written own
  have discards : IsWithin (r.scope thumbnail tree request) (r.estate thumbnail tree request)
      (discarding output) := by
    refine (isWithin_unlink plain listed own).bind fun reply => ?_
    split <;> exact isWithin_pure _
  exact discards.bind fun reply => by cases reply <;> exact isWithin_pure _

theorem isWithin_producing {output : Path} (own : output ∈ r.written thumbnail tree request)
    (p : Production) : IsWithin (r.scope thumbnail tree request) (r.estate thumbnail tree request)
      (producing p output) := by
  obtain ⟨plain, listed⟩ := simple.of_written own
  have acts (actions : List OutputAction) :
      IsWithin (r.scope thumbnail tree request) (r.estate thumbnail tree request)
        (performing output actions) := by
    induction actions with
    | nil => exact isWithin_pure _
    | cons action rest ih =>
      have first : IsWithin (r.scope thumbnail tree request) (r.estate thumbnail tree request)
          (acting output action) := by
        cases action with
        | write content => exact isWithin_write plain listed own content
        | makeDirectory => exact isWithin_makeDirectory plain listed own
      refine first.bind fun reply => ?_
      cases reply with
      | ok done => exact ih
      | error e => exact isWithin_pure _
  exact (acts p.actions).bind fun reply => by cases reply <;> exact isWithin_pure _

theorem isWithin_replacing {temp destination : Path}
    (own : temp ∈ r.written thumbnail tree request)
    (own' : destination ∈ r.written thumbnail tree request) :
    IsWithin (r.scope thumbnail tree request) (r.estate thumbnail tree request)
      (replacing temp destination) := by
  obtain ⟨plain, listed⟩ := simple.of_written own
  obtain ⟨plain', listed'⟩ := simple.of_written own'
  refine (isWithin_doesExist plain' listed').bind fun reply => ?_
  cases reply with
  | error e => exact isWithin_pure _
  | ok present =>
    -- An old file at the destination is deleted first.
    have clears : IsWithin (r.scope thumbnail tree request) (r.estate thumbnail tree request)
        (if present then unlink destination else pure (.ok ())) := by
      cases present with
      | true => exact isWithin_unlink plain' listed' own'
      | false => exact isWithin_pure _
    refine clears.bind fun reply => ?_
    cases reply with
    | error e => exact isWithin_pure _
    | ok cleared =>
      refine (isWithin_rename plain plain' (simple.below _ own) (simple.below _ own') listed listed'
        own own').bind fun reply => ?_
      cases reply <;> exact isWithin_pure _

theorem isWithin_announcing {job : Job} {timeline : Timeline Binary64}
    (plan : r.plan tree request = .ok (job.destination, timeline)) :
    IsWithin (r.scope thumbnail tree request) (r.estate thumbnail tree request)
      (r.announcing thumbnail job) := by
  have drops : IsWithin (r.scope thumbnail tree request) (r.estate thumbnail tree request)
      (dropping thumbnail (r.shownPath job.destination)) := by
    unfold dropping
    cases dropped : thumbnail (r.shownPath job.destination) with
    | none => exact isWithin_pure _
    | some path =>
      have own := (mem_written_of_plan thumbnail plan).2.2 path dropped
      exact isWithin_unlink (simple.of_written own).1 (simple.of_written own).2 own
  exact drops.bind fun reply => by cases r.check .done <;> exact isWithin_pure _

theorem isWithin_finalizing {job : Job} {output : Path} {timeline : Timeline Binary64}
    (plan : r.plan tree request = .ok (job.destination, timeline))
    (temp : r.storage.tempPath job.destination = .ok output) :
    IsWithin (r.scope thumbnail tree request) (r.estate thumbnail tree request)
      (r.finalizing thumbnail job output) := by
  obtain ⟨own', written, _⟩ := mem_written_of_plan thumbnail plan
  have own := written output temp
  unfold finalizing
  cases r.check .finalizing with
  | some e => exact simple.isWithin_abandoning own e
  | none =>
    -- The replacement touches the output and the destination, and both are of the request's own.
    refine (simple.isWithin_replacing own own').bind fun reply => ?_
    cases reply with
    | none => exact simple.isWithin_announcing plan
    | some e => exact simple.isWithin_abandoning own _

/-- A simple request is carried out among its own paths. -/
theorem isWithin_carrying : IsWithin (r.scope thumbnail tree request)
    (r.estate thumbnail tree request) (r.carrying thumbnail tree request) := by
  unfold carrying
  cases r.check .idle with
  | some e => exact isWithin_pure _
  | none =>
    dsimp only
    cases ordered : r.order tree request with
    | error e => exact isWithin_pure _
    | ok made =>
      obtain ⟨job, output⟩ := made
      obtain ⟨timeline, cache, plan, made, temp⟩ := order_ok tree request job output ordered
      have own := (mem_written_of_plan thumbnail plan).2.1 output temp
      -- The inputs of a compiled job are sources of its timeline.
      have reads := simple.isWithin_reading (job.graph.inputs.map Path.ofString) <|
        List.forall_mem_map.mpr fun input listed =>
          mem_paths_of_source plan (mem_sources_of_jobOf _ timeline cache job made input listed)
      refine reads.bind fun contents => ?_
      rw [call, (simple.of_written own).1.ofString_text]
      refine (simple.isWithin_producing own _).bind fun reply => ?_
      cases reply with
      | some e => exact simple.isWithin_abandoning own e
      | none => exact simple.isWithin_finalizing plan temp

theorem findTrail_subset {path : Path} (listed : path ∈ r.paths thumbnail tree request)
    (ending : Ending) {now : FileTree} (linkless : now.IsLinkless) :
    now.findTrail ending path ⊆ r.scope thumbnail tree request :=
  findTrail_subset_ways (simple.plain path listed) listed ending now linkless

theorem resolveTrail_subset {text : String}
    (listed : r.storage.root.join (Path.ofString text) ∈ r.named request)
    (linkless : tree.IsLinkless) :
    r.storage.resolveTrail (Path.ofString text) tree ⊆ r.scope thumbnail tree request :=
  fun _ looked => .inl ⟨_, mem_paths_of_named listed, tree.resolveTrail_subset linkless
    (simple.plain _ (mem_paths_of_named listed)).named looked⟩

theorem sourcesTrail_subset (linkless : tree.IsLinkless) {texts : List String}
    (listed : ∀ text ∈ texts, r.storage.root.join (Path.ofString text) ∈ r.named request) :
    r.sourcesTrail texts tree ⊆ r.scope thumbnail tree request := by
  induction texts with
  | nil => exact Set.empty_subset _
  | cons text rest ih =>
    obtain ⟨first, others⟩ := List.forall_mem_cons.mp listed
    refine Set.union_subset (simple.resolveTrail_subset first linkless) ?_
    rintro p ⟨_, _, looked⟩
    exact ih others looked

/-- A simple request is planned by looking along its own paths. -/
theorem planTrail_subset (linkless : tree.IsLinkless) :
    r.planTrail request tree ⊆ r.scope thumbnail tree request := by
  have named (text : String)
      (member : text ∈ request.destinationPath :: request.timeline.sourcePaths) :
      r.storage.root.join (Path.ofString text) ∈ r.named request :=
    List.mem_map_of_mem (f := fun text => r.storage.root.join (Path.ofString text)) member
  have own := named _ List.mem_cons_self
  -- The destination is resolved and looked at, a new name is resolved again, and then the sources.
  refine Set.union_subset (Set.union_subset (Set.union_subset ?_ ?_) ?_) ?_
  · exact simple.resolveTrail_subset own linkless
  · rintro p ⟨full, resolved, looked⟩
    obtain rfl := tree.eq_of_resolve linkless (simple.plain _ (mem_paths_of_named own))
      ((r.storage.resolve_eq_ok_iff ..).mp resolved).1
    split at looked
    · exact absurd looked (Set.notMem_empty p)
    · exact simple.findTrail_subset (mem_paths_of_named own) .followed linkless looked
  · rintro p ⟨full, _, looked⟩
    -- A simple request asks for no other name.
    rw [simple.unnamed] at looked
    exact absurd looked (Set.notMem_empty p)
  · rintro p ⟨destination, _, looked⟩
    exact simple.sourcesTrail_subset linkless
      (fun text member => named text (List.mem_cons_of_mem _ member)) looked

theorem aims_subset {now : FileTree} (linkless : now.IsLinkless) :
    r.aims tree request now ⊆ r.scope thumbnail tree request := by
  rintro p ⟨destination, timeline, ending, plan, looked⟩
  have listed := mem_paths_of_written (mem_written_of_plan thumbnail plan).1
  exact simple.findTrail_subset listed ending linkless looked

/-- The render of a simple request looks and changes only where its paths say. -/
theorem looks_subset (drops : r.invalidator.Drops thumbnail) (proper : tree.IsProper)
    (linkless : tree.IsLinkless) :
    r.looks thumbnail tree request ⊆ r.scope thumbnail tree request ∧
      r.changes thumbnail tree request ⊆ r.estate thumbnail tree request := by
  have carried := simple.isWithin_carrying tree proper linkless
  have left : (r.outcome tree request tree).1.IsLinkless := by
    rw [← result_carrying drops]
    exact carried.linkless
  exact ⟨Set.union_subset (Set.union_subset (simple.planTrail_subset linkless) carried.looks)
    (Set.union_subset (simple.aims_subset linkless) (simple.aims_subset left)), carried.changes⟩

end IsSimple

/-- What one render may change another one does not look at, if both spare each other. -/
theorem Spares.disjoint {other : RenderRequest} (h : r.Spares thumbnail tree request other)
    (back : r.Spares thumbnail tree other request) :
    Disjoint (r.estate thumbnail tree request) (r.scope thumbnail tree other) := by
  rw [Set.disjoint_left]
  rintro p ⟨path, own, under⟩ (⟨path', listed, above⟩ | ⟨path', own', under'⟩)
  · exact h path own path' listed (List.IsPrefix.trans under above)
  · -- Two positions above a third are one above the other.
    rcases List.prefix_or_prefix_of_prefix under under' with above | above
    · exact h path own path' (mem_paths_of_written own') above
    · exact back path' own' path (mem_paths_of_written own) above

/-- Simple requests keep apart in a tree without links if nothing that one render writes stands at
or above a path that another one has to do with. -/
theorem apart_of_spares {requests : List RenderRequest} (drops : r.invalidator.Drops thumbnail)
    (proper : tree.IsProper) (linkless : tree.IsLinkless)
    (simple : ∀ request ∈ requests, r.IsSimple thumbnail tree request)
    (spare : requests.Pairwise fun a b =>
      r.Spares thumbnail tree a b ∧ r.Spares thumbnail tree b a) :
    r.Apart thumbnail tree requests := by
  refine ⟨proper, spare.imp ?_, (List.Pairwise.and_mem.mp spare).imp ?_⟩
  · rintro a b ⟨spares, _⟩ destination timeline timeline' plan plan'
    exact spares destination (mem_written_of_plan thumbnail plan).1 destination
      (mem_paths_of_written (mem_written_of_plan thumbnail plan').1) List.prefix_rfl
  · rintro a b ⟨here, there, spares, back⟩
    obtain ⟨looks, changes⟩ := (simple a here).looks_subset drops proper linkless
    obtain ⟨looks', changes'⟩ := (simple b there).looks_subset drops proper linkless
    exact ⟨(spares.disjoint back).mono changes looks', (back.disjoint spares).mono changes' looks⟩

end Renderer

end Montage
