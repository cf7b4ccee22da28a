import Montage.Proofs.Gallery.Footprint
import Montage.Proofs.Render.Collaborators
import Montage.Proofs.Render.Outcome

/-!
# The errand of a render

What a render does to the files once its engine ends is a row of file operations: the inputs are
read, the engine does its work at the temporary path, what it has made replaces what is at the
destination, and the thumbnail is dropped. So a render looks at certain positions only, and changes
only some of those.
-/
namespace Montage

open FileTree

namespace Errand

variable {α β ε : Type}

/-- The tree and the reply of an errand. -/
def result (errand : Errand α) (tree : FileTree) : FileTree × α :=
  ((errand.run tree).tree, (errand.run tree).reply)

@[simp] theorem result_pure (reply : α) (tree : FileTree) :
    (pure reply : Errand α).result tree = (tree, reply) := rfl

@[simp] theorem result_bind (first : Errand α) (next : α → Errand β) (tree : FileTree) :
    (first >>= next).result tree =
      (next (first.result tree).2).result (first.result tree).1 := rfl

@[simp] theorem result_ask (looks : FileTree → Set Position) (question : FileTree → α)
    (tree : FileTree) : (ask looks question).result tree = (tree, question tree) := rfl

/-- An operation that is refused leaves the tree as it was. -/
theorem result_alter (looks changes : FileTree → Set Position)
    (operation : FileTree → Except ε FileTree) (tree : FileTree) :
    (alter looks changes operation).result tree =
      match operation tree with
      | .ok next => (next, .ok ())
      | .error e => (tree, .error e) := by
  unfold result alter
  dsimp only
  cases operation tree <;> rfl

/-! ### File operations in a row -/

/-- An errand for each member of a list. -/
def each (errand : α → Errand β) : List α → Errand (List β)
  | [] => pure []
  | a :: rest => do
    let b ← errand a
    let bs ← each errand rest
    pure (b :: bs)

/-- Errands that are local one by one are local one after the other. -/
theorem isLocal_each {errand : α → Errand β} (one : ∀ a, IsLocal (errand a)) (l : List α) :
    IsLocal (each errand l) := by
  induction l with
  | nil => exact isLocal_pure []
  | cons a rest ih => exact (one a).bind fun b => ih.bind fun bs => isLocal_pure (b :: bs)

theorem result_each_content? (paths : List Path) (tree : FileTree) :
    (each content? paths).result tree = (tree, paths.map tree.content?) := by
  induction paths with
  | nil => rfl
  | cons path rest ih => simp [each, content?, ih]

/-- One action of an engine at its output path. -/
def acting (output : Path) : OutputAction → Errand (Except FileError Unit)
  | .write content => write output content
  | .makeDirectory => makeDirectory output

theorem isLocal_acting (output : Path) (action : OutputAction) :
    IsLocal (acting output action) := by
  cases action with
  | write content => exact isLocal_write output content
  | makeDirectory => exact isLocal_makeDirectory output

theorem result_acting (output : Path) (action : OutputAction) (tree : FileTree) :
    (acting output action).result tree =
      match action.perform tree output with
      | .ok next => (next, .ok ())
      | .error e => (tree, .error e) := by
  cases action with
  | write content =>
    rw [acting, write, result_alter, OutputAction.perform]
    cases tree.write output content <;> rfl
  | makeDirectory =>
    rw [acting, makeDirectory, result_alter, OutputAction.perform]
    cases tree.makeDirectory output <;> rfl

/-- The actions of an engine, up to the first that fails. -/
def performing (output : Path) : List OutputAction → Errand (Option FileError)
  | [] => pure none
  | action :: rest => do
    match ← acting output action with
    | .ok () => performing output rest
    | .error e => pure (some e)

theorem isLocal_performing (output : Path) (actions : List OutputAction) :
    IsLocal (performing output actions) := by
  induction actions with
  | nil => exact isLocal_pure none
  | cons action rest ih =>
    refine (isLocal_acting output action).bind fun reply => ?_
    cases reply with
    | ok done => exact ih
    | error e => exact isLocal_pure (some e)

theorem result_performing (output : Path) (actions : List OutputAction) (tree : FileTree) :
    (performing output actions).result tree = Production.performAll output actions tree := by
  induction actions generalizing tree with
  | nil => rfl
  | cons action rest ih =>
    rw [performing, result_bind, result_acting, Production.performAll]
    cases action.perform tree output with
    | ok next => exact ih next
    | error e => rfl

/-- What an engine does at its output path, and the failure that it ends with. -/
def producing (p : Production) (output : Path) : Errand (Option Failure) := do
  match ← performing output p.actions with
  | none => pure p.failure
  | some e => pure (some (.file e))

theorem isLocal_producing (p : Production) (output : Path) : IsLocal (producing p output) := by
  refine (isLocal_performing output p.actions).bind fun reply => ?_
  cases reply <;> exact isLocal_pure _

/-- Carried out, an engine's production is what the engine does to the tree. -/
theorem result_producing (p : Production) (output : Path) (tree : FileTree) :
    (producing p output).result tree =
      ((p.perform tree output).tree, (p.perform tree output).failure) := by
  rw [producing, result_bind, result_performing, Production.perform]
  rcases Production.performAll output p.actions tree with ⟨next, _ | e⟩ <;> rfl

/-- A file deleted if it is there. -/
def discarding (path : Path) : Errand (Except FileError Bool) := do
  match ← unlink path with
  | .ok () => pure (.ok true)
  | .error (.refused .noEntry _ _) => pure (.ok false)
  | .error e => pure (if e.isRefusal then .ok false else .error e)

theorem isLocal_discarding (path : Path) : IsLocal (discarding path) := by
  refine (isLocal_unlink path).bind fun reply => ?_
  split <;> exact isLocal_pure _

theorem result_discarding (path : Path) (tree : FileTree) : (discarding path).result tree =
    ((Storage.discard tree path).tree, (Storage.discard tree path).result) := by
  rw [discarding, result_bind, unlink, result_alter, Storage.discard]
  cases tree.unlink path with
  | ok next => rfl
  | error e =>
    cases e with
    | refused errno path target => cases errno <;> rfl
    | nullCharacter | unencodable | endlessLinks | invalidName | unknownHome => rfl

/-- The steps of a replacement, up to the one that fails. -/
def replacing (temp destination : Path) : Errand (Option FileError) := do
  match ← doesExist destination with
  | .error e => pure (some e)
  | .ok present =>
    match ← (if present then unlink destination else pure (.ok ())) with
    | .error e => pure (some e)
    | .ok () =>
      match ← rename temp destination with
      | .error e => pure (some e)
      | .ok () => pure none

/-- A replacement looks at its two paths, and at nothing else. -/
theorem isLocal_replacing (temp destination : Path) : IsLocal (replacing temp destination) := by
  refine (isLocal_doesExist destination).bind fun reply => ?_
  cases reply with
  | error e => exact isLocal_pure _
  | ok present =>
    have clears : IsLocal (if present then unlink destination else pure (.ok ())) := by
      cases present with
      | true => exact isLocal_unlink destination
      | false => exact isLocal_pure _
    refine clears.bind fun reply => ?_
    cases reply with
    | error e => exact isLocal_pure _
    | ok cleared =>
      refine (isLocal_rename temp destination).bind fun reply => ?_
      cases reply <;> exact isLocal_pure _

/-- Carried out, a replacement takes its steps. -/
theorem result_replacing (temp destination : Path) (tree : FileTree) :
    (replacing temp destination).result tree = Storage.replaceSteps tree temp destination := by
  have renames (cleared : FileTree) := result_alter (renameTrail temp destination)
    (places temp destination) (·.rename temp destination) cleared
  -- Both sides ask the same questions in the same order, and differ only in what they record.
  rw [replacing, result_bind, doesExist, result_ask, Storage.replaceSteps]
  cases tree.doesExist destination with
  | error e => rfl
  | ok present =>
    cases present with
    | false =>
      simp only [Bool.false_eq_true, if_false, result_bind, result_pure]
      rw [rename, renames]
      cases tree.rename temp destination <;> rfl
    | true =>
      simp only [if_true, result_bind]
      rw [unlink, result_alter]
      cases tree.unlink destination with
      | error e => rfl
      | ok cleared =>
        dsimp only
        rw [result_bind, rename, renames]
        cases cleared.rename temp destination <;> rfl

end Errand

/-- What a replacement ends with when one of its steps fails. -/
def Storage.replaceError (e : FileError) : StorageError :=
  if e.isRefusal then .refused (.say .finalize e.message) else .file e

/-- A replacement takes its steps, and words the error of the one that fails. -/
theorem Storage.replace_eq (tree : FileTree) (temp destination : Path) :
    replace tree temp destination = ((replaceSteps tree temp destination).1,
      match (replaceSteps tree temp destination).2 with
      | none => .ok ()
      | some e => .error (replaceError e)) := by
  unfold replace replaceError
  rcases replaceSteps tree temp destination with ⟨next, _ | e⟩
  · rfl
  · dsimp only
    split <;> rfl

namespace Renderer

open Errand

variable (r : Renderer) (thumbnail : String → Option Path) (job : Job) (output : Path)

/-- The thumbnail of a written file deleted, if it can have one. -/
def dropping (relative : String) : Errand (Except FileError Unit) :=
  match thumbnail relative with
  | none => pure (.ok ())
  | some path => unlink path

/-- What follows a file that has been written. -/
def announcing : Errand (Except Failure RenderResult) := do
  let relative := r.shownPath job.destination
  let _ ← dropping thumbnail relative
  match r.check .done with
  | none => pure (.ok (.succeeded relative job.warnings))
  | some e => pure (.error e)

/-- The temporary file deleted after a failure. -/
def abandoning (failure : Failure) : Errand (Except Failure RenderResult) := do
  match ← discarding output with
  | .ok _ => pure (r.verdict failure)
  | .error e => pure (r.verdict (.file e))

/-- The temporary file moved over the destination. -/
def finalizing : Errand (Except Failure RenderResult) :=
  match r.check .finalizing with
  | some e => r.abandoning output e
  | none => do
    match ← replacing output job.destination with
    | none => r.announcing thumbnail job
    | some e => r.abandoning output (Storage.replaceError e).failure

/-- The engine's work and what follows it. -/
def encoding : Errand (Except Failure RenderResult) := do
  let contents ← each content? (job.graph.inputs.map Path.ofString)
  let production := r.engine.produce (call job output) contents
  match ← producing production (.ofString (call job output).output) with
  | some e => r.abandoning output e
  | none => r.finalizing thumbnail job output

variable {r thumbnail}

theorem isLocal_dropping (relative : String) : IsLocal (dropping thumbnail relative) := by
  unfold dropping
  cases thumbnail relative with
  | none => exact isLocal_pure _
  | some path => exact isLocal_unlink path

theorem isLocal_announcing : IsLocal (r.announcing thumbnail job) := by
  refine (isLocal_dropping _).bind fun _ => ?_
  cases r.check .done <;> exact isLocal_pure _

theorem isLocal_abandoning (failure : Failure) : IsLocal (r.abandoning output failure) := by
  refine (isLocal_discarding output).bind fun reply => ?_
  cases reply <;> exact isLocal_pure _

theorem isLocal_finalizing : IsLocal (r.finalizing thumbnail job output) := by
  unfold finalizing
  cases r.check .finalizing with
  | some e => exact isLocal_abandoning output e
  | none =>
    refine (isLocal_replacing output job.destination).bind fun reply => ?_
    cases reply with
    | none => exact isLocal_announcing job
    | some e => exact isLocal_abandoning output _

/-- From the engine's start to the answer a render is local. -/
theorem isLocal_encoding : IsLocal (r.encoding thumbnail job output) := by
  refine (isLocal_each isLocal_content? _).bind fun contents => ?_
  refine (isLocal_producing _ _).bind fun reply => ?_
  cases reply with
  | some e => exact isLocal_abandoning output e
  | none => exact isLocal_finalizing job output

/-- Carried out, a dropped thumbnail is what the invalidator does to the tree. -/
theorem result_dropping (drops : r.invalidator.Drops thumbnail) (relative : String)
    (tree : FileTree) :
    ((dropping thumbnail relative).result tree).1 = (r.invalidator relative tree).tree := by
  rw [drops, dropping]
  cases thumbnail relative with
  | none => rfl
  | some path =>
    dsimp only
    rw [Errand.unlink, result_alter]
    cases tree.unlink path <;> rfl

theorem result_announcing (drops : r.invalidator.Drops thumbnail) (tree : FileTree) :
    (r.announcing thumbnail job).result tree = r.announced job tree := by
  rw [announcing, announced, result_bind, result_dropping drops]
  cases r.check .done <;> rfl

theorem result_abandoning (failure : Failure) (tree : FileTree) :
    (r.abandoning output failure).result tree = r.abandoned output failure tree := by
  rw [abandoning, abandoned, result_bind, result_discarding]
  dsimp only
  cases (Storage.discard tree output).result <;> rfl

/-- Carried out, the last stage comes to its outcome. -/
theorem result_finalizing (drops : r.invalidator.Drops thumbnail) (tree : FileTree) :
    (r.finalizing thumbnail job output).result tree = r.finalized job output tree := by
  rw [finalizing, finalized]
  cases r.check .finalizing with
  | some e => exact result_abandoning output e tree
  | none =>
    dsimp only
    rw [result_bind, result_replacing, Storage.replace_eq]
    rcases Storage.replaceSteps tree output job.destination with ⟨next, _ | e⟩
    · exact result_announcing job drops next
    · exact result_abandoning output _ next

/-- What the errand of a render does is what the render does once its engine ends. -/
theorem result_encoding (drops : r.invalidator.Drops thumbnail) (tree : FileTree) :
    (r.encoding thumbnail job output).result tree = r.encoded job output tree := by
  have contents : (job.graph.inputs.map Path.ofString).map tree.content? =
      job.graph.inputs.map fun path => tree.content? (Path.ofString path) := List.map_map
  rw [encoding, encoded, produced, result_bind, result_each_content?, result_bind,
    result_producing, contents]
  dsimp only
  generalize (r.engine.produce (call job output) (job.graph.inputs.map fun path =>
    tree.content? (Path.ofString path))).perform tree _ = done
  cases done.failure with
  | some e => exact result_abandoning output e _
  | none => exact result_finalizing job output drops _

/-! ### Plans -/

/-- The resolved form of one source path. -/
def resolveSource (r : Renderer) (tree : FileTree) (path : String) :
    Except Failure (String × String) :=
  ((r.storage.resolve tree (Path.ofString path) path).map fun full => (path, full.text)).mapError
    StorageError.failure

/-- The positions that are looked at while source paths are resolved, up to the first that is
refused. -/
def sourcesTrail (r : Renderer) : List String → FileTree → Set Position
  | [], _ => ∅
  | path :: rest, tree =>
    r.storage.resolveTrail (Path.ofString path) tree ∪
      {p | ∃ entry, r.resolveSource tree path = .ok entry ∧ p ∈ sourcesTrail r rest tree}

/-- The sources resolve alike where the trees agree along their ways. -/
theorem decides_resolveSources (r : Renderer) (paths : List String) :
    Decides (r.sourcesTrail paths) fun tree => paths.mapM (r.resolveSource tree) := by
  induction paths with
  | nil => exact decides_const _
  | cons path rest ih =>
    have first : Decides (r.storage.resolveTrail (Path.ofString path)) (r.resolveSource · path) :=
      (r.storage.decides_resolve (Path.ofString path) path).map fun resolved =>
        (resolved.map fun full : Path => (path, full.text)).mapError StorageError.failure
    simp only [List.mapM_cons]
    exact first.bind fun entry => ih.map fun resolved => do
      let others ← resolved
      pure (entry :: others)

/-- The positions that are looked at when a render arrives. -/
def planTrail (r : Renderer) (request : RenderRequest) (tree : FileTree) : Set Position :=
  r.storage.destinationTrail request.destinationPath request.newName tree ∪
    {p | ∃ destination,
      (r.storage.destination tree request.destinationPath request.newName).mapError
        StorageError.failure = .ok destination ∧
      p ∈ r.sourcesTrail request.timeline.sourcePaths tree}

/-- So does the plan of a request. -/
theorem decides_plan (r : Renderer) (request : RenderRequest) :
    Decides (r.planTrail request) (r.plan · request) := by
  have first := (r.storage.decides_destination request.destinationPath request.newName).map
    (Except.mapError StorageError.failure)
  exact first.bind fun destination =>
    (r.decides_resolveSources request.timeline.sourcePaths).map fun resolved => do
      let resolved ← resolved
      .ok (destination, request.timeline.mapSources (replacement resolved))

end Renderer
end Montage
