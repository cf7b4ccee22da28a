import Montage.Encoder.Engine
import Montage.Gallery.Thumbnail
import Montage.Media.Survey
import Montage.Render.Lock
import Montage.Render.State

/-!
# Render tasks

A task takes one request from its arrival to its result: it resolves all paths, surveys the
sources, compiles the timeline, waits for the lock of its destination, runs the engine into a
temporary file and moves that over the destination. A task stands still only while it probes,
waits for the lock or lets the engine work; between these points nothing else happens. While it
stands still its probes start and finish one by one, also after one of them has ended the render.
-/
namespace Montage

/-- What came of dropping the thumbnail of a written file. -/
abbrev Invalidator := String → FileTree → Aftermath

/-- The invalidator that deletes thumbnails from a cache. -/
def ThumbnailCache.invalidator (cache : ThumbnailCache) : Invalidator := fun relative tree =>
  match cache.invalidate tree relative with
  | .ok (tree, log) => ⟨tree, log, none⟩
  | .error e => ⟨tree, [], some (.file e)⟩

/-- Told of every state that a render enters; it may fail. -/
abbrev Observer := RenderState → Option Failure

/-- What all renders of a gallery have in common. -/
structure Renderer where
  storage : Storage
  settings : Settings
  prober : Prober
  engine : Engine
  invalidator : Invalidator
  observer : Option Observer

/-- What the collaborators were asked to do. -/
structure Journal where
  probed : List String
  calls : List EncoderCall
  invalidated : List String
  /-- How many calls of the engine are under way, and the most that ever were. -/
  active : Nat
  mostActive : Nat

def Journal.empty : Journal := ⟨[], [], [], 0, 0⟩

/-- What renders share: the files, the locks and the journal. -/
structure Site where
  tree : FileTree
  locks : LockTable
  journal : Journal

/-- A compiled request. -/
structure Job where
  destination : Path
  warnings : List String
  graph : CompiledGraph Binary64

inductive Phase where
  | arriving (request : RenderRequest)
  /-- Surveying the sources. -/
  | probing (destination : Path) (timeline : Timeline Binary64) (survey : Survey)
  /-- Waiting for a lock. -/
  | queued (job : Job) (lock : Nat)
  /-- Holding a lock while the engine has turns left. -/
  | encoding (job : Job) (lock : Nat) (output : Path) (turns : Nat)
  /-- Ended with an answer by a failure of the survey, whose other probes go on. -/
  | trailing (answer : Except Failure RenderResult) (survey : Survey)
  /-- Ended with a result, or with a failure of the observer that no result reports. -/
  | finished (answer : Except Failure RenderResult)

/-- What a render tells its observer or does to what is not its own. -/
inductive Event where
  | entered (state : RenderState)
  | called (call : EncoderCall)
  | replaced (destination : Path)
  | invalidated (path : String)

def Event.state? : Event → Option RenderState
  | entered state => some state
  | _ => none

/-- One render under way: what it has told and done, and the lines it has logged. -/
structure Task where
  phase : Phase
  events : List Event
  log : List String

def Task.ofRequest (request : RenderRequest) : Task := ⟨.arriving request, [], []⟩

/-- What can happen to a task. -/
inductive Task.Move where
  /-- It goes on from where it stands still. -/
  | resume
  /-- One of its probes starts or finishes. -/
  | probe (event : ProbeEvent)
deriving DecidableEq

/-- The states that a task has reported. -/
def Task.trace (task : Task) : List RenderState := task.events.filterMap Event.state?

/-- A task at work on what it shares with others. -/
structure Scene where
  site : Site
  events : List Event
  log : List String

namespace Scene

def mark (scene : Scene) (event : Event) : Scene :=
  { scene with events := scene.events ++ [event] }

def say (scene : Scene) (lines : List String) : Scene := { scene with log := scene.log ++ lines }

def withTree (scene : Scene) (tree : FileTree) : Scene :=
  { scene with site := { scene.site with tree } }

def withLocks (scene : Scene) (locks : LockTable) : Scene :=
  { scene with site := { scene.site with locks } }

def note (scene : Scene) (f : Journal → Journal) : Scene :=
  { scene with site := { scene.site with journal := f scene.site.journal } }

end Scene

namespace Renderer

def tell (r : Renderer) (state : RenderState) (scene : Scene) : Scene × Option Failure :=
  match r.observer with
  | none => (scene, none)
  | some observe => (scene.mark (.entered state), observe state)

/-- The answer of a render that ends with a failure. -/
def conclude (r : Renderer) (failure : Failure) (scene : Scene) :
    Scene × Except Failure RenderResult :=
  match r.tell .failed (scene.say [failure.line]) with
  | (scene, none) => (scene, .ok failure.result)
  | (scene, some e) => (scene, .error e)

/-- The end of a render with a failure. -/
def fail (r : Renderer) (failure : Failure) (scene : Scene) : Scene × Phase :=
  let (scene, answer) := r.conclude failure scene
  (scene, .finished answer)

/-- A state entered, and what follows unless the observer fails. -/
def enter (r : Renderer) (state : RenderState) (scene : Scene)
    (next : Scene → Scene × Phase) : Scene × Phase :=
  match r.tell state scene with
  | (scene, none) => next scene
  | (scene, some e) => r.fail e scene

/-- The resolved form of each distinct source path. -/
def resolveSources (r : Renderer) (tree : FileTree) (timeline : Timeline Binary64) :
    Except Failure (List (String × String)) :=
  timeline.sourcePaths.mapM fun path =>
    ((r.storage.resolve tree (Path.ofString path) path).map fun full => (path, full.text)).mapError
      StorageError.failure

/-- A path by its resolved form. -/
def replacement (resolved : List (String × String)) (path : String) : String :=
  ((resolved.find? (·.1 = path)).map (·.2)).getD path

/-- The destination of a request, and its timeline with resolved source paths. -/
def plan (r : Renderer) (tree : FileTree) (request : RenderRequest) :
    Except Failure (Path × Timeline Binary64) := do
  let destination ← (r.storage.destination tree request.destinationPath request.newName).mapError
    StorageError.failure
  let resolved ← r.resolveSources tree request.timeline
  .ok (destination, request.timeline.mapSources (replacement resolved))

/-- The source paths of the clips that are long enough to show. -/
def sources (r : Renderer) (timeline : Timeline Binary64) : List String :=
  (timeline.selected r.settings.minClipDuration).map (·.2.sourcePath)

def compileOptions (r : Renderer) : CompileOptions Binary64 :=
  ⟨r.settings.renderFps, r.settings.minClipDuration, r.settings.defaultCanvasWidth,
    r.settings.defaultCanvasHeight⟩

/-- The form in which a path under the root is shown. -/
def shownPath (r : Renderer) (path : Path) : String := (r.storage.relative? path).getD path.text

/-- A line of the result for each source that could not be probed. -/
def probeWarnings (r : Renderer) (cache : SourceCache) : List String :=
  cache.filterMap fun (path, finding) =>
    match finding with
    | .found _ => none
    | .unavailable => some ("Could not probe " ++ r.shownPath (Path.ofString path))

def call (job : Job) (output : Path) : EncoderCall :=
  ⟨job.graph.inputs, job.graph.ops, job.graph.outputLabels, output.text⟩

/-- The thumbnail of the written file dropped, and the render done. Failing to drop it is only
logged. -/
def announce (r : Renderer) (job : Job) (scene : Scene) : Scene × Phase :=
  let relative := r.shownPath job.destination
  let dropped := r.invalidator relative scene.site.tree
  let scene := (scene.withTree dropped.tree).say dropped.log
  let scene := (scene.mark (.invalidated relative)).note fun j =>
    { j with invalidated := j.invalidated ++ [relative] }
  let scene :=
    match dropped.failure with
    | none => scene
    | some e =>
      scene.say ["[FINALIZE] Cache invalidation failed for " ++ relative ++ ": " ++ e.text]
  match r.tell .done scene with
  | (scene, none) => (scene, .finished (.ok (.succeeded relative job.warnings)))
  | (scene, some e) => (scene, .finished (.error e))

def leave (job : Job) (lock : Nat) (scene : Scene) : Scene :=
  scene.withLocks (scene.site.locks.leave lock job.destination)

/-- The temporary file deleted and the lock left after a failure. -/
def abandon (r : Renderer) (job : Job) (lock : Nat) (output : Path) (failure : Failure)
    (scene : Scene) : Scene × Phase :=
  let outcome := Storage.discard scene.site.tree output
  let scene := leave job lock ((scene.withTree outcome.tree).say outcome.log)
  match outcome.result with
  | .ok _ => r.fail failure scene
  | .error e => r.fail (.file e) scene

/-- The temporary file moved over the destination. -/
def finalize (r : Renderer) (job : Job) (lock : Nat) (output : Path) (scene : Scene) :
    Scene × Phase :=
  match r.tell .finalizing scene with
  | (scene, some e) => r.abandon job lock output e scene
  | (scene, none) =>
    match Storage.replace scene.site.tree output job.destination with
    | (tree, .ok ()) =>
      r.announce job (leave job lock ((scene.withTree tree).mark (.replaced job.destination)))
    | (tree, .error e) => r.abandon job lock output e.failure (scene.withTree tree)

/-- The end of the engine's work. -/
def finishEncoding (r : Renderer) (job : Job) (lock : Nat) (output : Path) (scene : Scene) :
    Scene × Phase :=
  let contents := job.graph.inputs.map fun path => scene.site.tree.content? (Path.ofString path)
  let call := call job output
  let produced := (r.engine.produce call contents).perform scene.site.tree (.ofString call.output)
  let scene := (scene.withTree produced.tree).say produced.log
  let scene := scene.note fun j => { j with active := j.active - 1 }
  match produced.failure with
  | some e => r.abandon job lock output e scene
  | none => r.finalize job lock output scene

/-- The engine set to work by a task that has just got its lock. -/
def startEncoding (r : Renderer) (job : Job) (lock : Nat) (scene : Scene) : Scene × Phase :=
  match r.tell .rendering scene with
  | (scene, some e) => r.fail e (leave job lock scene)
  | (scene, none) =>
    match r.storage.tempPath job.destination with
    | .error e => r.fail (.file e) (leave job lock scene)
    | .ok output =>
      let scene := (scene.mark (.called (call job output))).note fun j => { j with
        calls := j.calls ++ [call job output], active := j.active + 1
        mostActive := max j.mostActive (j.active + 1) }
      match r.engine.turns (call job output) with
      | 0 => r.finishEncoding job lock output scene
      | turns + 1 => (scene, .encoding job lock output turns)

/-- The lock of the destination asked for. -/
def seekLock (r : Renderer) (ticket : Ticket) (job : Job) (scene : Scene) : Scene × Phase :=
  let (locks, lock) := scene.site.locks.enter job.destination
  if locks.isTaken lock then
    (scene.withLocks (locks.enqueue lock ticket), .queued job lock)
  else r.startEncoding job lock (scene.withLocks (locks.hold lock ticket))

def compile (r : Renderer) (ticket : Ticket) (destination : Path) (timeline : Timeline Binary64)
    (cache : SourceCache) (scene : Scene) : Scene × Phase :=
  let outcome := compileTimeline timeline cache r.compileOptions
  let scene := scene.say (outcome.warnings.map OffCanvas.line)
  match outcome.graph with
  | .error e => r.fail (e.failure r.settings.minClipDuration) scene
  | .ok graph => r.seekLock ticket ⟨destination, r.probeWarnings cache, graph⟩ scene

/-- What comes after a survey that is decided. A failure ends the render and leaves the probes that
go on to themselves. -/
def finishProbing (r : Renderer) (ticket : Ticket) (destination : Path)
    (timeline : Timeline Binary64) (survey : Survey) (scene : Scene) : Scene × Phase :=
  let scene := scene.say survey.warnings
  match survey.cache with
  | .error e =>
    let (scene, answer) := r.conclude e scene
    (scene, .trailing answer survey)
  | .ok cache => r.enter .compiling scene (r.compile ticket destination timeline cache)

/-- A probe that starts or finishes, if it can. -/
def probe? (r : Renderer) (survey : Survey) (event : ProbeEvent) (scene : Scene) :
    Option (Scene × Survey) :=
  (survey.step? r.prober event).map fun next =>
    let new := next.probed.drop survey.probed.length
    (scene.note fun j => { j with probed := j.probed ++ new }, next)

/-- The survey begun. Without sources there is nothing to wait for. -/
def startProbing (r : Renderer) (ticket : Ticket) (destination : Path)
    (timeline : Timeline Binary64) (scene : Scene) : Scene × Phase :=
  let survey := Survey.ofPaths (r.sources timeline) r.settings.probeMaxWorkers
  if survey.jobs.isEmpty then r.finishProbing ticket destination timeline survey scene
  else (scene, .probing destination timeline survey)

/-- The beginning of a render. A failure of the observer at this point is not reported. -/
def arrive (r : Renderer) (ticket : Ticket) (request : RenderRequest) (scene : Scene) :
    Scene × Phase :=
  match r.tell .idle scene with
  | (scene, some e) => (scene, .finished (.error e))
  | (scene, none) =>
    match r.plan scene.site.tree request with
    | .error e => r.fail e scene
    | .ok (destination, timeline) =>
      r.enter .probing scene (r.startProbing ticket destination timeline)

/-- What a task does on a move, up to the point where it stands still again, or nothing if the move
cannot happen. It does not go on while its survey is undecided, while the lock that it waits for is
not free for it, or after its answer; the probes of a survey go on by themselves. -/
def proceed? (r : Renderer) (ticket : Ticket) (move : Task.Move) (scene : Scene) :
    Phase → Option (Scene × Phase)
  | .arriving request =>
    match move with
    | .resume => some (r.arrive ticket request scene)
    | .probe _ => none
  | .probing destination timeline survey =>
    match move with
    | .resume =>
      if survey.isDecided then some (r.finishProbing ticket destination timeline survey scene)
      else none
    | .probe event =>
      (r.probe? survey event scene).map fun (scene, survey) =>
        (scene, .probing destination timeline survey)
  | .queued job lock =>
    match move with
    | .resume =>
      if scene.site.locks.isNext lock ticket then
        some (r.startEncoding job lock
          (scene.withLocks (scene.site.locks.dequeue lock ticket)))
      else none
    | .probe _ => none
  | .encoding job lock output turns =>
    match move, turns with
    | .resume, 0 => some (r.finishEncoding job lock output scene)
    | .resume, turns + 1 => some (scene, .encoding job lock output turns)
    | .probe _, _ => none
  | .trailing answer survey =>
    match move with
    | .resume => none
    | .probe event =>
      (r.probe? survey event scene).map fun (scene, survey) => (scene, .trailing answer survey)
  | .finished _ => none

/-- The task after a move, if that can happen. -/
def step? (r : Renderer) (ticket : Ticket) (move : Task.Move) (site : Site) (task : Task) :
    Option (Site × Task) :=
  (r.proceed? ticket move ⟨site, task.events, task.log⟩ task.phase).map fun (scene, phase) =>
    (scene.site, ⟨phase, scene.events, scene.log⟩)

end Renderer

end Montage
