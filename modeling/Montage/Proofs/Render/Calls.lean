import Mathlib.Data.List.Induction
import Montage.Proofs.Render.Delivery

/-!
# The calls of a render

A task calls the engine for what its request has been planned as when the task got its first turn:
the sources of the planned timeline are surveyed, and the timeline is compiled with what the survey
has found. This is so whatever else runs, and whatever the observer makes of it; and a task that
succeeds has succeeded with that job.
-/
namespace Montage

/-- The calls of the engine that a task has made. -/
def Task.calls (task : Task) : List EncoderCall := task.events.filterMap Event.call?

namespace Renderer

/-- A job that a request comes to: it is planned, its sources are surveyed, and the timeline is
compiled with what has been found. -/
structure Orders (r : Renderer) (tree : FileTree) (request : RenderRequest)
    (timeline : Timeline Binary64) (cache : SourceCache) (job : Job) : Prop where
  planned : r.plan tree request = .ok (job.destination, timeline)
  surveyed : r.surveyed timeline = .ok cache
  compiled : r.jobOf job.destination timeline cache = .ok job

/-- A call for a job that a request comes to. -/
def IsOrdered (r : Renderer) (tree : FileTree) (request : RenderRequest) (given : EncoderCall) :
    Prop :=
  ∃ timeline cache job output, r.Orders tree request timeline cache job ∧ given = call job output

/-- An answer that is a success only for a job that a request comes to. -/
def IsDue (r : Renderer) (tree : FileTree) (request : RenderRequest)
    (answer : Except Failure RenderResult) : Prop :=
  ∀ result, answer = .ok result → result.success = true →
    ∃ timeline cache job, r.Orders tree request timeline cache job ∧
      result = .succeeded (r.shownPath job.destination) job.warnings

end Renderer

/-- A phase on the way to a call that is ordered by its request, or after it. -/
def Phase.IsOrdered (r : Renderer) (tree : FileTree) (request : RenderRequest) : Phase → Prop
  | .arriving arrived => arrived = request
  | .probing destination timeline survey =>
    r.plan tree request = .ok (destination, timeline) ∧
      survey.Follows (r.sources timeline) r.settings.probeMaxWorkers ∧
        survey.Serves r.prober (r.sources timeline)
  | .queued job _ => ∃ timeline cache, r.Orders tree request timeline cache job
  | .encoding job .. => ∃ timeline cache, r.Orders tree request timeline cache job
  | .trailing answer .. => r.IsDue tree request answer
  | .finished answer => r.IsDue tree request answer

namespace Renderer

/-- A step of a render that makes no call but one that is ordered by its request. -/
structure Obeys (r : Renderer) (tree : FileTree) (request : RenderRequest) (scene : Scene)
    (next : Scene × Phase) : Prop where
  phase : next.2.IsOrdered r tree request
  calls : ∀ given ∈ next.1.calls, given ∈ scene.calls ∨ r.IsOrdered tree request given

variable {r : Renderer} {tree : FileTree} {request : RenderRequest} {scene begun : Scene}
  {next : Scene × Phase}

theorem Obeys.of_calls (h : r.Obeys tree request begun next) (same : begun.calls = scene.calls) :
    r.Obeys tree request scene next := by
  refine ⟨h.phase, ?_⟩
  rw [← same]
  exact h.calls

theorem obeys_of_calls (phase : next.2.IsOrdered r tree request)
    (same : next.1.calls = scene.calls) : r.Obeys tree request scene next := by
  refine ⟨phase, ?_⟩
  rw [same]
  exact fun given member => .inl member

theorem tell_calls (state : RenderState) (scene : Scene) :
    ∃ told, r.tell state scene = (told, r.check state) ∧ told.site = scene.site ∧
      told.calls = scene.calls := by
  obtain ⟨told, eq, site, handed⟩ := r.tell_handed state scene
  exact ⟨told, eq, site, Scene.calls_eq handed⟩

theorem isDue_error (e : Failure) : r.IsDue tree request (.error e) := by
  intro result given
  cases given

theorem isDue_verdict (e : Failure) : r.IsDue tree request (r.verdict e) := by
  intro result given success
  rw [verdict_fails given] at success
  cases success

/-- A task that fails has called nothing more, and promises no success. -/
theorem obeys_fail (e : Failure) (scene : Scene) : r.Obeys tree request scene (r.fail e scene) := by
  refine obeys_of_calls ?_ (Scene.calls_eq (handed_fail e scene))
  obtain ⟨told, eq, _⟩ := r.fail_eq e scene
  rw [eq]
  exact isDue_verdict e

theorem obeys_finishEncoding (job : Job) (lock : Nat) (output : Path) (scene : Scene)
    (timeline : Timeline Binary64) (cache : SourceCache)
    (orders : r.Orders tree request timeline cache job) :
    r.Obeys tree request scene (r.finishEncoding job lock output scene) := by
  refine obeys_of_calls ?_ (Scene.calls_eq (handed_finishEncoding job lock output scene))
  rw [(r.finishEncoding_ends job lock output scene).phase]
  intro result given success
  obtain ⟨_, _, _, same⟩ := exists_of_success given success
  exact ⟨timeline, cache, job, orders, same⟩

/-- The engine is called for the job that the request has come to. -/
theorem obeys_startEncoding (job : Job) (lock : Nat) (scene : Scene)
    (timeline : Timeline Binary64) (cache : SourceCache)
    (orders : r.Orders tree request timeline cache job) :
    r.Obeys tree request scene (r.startEncoding job lock scene) := by
  obtain ⟨told, eq, _, calls⟩ := r.tell_calls .rendering scene
  rw [startEncoding, eq]
  cases r.check .rendering with
  | some e => exact (obeys_fail e _).of_calls calls
  | none =>
    dsimp only
    cases r.storage.tempPath job.destination with
    | error e => exact (obeys_fail (.file e) _).of_calls calls
    | ok output =>
      -- The call that is made now is the only one that is new.
      have called : ∀ given ∈ (told.mark (.called (call job output))).calls,
          given ∈ scene.calls ∨ r.IsOrdered tree request given := by
        intro given member
        rw [Scene.calls_mark, calls] at member
        rcases List.mem_append.mp member with earlier | new
        · exact .inl earlier
        · refine .inr ⟨timeline, cache, job, output, orders, ?_⟩
          exact List.mem_singleton.mp new
      let working := (told.mark (.called (call job output))).note fun j => { j with
        calls := j.calls ++ [call job output], active := j.active + 1
        mostActive := max j.mostActive (j.active + 1) }
      dsimp only
      cases r.engine.turns (call job output) with
      -- An engine that answers at once ends its work in the same step.
      | zero =>
        have ended : r.Obeys tree request working (r.finishEncoding job lock output working) :=
          obeys_finishEncoding job lock output working timeline cache orders
        refine ⟨ended.phase, fun given member => ?_⟩
        exact (ended.calls given member).elim (called given) .inr
      | succ turns => exact ⟨⟨timeline, cache, orders⟩, called⟩

theorem obeys_seekLock (ticket : Ticket) (job : Job) (scene : Scene)
    (timeline : Timeline Binary64) (cache : SourceCache)
    (orders : r.Orders tree request timeline cache job) :
    r.Obeys tree request scene (r.seekLock ticket job scene) := by
  simp only [seekLock]
  split
  · exact obeys_of_calls ⟨timeline, cache, orders⟩ rfl
  · exact (obeys_startEncoding job _ _ timeline cache orders).of_calls rfl

/-- A compile orders what its plan and its survey lead to. -/
theorem obeys_compile (ticket : Ticket) (destination : Path) (timeline : Timeline Binary64)
    (cache : SourceCache) (scene : Scene)
    (plan : r.plan tree request = .ok (destination, timeline))
    (found : r.surveyed timeline = .ok cache) :
    r.Obeys tree request scene (r.compile ticket destination timeline cache scene) := by
  simp only [compile]
  cases compiled : (compileTimeline timeline cache r.compileOptions).graph with
  | error e => exact (obeys_fail _ _).of_calls rfl
  | ok graph =>
    refine (obeys_seekLock ticket _ _ timeline cache ⟨plan, found, ?_⟩).of_calls rfl
    rw [jobOf, compiled]

/-- What the engine is called with after the survey is what has been ordered. -/
theorem obeys_finishProbing (ticket : Ticket) (destination : Path)
    (timeline : Timeline Binary64) (survey : Survey) (scene : Scene)
    (plan : r.plan tree request = .ok (destination, timeline))
    (follows : survey.Follows (r.sources timeline) r.settings.probeMaxWorkers)
    (serves : survey.Serves r.prober (r.sources timeline)) (decided : survey.isDecided = true) :
    r.Obeys tree request scene (r.finishProbing ticket destination timeline survey scene) := by
  simp only [finishProbing]
  cases found : survey.cache with
  | error e =>
    -- A survey that has failed ends the render, and no call is made.
    refine obeys_of_calls ?_ ((Scene.calls_eq (handed_conclude e _)).trans rfl)
    obtain ⟨told, eq, _⟩ := r.conclude_eq e (scene.say survey.warnings)
    dsimp only
    rw [eq]
    exact isDue_verdict e
  | ok cache =>
    obtain ⟨told, eq, _, calls⟩ := r.tell_calls .compiling (scene.say survey.warnings)
    dsimp only
    rw [enter, eq]
    cases r.check .compiling with
    | some e => exact (obeys_fail e told).of_calls calls
    | none =>
      exact (obeys_compile ticket destination timeline cache told plan
        (follows.cache_settled serves decided found)).of_calls calls

/-- A probe makes no calls of the engine. -/
theorem obeys_probe? {survey : Survey} {event : ProbeEvent} {after : Scene × Survey}
    (happens : r.probe? survey event scene = some after) {phase : Phase}
    (ordered : phase.IsOrdered r tree request) :
    r.Obeys tree request scene (after.1, phase) := by
  refine obeys_of_calls ordered ?_
  rw [(step?_of_probe? happens).2]
  rfl

theorem obeys_startProbing (ticket : Ticket) (destination : Path) (timeline : Timeline Binary64)
    (scene : Scene) (plan : r.plan tree request = .ok (destination, timeline)) :
    r.Obeys tree request scene (r.startProbing ticket destination timeline scene) := by
  simp only [startProbing]
  split
  next empty =>
    refine obeys_finishProbing ticket destination timeline _ scene plan
      (Survey.follows_ofPaths _ _) (Survey.serves_ofPaths _ _) ?_
    -- A survey without jobs has nothing to go.
    rw [Survey.isDecided, Survey.remaining, List.isEmpty_iff.mp empty]
    rfl
  next =>
    exact obeys_of_calls ⟨plan, Survey.follows_ofPaths _ _, Survey.serves_ofPaths _ _⟩ rfl

/-- A task that arrives plans by the tree that it finds. -/
theorem obeys_arrive (ticket : Ticket) (request : RenderRequest) (scene : Scene) :
    r.Obeys scene.site.tree request scene (r.arrive ticket request scene) := by
  obtain ⟨told, eq, site, calls⟩ := r.tell_calls .idle scene
  rw [arrive, eq, ← site]
  -- The observer is told twice and the plan is made in between. Whatever stops the task first,
  -- the engine has not been called.
  cases r.check .idle with
  | some e => exact obeys_of_calls (isDue_error e) calls
  | none =>
    dsimp only
    cases plan : r.plan told.site.tree request with
    | error e => exact (obeys_fail e told).of_calls calls
    | ok found =>
      obtain ⟨probed, eq, _, calls'⟩ := r.tell_calls .probing told
      dsimp only
      rw [enter, eq]
      cases r.check .probing with
      | some e => exact (obeys_fail e probed).of_calls (calls'.trans calls)
      | none =>
        exact (obeys_startProbing ticket found.1 found.2 probed plan).of_calls
          (calls'.trans calls)

/-- After its first step a task calls the engine only for what its request ordered at that step. -/
theorem obeys_proceed? {ticket : Ticket} {move : Task.Move} {phase : Phase}
    (h : r.proceed? ticket move scene phase = some next)
    (ordered : phase.IsOrdered r tree request)
    (same : ∀ arrived, phase = .arriving arrived → scene.site.tree = tree) :
    r.Obeys tree request scene next := by
  cases proceeds_of_proceed? h with
  | arrive arrived =>
    -- Only here is the tree looked at, so only here has it to be the one of the statement.
    obtain rfl : arrived = request := ordered
    obtain rfl := same arrived rfl
    exact obeys_arrive ticket arrived scene
  | finishProbing destination timeline survey decided =>
    obtain ⟨plan, follows, serves⟩ := ordered
    exact obeys_finishProbing ticket destination timeline survey scene plan follows serves decided
  | probe destination timeline survey event after happens =>
    obtain ⟨plan, follows, serves⟩ := ordered
    obtain ⟨step, _⟩ := step?_of_probe? happens
    exact obeys_probe? happens ⟨plan, follows.step? step, serves.step? step⟩
  | startEncoding job lock turn =>
    obtain ⟨timeline, cache, orders⟩ := ordered
    exact (obeys_startEncoding job lock _ timeline cache orders).of_calls rfl
  | finishEncoding job lock output =>
    obtain ⟨timeline, cache, orders⟩ := ordered
    exact obeys_finishEncoding job lock output scene timeline cache orders
  | continueEncoding job lock output turns => exact obeys_of_calls ordered rfl
  | trail answer survey event after happens => exact obeys_probe? happens ordered

end Renderer

namespace Batch

/-- How far a task of a batch has got after a schedule: until its first turn it stands as it came,
and from then on it obeys what its request ordered at that turn. -/
inductive Stands (r : Renderer) (batch : Batch) (schedule : List (Ticket × Task.Move))
    (ticket : Ticket) (request : RenderRequest) (task : Task) : Prop
  | untouched (absent : (ticket, .resume) ∉ schedule) (same : task = .ofRequest request)
  | begun (before : List (Ticket × Task.Move)) (absent : (ticket, .resume) ∉ before)
    (turn : before ++ [(ticket, .resume)] <+: schedule)
    (phase : task.phase.IsOrdered r (batch.after r before).site.tree request)
    (arrived : ∀ request, task.phase ≠ .arriving request)
    (calls : ∀ given ∈ task.calls, r.IsOrdered (batch.after r before).site.tree request given)

variable {r : Renderer} {batch : Batch} {schedule : List (Ticket × Task.Move)} {ticket : Ticket}
  {request : RenderRequest} {task : Task}

/-- A turn that is not a task's own, or in which it cannot go on, leaves it where it stands. -/
theorem Stands.rest (h : Stands r batch schedule ticket request task) (turn : Ticket)
    (move : Task.Move)
    (idle : turn = ticket → r.step? ticket move (batch.after r schedule).site task = none) :
    Stands r batch (schedule ++ [(turn, move)]) ticket request task := by
  cases h with
  | untouched absent same =>
    refine .untouched ?_ same
    intro member
    rcases List.mem_append.mp member with earlier | now
    · exact absent earlier
    -- A task that has not begun can always take its first turn.
    · cases List.mem_singleton.mp now
      have stuck := idle rfl
      rw [same] at stuck
      cases stuck
  | begun before absent turn phase arrived calls =>
    exact .begun before absent (turn.trans (List.prefix_append _ _)) phase arrived calls

/-- A task that takes a turn goes on with what its request has ordered. -/
theorem Stands.proceed? (h : Stands r batch schedule ticket request task) {scene : Scene}
    {move : Task.Move} {phase : Phase}
    (proceeded : r.proceed? ticket move ⟨(batch.after r schedule).site, task.events, task.log⟩
      task.phase = some (scene, phase)) :
    Stands r batch (schedule ++ [(ticket, move)]) ticket request
      ⟨phase, scene.events, scene.log⟩ := by
  have arrived := Renderer.ne_arriving_of_proceed? proceeded
  cases h with
  -- The first turn of the task plans its request on the tree as the turns before have left it.
  | untouched absent same =>
    subst same
    have obeys : r.Obeys (batch.after r schedule).site.tree request _ _ :=
      Renderer.obeys_proceed? proceeded rfl fun _ _ => rfl
    obtain rfl : move = .resume := by
      cases move with
      | resume => rfl
      | probe event => cases proceeded
    refine .begun schedule absent List.prefix_rfl obeys.phase arrived fun given member => ?_
    exact (obeys.calls given member).elim (absurd · List.not_mem_nil) id
  | begun before absent turn ordered gone calls =>
    have obeys := Renderer.obeys_proceed? proceeded ordered
      fun request again => absurd again (gone request)
    refine .begun before absent (turn.trans (List.prefix_append _ _)) obeys.phase arrived ?_
    exact fun given member => (obeys.calls given member).elim (calls given) id

/-- However the tasks take turns, each of them stands where its request has got to. -/
theorem stands_after (site : Site) (requests : List RenderRequest)
    (schedule : List (Ticket × Task.Move))
    (here : ((ofRequests site requests).after r schedule).tasks[ticket]? = some task)
    (asked : requests[ticket]? = some request) :
    Stands r (ofRequests site requests) schedule ticket request task := by
  -- The schedule is gone through up to its last turn, so that the tree at a task's first turn is
  -- the one that all turns before have led to.
  induction schedule using List.reverseRecOn generalizing task with
  | nil =>
    rw [after, List.foldl_nil, ofRequests, List.getElem?_map, asked] at here
    exact .untouched List.not_mem_nil (Option.some.inj here).symm
  | append_singleton schedule last ih =>
    obtain ⟨turn, move⟩ := last
    rw [after_append, after_cons, after, List.foldl_nil] at here
    cases step : ((ofRequests site requests).after r schedule).step? r turn move with
    | none =>
      rw [step] at here
      refine (ih here).rest turn move ?_
      rintro rfl
      rw [step?, show ((ofRequests site requests).after r schedule).tasks[turn]? = some task from
        here] at step
      exact Option.map_eq_none_iff.mp step
    | some next =>
      rw [step] at here
      obtain ⟨given, scene, phase, found, proceeded, rfl⟩ := exists_of_step? step
      rcases eq_or_getElem?_of_set here with ⟨rfl, rfl⟩ | ⟨ne, here⟩
      · exact (ih found).proceed? proceeded
      · exact (ih here).rest turn move fun same => absurd same ne

end Batch

end Montage
