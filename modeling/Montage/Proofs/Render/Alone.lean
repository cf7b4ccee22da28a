import Montage.Proofs.Render.Stops

/-!
# A render without others under way

Every step of a task whose survey goes on in rounds is on the way to the outcome of its request, as
long as nobody else wants its destination. So a render that is let on alone comes to it.
-/
namespace Montage

/-- A phase without an answer, on the way to what its request comes to. -/
def Phase.Follows (r : Renderer) (planned : FileTree) (request : RenderRequest) : Phase → Prop
  | .arriving arrived => arrived = request
  | .probing destination timeline survey =>
    r.check .idle = none ∧ r.plan planned request = .ok (destination, timeline) ∧
      r.check .probing = none ∧ 0 < survey.limit ∧
        (survey.settled r.prober).cache = r.surveyed timeline
  | .encoding job _ output _ =>
    r.check .idle = none ∧ r.order planned request = .ok (job, output)
  | _ => False

/-- A stop on the way to what a request comes to, or one that it comes to. -/
def Stop.Reaches (r : Renderer) (planned : FileTree) (request : RenderRequest) : Stop → Prop
  | .stands phase => phase.Follows r planned request ∨
    ∃ answer, phase.Answers answer ∧ ∀ tree, r.outcome planned request tree = (tree, answer)
  | .encodes job output => r.check .idle = none ∧ r.order planned request = .ok (job, output)

namespace Renderer

variable {r : Renderer} {planned : FileTree} {request : RenderRequest}

theorem outcome_of_order {job : Job} {output : Path} (quiet : r.check .idle = none)
    (order : r.order planned request = .ok (job, output)) (tree : FileTree) :
    r.outcome planned request tree = r.encoded job output tree := by
  rw [outcome, quiet, order]

theorem outcome_of_error {e : Failure} (quiet : r.check .idle = none)
    (order : r.order planned request = .error e) (tree : FileTree) :
    r.outcome planned request tree = (tree, r.verdict e) := by
  rw [outcome, quiet, order]

/-- Where a request's order is carried out, the request comes to what it has to. -/
theorem Executes.reaches {stop : Stop} (h : r.Executes (r.order planned request) stop)
    (idle : r.check .idle = none) : stop.Reaches r planned request := by
  -- A request that is refused comes to its verdict, and one with an order to its encoding.
  cases order : r.order planned request with
  | error e =>
    rw [order] at h
    cases stop with
    | stands phase => exact .inr ⟨r.verdict e, h, outcome_of_error idle order⟩
    | encodes job output => exact absurd h not_false
  | ok made =>
    obtain ⟨job, output⟩ := made
    rw [order] at h
    cases stop with
    | stands phase =>
      cases phase with
      | encoding job' lock output' turns =>
        obtain ⟨rfl, rfl⟩ := h
        exact .inl ⟨idle, order⟩
      | _ => exact absurd h not_false
    | encodes job' output' =>
      obtain ⟨rfl, rfl⟩ := h
      exact ⟨idle, order⟩

theorem reaches_finishProbing {destination : Path} {timeline : Timeline Binary64} {survey : Survey}
    (idle : r.check .idle = none) (plan : r.plan planned request = .ok (destination, timeline))
    (probing : r.check .probing = none) (found : survey.cache = r.surveyed timeline) :
    (r.finishProbingStop destination timeline survey).Reaches r planned request := by
  have executes := r.executes_finishProbingStop destination timeline survey
  rw [found, ← order_of_plan plan probing] at executes
  exact executes.reaches idle

theorem reaches_arrive :
    (r.arriveStop (r.plan planned request)).Reaches r planned request := by
  rw [arriveStop.eq_def]
  cases idle : r.check .idle with
  -- An observer that fails at the beginning or at probing ends the render, and so does a refusal.
  | some e => exact .inr ⟨.error e, rfl, fun tree => by rw [outcome, idle]⟩
  | none =>
    dsimp only
    cases plan : r.plan planned request with
    | error e => exact .inr ⟨r.verdict e, rfl, outcome_of_error idle (by rw [order, plan]; rfl)⟩
    | ok found =>
      obtain ⟨destination, timeline⟩ := found
      dsimp only
      cases probing : r.check .probing with
      | some e =>
        exact .inr ⟨r.verdict e, rfl,
          outcome_of_error idle (by rw [order, plan, allow, probing]; rfl)⟩
      | none =>
        dsimp only [startProbingStop]
        split
        -- Without sources there is nothing to wait for, and the survey is over at once.
        next empty =>
          refine reaches_finishProbing idle plan probing ?_
          rw [surveyed, Survey.settled_of_next?]
          rw [Survey.next?, List.isEmpty_iff.mp empty]
          simp
        next =>
          refine .inl ⟨idle, plan, probing, ?_, rfl⟩
          rw [(Survey.follows_ofPaths _ _).limit_eq]
          omega

/-- Every stop of a task whose survey goes on in rounds is on the way to what its request comes
to. -/
theorem reaches_of_follows {task : Task} {stop : Stop}
    (stops : r.stop? task.next (r.plan planned) task.phase = some stop)
    (follows : task.phase.Follows r planned request) : stop.Reaches r planned request := by
  obtain ⟨phase, events, log⟩ := task
  dsimp only at stops follows
  cases phase with
  | arriving arrived =>
    obtain rfl : arrived = request := follows
    cases stops
    exact reaches_arrive
  | probing destination timeline survey =>
    obtain ⟨idle, plan, probing, room, found⟩ := follows
    cases event_eq : survey.next? with
    | none =>
      -- The survey goes on only when it has no next event.
      simp only [Task.next, event_eq, Option.map_none, Option.getD_none, stop?,
        Survey.isDecided_of_next? room event_eq, if_true, Option.some.injEq] at stops
      rw [← stops]
      refine reaches_finishProbing idle plan probing ?_
      rw [← found, Survey.settled_of_next? event_eq]
    | some event =>
      simp only [Task.next, event_eq, Option.map_some, Option.getD_some, stop?,
        Option.map_eq_some_iff] at stops
      obtain ⟨next, step, rfl⟩ := stops
      obtain ⟨_, _, _, _, _, _, _, limit, _⟩ := Survey.step?_cases step
      refine .inl ⟨idle, plan, probing, by rwa [limit], ?_⟩
      rw [← found, Survey.settled_of_step? event_eq step]
  | queued job lock => exact absurd follows not_false
  | encoding job lock output turns =>
    cases turns with
    | zero =>
      cases stops
      exact follows
    | succ turns =>
      cases stops
      exact .inl follows
  | trailing answer survey | finished answer => exact absurd follows not_false

end Renderer

theorem Task.answer?_eq_some (task : Task) (answer : Except Failure RenderResult) :
    task.answer? = some answer ↔ task.phase.Answers answer := by
  unfold answer? Phase.Answers
  cases task.phase <;> simp

theorem Phase.Follows.answer? {r : Renderer} {planned : FileTree} {request : RenderRequest}
    {task : Task} (h : task.phase.Follows r planned request) : task.answer? = none := by
  rw [Task.answer?]
  cases phase : task.phase with
  | arriving request => rfl
  | probing destination timeline survey => rfl
  | encoding job lock output turns => rfl
  | queued job lock => rfl
  | trailing answer survey | finished answer =>
    rw [phase] at h
    exact absurd h not_false

/-- A task on its way can always go on. -/
theorem Phase.Follows.exists_step? {r : Renderer} {planned : FileTree} {request : RenderRequest}
    {task : Task} (h : task.phase.Follows r planned request) (ticket : Ticket) (site : Site) :
    ∃ next, r.step? ticket task.next site task = some next := by
  obtain ⟨phase, events, log⟩ := task
  suffices ∃ next, r.proceed? ticket (Task.next ⟨phase, events, log⟩) ⟨site, events, log⟩ phase =
      some next by
    obtain ⟨next, proceeded⟩ := this
    exact ⟨_, by rw [Renderer.step?, proceeded]; rfl⟩
  cases phase with
  | arriving request => exact ⟨_, rfl⟩
  | probing destination timeline survey =>
    obtain ⟨_, _, _, room, _⟩ := h
    -- A survey that has no next event has been decided, so the task can resume.
    cases event_eq : survey.next? with
    | none =>
      have decided := Survey.isDecided_of_next? room event_eq
      simp only [Task.next, event_eq, Option.map_none, Option.getD_none, Renderer.proceed?, decided,
        if_true]
      exact ⟨_, rfl⟩
    | some event =>
      obtain ⟨next, step⟩ := Survey.exists_step?_of_next? r.prober event_eq
      simp only [Task.next, event_eq, Option.map_some, Option.getD_some, Renderer.proceed?,
        Renderer.probe?, step]
      exact ⟨_, rfl⟩
  | encoding job lock output turns => cases turns <;> exact ⟨_, rfl⟩
  | queued job lock | trailing answer survey | finished answer => exact absurd h not_false

theorem Phase.follows_unlocked {r : Renderer} {planned : FileTree} {request : RenderRequest}
    {phase : Phase} :
    phase.unlocked.Follows r planned request ↔ phase.Follows r planned request := by
  cases phase <;> exact Iff.rfl

theorem Phase.answers_unlocked {answer : Except Failure RenderResult} {phase : Phase} :
    phase.unlocked.Answers answer ↔ phase.Answers answer := by
  cases phase <;> exact Iff.rfl

theorem Phase.Follows.rank_ne {r : Renderer} {planned : FileTree} {request : RenderRequest}
    {phase : Phase} (h : phase.Follows r planned request) : phase.rank ≠ 3 := by
  cases phase with
  | queued job lock => exact absurd h not_false
  | _ => exact nofun

/-- The destination that a task on its way may ask for a lock is the one that its request has. -/
theorem Phase.Follows.exists_plan {r : Renderer} {planned : FileTree} {request : RenderRequest}
    {phase : Phase} (h : phase.Follows r planned request) {destination : Path}
    (wanted : phase.Wants (r.plan planned) destination) :
    ∃ timeline, r.plan planned request = .ok (destination, timeline) := by
  -- Behind the first stage the destination is the one kept in the phase, which came from the plan.
  cases phase with
  | arriving arrived =>
    obtain rfl : arrived = request := h
    exact wanted
  | probing destination' timeline survey =>
    obtain rfl : destination' = destination := wanted
    exact ⟨timeline, h.2.1⟩
  | encoding job lock output turns =>
    obtain rfl : job.destination = destination := wanted
    obtain ⟨timeline, _, plan, _⟩ := Renderer.order_ok planned request job output h.2
    exact ⟨timeline, plan⟩
  | queued job lock | trailing answer survey | finished answer => exact absurd h not_false

namespace Renderer

/-- A step of a task on its way goes on, or gives the answer. Of the locks it may change only the
destination's. -/
theorem outcome_of_step? {r : Renderer} {planned : FileTree} {request : RenderRequest}
    {ticket : Ticket} {site site' : Site} {task task' : Task} (same : site.tree = planned)
    (step : r.step? ticket task.next site task = some (site', task'))
    (follows : task.phase.Follows r planned request)
    (free : 4 ≤ task.phase.rank → ∀ destination timeline,
      r.plan planned request = .ok (destination, timeline) →
        site.locks.find? destination = none) :
    ((task'.phase.Follows r planned request ∧ site'.tree = planned) ∨
      ∃ answer, task'.answer? = some answer ∧
        (site'.tree, answer) = r.outcome planned request planned) ∧
    ∀ other, (∀ timeline, r.plan planned request ≠ .ok (other, timeline)) →
      site.locks.find? other = none → site'.locks.find? other = none := by
  subst same
  simp only [step?, Option.map_eq_some_iff, Prod.exists, Prod.mk.injEq] at step
  obtain ⟨scene, phase, step, rfl, rfl⟩ := step
  obtain ⟨stop, stops, halts⟩ := stopsAt_of_proceed? step follows.rank_ne fun early d wanted =>
    (follows.exists_plan wanted).elim (free early d)
  refine ⟨?_, fun other foreign => halts.locks other fun wanted =>
    (follows.exists_plan wanted).elim foreign⟩
  -- A step either leaves the tree alone or does all of the engine's work and what follows it.
  have arrives := halts.stopped
  have reaches := reaches_of_follows stops follows
  cases stop with
  | stands stood =>
    rw [stopped, Prod.mk.injEq] at arrives
    obtain ⟨tree, rfl⟩ := arrives
    rcases reaches with onward | ⟨answer, answers, outcome⟩
    · exact .inl ⟨Phase.follows_unlocked.mp onward, tree⟩
    · refine .inr ⟨answer, ?_, ?_⟩
      · exact (Task.answer?_eq_some _ _).mpr (Phase.answers_unlocked.mp answers)
      · rw [outcome, tree]
  | encodes job output =>
    rw [stopped, Prod.mk.injEq] at arrives
    obtain ⟨tree, ended⟩ := arrives
    refine .inr ⟨(r.encoded job output site.tree).2, ?_, ?_⟩
    · rw [Task.answer?_eq_some, ← Phase.answers_unlocked, ended]
      rfl
    · rw [outcome_of_order reaches.1 reaches.2, tree]

/-- A task that is let on alone comes to the outcome of its request, and leaves no lock for other
destinations behind. -/
theorem settle_outcome (r : Renderer) (request : RenderRequest) (tree : FileTree)
    (ticket : Ticket) (site : Site) (task : Task) (same : site.tree = tree)
    (follows : task.phase.Follows r tree request)
    (free : 4 ≤ task.phase.rank → ∀ destination timeline,
      r.plan tree request = .ok (destination, timeline) →
        site.locks.find? destination = none) :
    (∃ answer, (r.settle ticket site task).2.answer? = some answer ∧
      ((r.settle ticket site task).1.tree, answer) = r.outcome tree request tree) ∧
    ∀ other, (∀ timeline, r.plan tree request ≠ .ok (other, timeline)) →
      site.locks.find? other = none →
        (r.settle ticket site task).1.locks.find? other = none := by
  -- Until the step that gives the answer the tree is the one that the request was planned on.
  fun_induction settle r ticket site task with
  | case1 site task answered =>
    rw [follows.answer?] at answered
    cases answered
  | case2 site task unanswered site' task' step ih =>
    obtain ⟨outcome, unlocked⟩ := outcome_of_step? same step follows free
    rcases outcome with ⟨onward, kept⟩ | ⟨answer, given, outcome⟩
    · obtain ⟨ends, unlocked'⟩ := ih kept onward fun early destination timeline plan => by
        simp only [step?, Option.map_eq_some_iff, Prod.exists, Prod.mk.injEq] at step
        obtain ⟨scene, phase, proceeded, rfl, rfl⟩ := step
        exact free_of_proceed? proceeded early fun before => free before destination timeline plan
      exact ⟨ends, fun other foreign open_ =>
          unlocked' other foreign (unlocked other foreign open_)⟩
    · rw [settle, if_pos (by rw [given]; rfl)]
      exact ⟨⟨answer, given, outcome⟩, unlocked⟩
  | case3 site task unanswered stuck =>
    obtain ⟨next, step⟩ := follows.exists_step? ticket site
    rw [stuck] at step
    cases step

/-- A render without others under way comes to the outcome of its request. -/
theorem render_outcome (r : Renderer) (request : RenderRequest) (site : Site)
    (idle : site.locks.current = []) :
    ∃ answer, (r.render request site).2.answer? = some answer ∧
      ((r.render request site).1.tree, answer) = r.outcome site.tree request site.tree := by
  refine (r.settle_outcome request site.tree 0 site (.ofRequest request) rfl rfl ?_).1
  intro _ destination timeline _
  rw [LockTable.find?, idle]
  rfl

theorem render_of_order (r : Renderer) (request : RenderRequest) (site : Site) {job : Job}
    {output : Path} (idle : site.locks.current = []) (quiet : r.check .idle = none)
    (order : r.order site.tree request = .ok (job, output)) :
    (r.render request site).1.tree = (r.encoded job output site.tree).1 ∧
      (r.render request site).2.answer? = some (r.encoded job output site.tree).2 := by
  obtain ⟨answer, answered, outcome⟩ := r.render_outcome request site idle
  rw [outcome_of_order quiet order] at outcome
  exact ⟨congrArg Prod.fst outcome, by rw [answered, ← outcome]⟩

end Renderer

end Montage
