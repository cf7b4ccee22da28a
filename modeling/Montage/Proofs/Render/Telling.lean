import Montage.Proofs.Render.Account
import Montage.Proofs.Render.Destination

/-!
# Tasks on their course

Where the observer never fails, the account of a request is its course, told in full and answered
with a result. So every step of a task goes on along the course that begins with its request, for
whatever it will be replied later, and a task that has been answered has gone through the whole of
a course.
-/
namespace Montage

/-- What is still to come of a task's course, by what it will be replied. -/
def Phase.rest (options : CompileOptions Binary64) (replies : Replies) :
    Phase → Except Failure Course
  | .arriving request => .ok (Course.ofRequest replies options request)
  | .probing destination timeline _ => .ok (Course.probed replies options destination timeline)
  | .queued job _ => .ok (Course.rendered replies job)
  | .encoding job _ _ _ => .ok (Course.encoded replies job)
  | .trailing answer _ => answer.map fun result => ⟨[], result⟩
  | .finished answer => answer.map fun result => ⟨[], result⟩

/-! ### Accounts of a silent observer -/

def Course.account (c : Course) : Account := ⟨c.events, .ok c.result⟩

/-- The account of what is still to come of a course. -/
def Account.ofRest : Except Failure Course → Account
  | .ok c => c.account
  | .error e => ⟨[], .error e⟩

namespace Course

variable {observer : Option Observer} (silent : observer = some fun _ => none) (replies : Replies)

include silent

/-- A state that is entered before a silent observer is one event more. -/
theorem account_entered {state : RenderState} {stopped : Failure → Account} {next : Account}
    {c : Course} (eq : next = c.account) :
    Account.entered observer state stopped next = (c.after [.entered state]).account := by
  subst silent eq
  rfl

theorem account_failed (e : Failure) : Account.failed observer e = (failed e).account := by
  subst silent
  rfl

theorem account_announced (warnings : List String) :
    Account.announced observer replies warnings = (announced replies warnings).account := by
  subst silent
  rw [Account.announced, announced]
  cases replies.relative <;> rfl

theorem account_abandoned (e : Failure) :
    Account.abandoned observer replies e = (abandoned replies e).account := by
  rw [Account.abandoned, abandoned, account_failed silent]
  cases replies.discarded <;> rfl

theorem account_finalized (job : Job) :
    Account.finalized observer replies job = (finalized replies job).account := by
  rw [Account.finalized, finalized]
  refine account_entered silent ?_
  cases replies.replaced with
  | some e => exact account_abandoned silent replies e
  | none => exact congrArg (Account.after _) (account_announced silent replies job.warnings)

theorem account_encoded (job : Job) :
    Account.encoded observer replies job = (encoded replies job).account := by
  rw [Account.encoded, encoded]
  cases replies.engine with
  | some e => exact account_abandoned silent replies e
  | none => exact account_finalized silent replies job

theorem account_rendered (job : Job) :
    Account.rendered observer replies job = (rendered replies job).account := by
  rw [Account.rendered, rendered]
  refine account_entered silent ?_
  cases replies.output with
  | error e => exact account_failed silent e
  | ok output => exact congrArg (Account.after _) (account_encoded silent replies job)

theorem account_compiled (options : CompileOptions Binary64) (destination : Path)
    (timeline : Timeline Binary64) (cache : SourceCache) (warnings : List String) :
    Account.compiled observer replies options destination timeline cache warnings =
      (compiled replies options destination timeline cache warnings).account := by
  rw [Account.compiled, compiled]
  refine account_entered silent ?_
  cases (compileTimeline timeline cache options).graph with
  | error e => exact account_failed silent _
  | ok graph => exact account_rendered silent replies _

theorem account_probed (options : CompileOptions Binary64) (destination : Path)
    (timeline : Timeline Binary64) :
    Account.probed observer replies options destination timeline =
      (probed replies options destination timeline).account := by
  simp only [Account.probed, probed]
  cases replies.survey with
  | error e => exact account_failed silent e
  | ok cache =>
    dsimp only
    cases probeWarnings replies cache with
    | error e => exact account_failed silent e
    | ok warnings => exact account_compiled silent replies options destination timeline cache _

/-- Before a silent observer the account of a request is its course. -/
theorem account_ofRequest (options : CompileOptions Binary64) (request : RenderRequest) :
    Account.ofRequest observer replies options request =
      (ofRequest replies options request).account := by
  rw [Account.ofRequest, ofRequest]
  refine account_entered silent ?_
  cases planned replies request with
  | error e => exact account_failed silent e
  | ok plan => exact account_entered silent (account_probed silent replies options plan.1 plan.2)

end Course

theorem Phase.account_eq_ofRest {observer : Option Observer}
    (silent : observer = some fun _ => none) (options : CompileOptions Binary64)
    (replies : Replies) (phase : Phase) :
    phase.account observer options replies = .ofRest (phase.rest options replies) := by
  cases phase with
  | arriving request => exact Course.account_ofRequest silent replies options request
  | probing destination timeline survey =>
    exact Course.account_probed silent replies options destination timeline
  | queued job lock => exact Course.account_rendered silent replies job
  | encoding job lock output turns => exact Course.account_encoded silent replies job
  | trailing answer survey | finished answer => cases answer <;> rfl

/-! ### Failures that can be raised -/

/-- Of whatever kind, a failure that can be raised. -/
def Replies.raised (_ : Replies.Kind) (e : Failure) : Prop := e.IsRaised

theorem Replies.areRaised_iff_failBy (replies : Replies) :
    replies.AreRaised ↔ replies.FailBy Replies.raised :=
  ⟨fun ⟨a, b, c, d, e, f, g, h, i⟩ => ⟨a, b, c, d, e, f, g, h, i⟩,
    fun ⟨a, b, c, d, e, f, g, h, i⟩ => ⟨a, b, c, d, e, f, g, h, i⟩⟩

theorem Renderer.failsBy_isRaised (r : Renderer) (engine : r.engine.Raises)
    (prober : r.prober.Raises) : r.FailsBy Replies.raised where
  destination _ _ _ _ h := (Storage.isOf_destination _ _ h).isRaised
  resolved _ _ _ _ h := (Storage.isOf_resolve _ _ h).isRaised
  survey _ _ h := prober.inspect h
  output _ _ _ := trivial
  engine _ _ _ _ h := engine.perform _ _ _ _ h
  replaced _ _ _ _ _ h := (Storage.isOf_replace _ h).isRaised
  discarded _ _ _ _ := trivial

/-! ### Running tasks -/

/-- A task on the course of its request. -/
structure Task.OnCourse (r : Renderer) (request : RenderRequest) (task : Task) : Prop where
  surveys : task.phase.Surveys r
  course : ∀ later : Replies, later.AreRaised → ∃ replies : Replies, replies.AreRaised ∧
    Except.ok (Course.ofRequest replies r.compileOptions request) =
      (task.phase.rest r.compileOptions later).map (Course.after task.events)

/-- A course goes on with what is still to come exactly if its account does. -/
theorem Course.ok_eq_map_iff (events : List Event) (c : Course) (rest : Except Failure Course) :
    Except.ok c = rest.map (Course.after events) ↔
      c.account = (Account.ofRest rest).after events := by
  obtain ⟨told, result⟩ := c
  cases rest <;> simp [Except.map, account, Account.ofRest, Account.after, Course.after]

/-- Before a silent observer a task stays on its course as it stays on its account. -/
theorem Task.onCourse_iff_onAccount {r : Renderer} {request : RenderRequest} {task : Task}
    (silent : r.observer = some fun _ => none) :
    task.OnCourse r request ↔ task.OnAccount Replies.raised r request := by
  -- A silent observer adds nothing to the course, so that each reply tells the same story.
  have same (replies later : Replies) :
      (Except.ok (Course.ofRequest replies r.compileOptions request) =
        (task.phase.rest r.compileOptions later).map (Course.after task.events)) ↔
      Account.ofRequest r.observer replies r.compileOptions request =
        (task.phase.account r.observer r.compileOptions later).after task.events := by
    rw [Course.ok_eq_map_iff, ← Course.account_ofRequest silent, Phase.account_eq_ofRest silent]
  constructor
  · rintro ⟨surveys, course⟩
    refine ⟨surveys, fun later lawful => ?_⟩
    obtain ⟨replies, raised, eq⟩ := course later (later.areRaised_iff_failBy.mpr lawful)
    exact ⟨replies, replies.areRaised_iff_failBy.mp raised, (same _ _).mp eq⟩
  · rintro ⟨surveys, account⟩
    refine ⟨surveys, fun later raised => ?_⟩
    obtain ⟨replies, lawful, eq⟩ := account later (later.areRaised_iff_failBy.mp raised)
    exact ⟨replies, replies.areRaised_iff_failBy.mpr lawful, (same _ _).mpr eq⟩

theorem Task.OnCourse.settle {r : Renderer} {request : RenderRequest} {task : Task}
    (h : task.OnCourse r request) (silent : r.observer = some fun _ => none)
    (engine : r.engine.Raises) (prober : r.prober.Raises) (ticket : Ticket) (site : Site) :
    (r.settle ticket site task).2.OnCourse r request :=
  (onCourse_iff_onAccount silent).mpr <|
    ((onCourse_iff_onAccount silent).mp h).settle (r.failsBy_isRaised engine prober) ticket site

namespace Renderer

end Renderer

end Montage
