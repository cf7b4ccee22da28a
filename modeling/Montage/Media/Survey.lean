import Montage.Media.Probe

/-!
# Surveys

A survey probes the distinct sources of a render. Its jobs wait for a free place, run, and finish
in any order; the findings stand in the order in which the sources were first referred to. What a
probe says is settled when it starts, but nothing is known of it before it has finished. The first
probe that finishes with a failure which is not awaited decides the survey; the others go on, but
what they come to no longer counts.
-/
namespace Montage

inductive ProbeStage where
  | waiting
  | running (inspection : Inspection)
  | finished (inspection : Inspection)

/-- How many events are still to come at a stage. -/
def ProbeStage.remaining : ProbeStage → Nat
  | waiting => 2
  | running _ => 1
  | finished _ => 0

structure ProbeJob where
  path : String
  stage : ProbeStage

namespace ProbeJob

def isWaiting (job : ProbeJob) : Bool :=
  match job.stage with
  | .waiting => true
  | _ => false

def isRunning (job : ProbeJob) : Bool :=
  match job.stage with
  | .running _ => true
  | _ => false

/-- The warning of a job whose probe has started. -/
def warning? (job : ProbeJob) : Option String :=
  match job.stage with
  | .waiting => none
  | .running inspection => inspection.warning
  | .finished inspection => inspection.warning

/-- The finding of a finished job, by its path. -/
def outcome? (job : ProbeJob) : Option (Except Failure (String × Finding)) :=
  match job.stage with
  | .finished inspection => some (inspection.finding.map (job.path, ·))
  | _ => none

end ProbeJob

/-- The beginning or the end of one job's probe. -/
inductive ProbeEvent where
  | start (job : Nat)
  | finish (job : Nat)
deriving DecidableEq

structure Survey where
  /-- How many probes may run at a time. -/
  limit : Nat
  jobs : List ProbeJob
  /-- The paths whose probes have begun, in the order in which they did. -/
  probed : List String
  /-- The failure that was the first to be known. -/
  failure : Option Failure

namespace Survey

/-- A survey of the distinct paths. There is always room for one probe. -/
def ofPaths (paths : List String) (maxWorkers : Int) : Survey :=
  ⟨(max 1 maxWorkers).toNat, (distinct paths).map (⟨·, .waiting⟩), [], none⟩

def running (survey : Survey) : Nat := survey.jobs.countP ProbeJob.isRunning

def waiting (survey : Survey) : Nat := survey.jobs.countP ProbeJob.isWaiting

/-- How many events a survey has to go. -/
def remaining (survey : Survey) : Nat :=
  survey.jobs.foldr (fun job sum => job.stage.remaining + sum) 0

/-- The jobs with one of them at another stage. -/
def jobsWith (survey : Survey) (i : Nat) (stage : ProbeStage) : List ProbeJob :=
  survey.jobs.modify i fun job => { job with stage }

/-- The survey after an event, if it can happen: a waiting job starts while there is room, and a
running one finishes. -/
def step? (prober : Prober) (survey : Survey) : ProbeEvent → Option Survey
  | .start i =>
    match survey.jobs[i]? with
    | some ⟨path, .waiting⟩ =>
      if survey.running < survey.limit then
        some { survey with
          jobs := survey.jobsWith i (.running (prober.inspect path))
          probed := survey.probed ++ [path] }
      else none
    | _ => none
  | .finish i =>
    match survey.jobs[i]? with
    | some ⟨_, .running inspection⟩ =>
      some { survey with
        jobs := survey.jobsWith i (.finished inspection)
        failure := survey.failure.or inspection.failure? }
    | _ => none

/-- The survey after a list of events; those that cannot happen are passed over. -/
def after (prober : Prober) (survey : Survey) (events : List ProbeEvent) : Survey :=
  events.foldl (fun survey event => (survey.step? prober event).getD survey) survey

/-- The start of each probe, in the order of the jobs. -/
def starts (survey : Survey) : List ProbeEvent := (List.range survey.jobs.length).map .start

/-- The end of each probe, in the order of the jobs. -/
def finishes (survey : Survey) : List ProbeEvent := (List.range survey.jobs.length).map .finish

/-- Every job from start to finish, one after the other. -/
def inTurn (survey : Survey) : List ProbeEvent :=
  (List.range survey.jobs.length).flatMap fun i => [.start i, .finish i]

def warnings (survey : Survey) : List String :=
  survey.jobs.filterMap ProbeJob.warning?

/-- Whether it is known what the survey comes to: a probe has failed, or all have finished. -/
def isDecided (survey : Survey) : Bool := survey.failure.isSome || survey.remaining = 0

/-- What a survey comes to: the findings of the finished jobs, or the failure that was the first
to be known. -/
def cache (survey : Survey) : Except Failure SourceCache :=
  match survey.failure with
  | some e => .error e
  | none => .ok (survey.jobs.filterMap fun job => job.outcome?.bind Except.toOption)

/-- The survey of paths with all probes finished. -/
def complete (prober : Prober) (paths : List String) (maxWorkers : Int) : Survey :=
  let survey := ofPaths paths maxWorkers
  survey.after prober survey.inTurn

/-- The next event of a survey that goes on in rounds: probes start for all free places, and all
of them finish before others start. A failure is noted when the next round has begun. There is no
next event when the survey is decided. -/
def next? (survey : Survey) : Option ProbeEvent :=
  let finished := survey.jobs.length - survey.waiting - survey.running
  let isBetween := survey.running = 0 || finished % survey.limit = 0
  let start :=
    if isBetween && survey.running < survey.limit then
      (survey.jobs.findIdx? ProbeJob.isWaiting).map .start
    else none
  let finish :=
    if isBetween && survey.failure.isSome then none
    else (survey.jobs.findIdx? ProbeJob.isRunning).map .finish
  start.or finish

/-- How many beats a survey takes that goes on in rounds. Each round has one beat in which its
probes start, one in which they work and the end of the round before is noted, and one in which
they finish; the beats after the last round show that all have finished. -/
def beats (survey : Survey) : Nat :=
  3 * ((survey.jobs.length + survey.limit - 1) / survey.limit) + 1

/-! ### Events -/

variable {prober : Prober} {survey next : Survey}

/-- What an event does to a survey in which it can happen. -/
inductive Happens (prober : Prober) (survey : Survey) : ProbeEvent → Survey → Prop
  | start (i : Nat) (path : String) (found : survey.jobs[i]? = some ⟨path, .waiting⟩)
    (room : survey.running < survey.limit) :
    Happens prober survey (.start i) { survey with
      jobs := survey.jobsWith i (.running (prober.inspect path))
      probed := survey.probed ++ [path] }
  | finish (i : Nat) (path : String) (inspection : Inspection)
    (found : survey.jobs[i]? = some ⟨path, .running inspection⟩) :
    Happens prober survey (.finish i) { survey with
      jobs := survey.jobsWith i (.finished inspection)
      failure := survey.failure.or inspection.failure? }

theorem happens_of_step? {event : ProbeEvent} (step : survey.step? prober event = some next) :
    survey.Happens prober event next := by
  cases event with
  | start i =>
    simp only [step?] at step
    split at step
    next path found =>
      split at step
      next room =>
        cases step
        exact .start i path found room
      next => cases step
    next => cases step
  | finish i =>
    simp only [step?] at step
    split at step
    next path inspection found =>
      cases step
      exact .finish i path inspection found
    next => cases step

/-- The jobs around one that goes on stay as they are. -/
theorem exists_jobsWith_eq {i : Nat} {job : ProbeJob} (stage : ProbeStage)
    (found : survey.jobs[i]? = some job) : ∃ before after,
      survey.jobs = before ++ job :: after ∧
        survey.jobsWith i stage = before ++ { job with stage } :: after := by
  obtain ⟨inside, rfl⟩ := List.getElem?_eq_some_iff.mp found
  refine ⟨survey.jobs.take i, survey.jobs.drop (i + 1), ?_, ?_⟩
  · rw [List.getElem_cons_drop, List.take_append_drop]
  · exact List.modify_eq_take_cons_drop inside

/-- What an event does: one job goes to its next stage. -/
theorem step?_cases {event : ProbeEvent} (step : survey.step? prober event = some next) :
    ∃ before after path stage stage',
      survey.jobs = before ++ ⟨path, stage⟩ :: after ∧
      next.jobs = before ++ ⟨path, stage'⟩ :: after ∧
      next.limit = survey.limit ∧ stage'.remaining + 1 = stage.remaining := by
  cases happens_of_step? step with
  | start i path found room =>
    obtain ⟨before, after, old, new⟩ := exists_jobsWith_eq (.running (prober.inspect path)) found
    exact ⟨before, after, path, _, _, old, new, rfl, rfl⟩
  | finish i path inspection found =>
    obtain ⟨before, after, old, new⟩ := exists_jobsWith_eq (.finished inspection) found
    exact ⟨before, after, path, _, _, old, new, rfl, rfl⟩

theorem foldr_add_lt {α : Type} (f : α → Nat) (l : List α) {m n : Nat} (less : m < n) :
    l.foldr (fun a sum => f a + sum) m < l.foldr (fun a sum => f a + sum) n := by
  induction l with
  | nil => exact less
  | cons a rest ih => exact Nat.add_lt_add_left ih (f a)

/-- Every event brings a survey nearer to its end. -/
theorem step?_remaining {event : ProbeEvent} (step : survey.step? prober event = some next) :
    next.remaining < survey.remaining := by
  obtain ⟨before, after, path, stage, stage', old, new, _, progress⟩ := step?_cases step
  rw [remaining, remaining, old, new, List.foldr_append, List.foldr_append]
  refine foldr_add_lt _ before ?_
  simp only [List.foldr_cons]
  omega

end Survey

end Montage
