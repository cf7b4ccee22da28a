import Montage.Media.Survey
import Montage.Proofs.Attempt
import Montage.Proofs.Graph.Assembly

/-!
# What a survey does

Whatever happens to a survey, it probes only the paths that it was made for, and what a job knows
is what the prober says of the job's own path. So a survey fails with a failure of one of its
probes, and it fails as soon as one of them has finished with a failure.
-/
namespace Montage

/-- What a job whose probe has started knows of its source, or will know when the probe ends. -/
def ProbeJob.inspection? (job : ProbeJob) : Option Inspection :=
  match job.stage with
  | .waiting => none
  | .running inspection => some inspection
  | .finished inspection => some inspection

namespace Survey

/-- A survey of certain paths, in which each job knows nothing but what its own probe has said. -/
structure Serves (prober : Prober) (paths : List String) (survey : Survey) : Prop where
  paths_mem : ∀ job ∈ survey.jobs, job.path ∈ paths
  probed_mem : ∀ path ∈ survey.probed, path ∈ paths
  inspected : ∀ job ∈ survey.jobs, ∀ inspection, job.inspection? = some inspection →
    inspection = prober.inspect job.path
  failed : ∀ e, survey.failure = some e →
    ∃ path ∈ paths, (prober.inspect path).finding = .error e
  /-- No failure of a finished probe goes unnoticed. -/
  noticed : ∀ job ∈ survey.jobs, ∀ inspection, job.stage = .finished inspection →
    inspection.failure?.isSome = true → survey.failure.isSome = true

end Survey

theorem Inspection.failure?_eq_some_iff {inspection : Inspection} {e : Failure} :
    inspection.failure? = some e ↔ inspection.finding = .error e := by
  rw [failure?]
  cases inspection.finding <;> simp

namespace Survey

variable {prober : Prober} {paths : List String} {survey next : Survey}

theorem serves_ofPaths (paths : List String) (maxWorkers : Int) :
    (ofPaths paths maxWorkers).Serves prober paths := by
  refine ⟨?_, List.forall_mem_nil _, ?_, nofun, ?_⟩
  · intro job member
    obtain ⟨path, listed, rfl⟩ := List.mem_map.mp member
    exact (mem_distinct path paths).mp listed
  · intro job member inspection known
    obtain ⟨path, _, rfl⟩ := List.mem_map.mp member
    cases known
  · intro job member inspection finished
    obtain ⟨path, _, rfl⟩ := List.mem_map.mp member
    cases finished

theorem getElem?_jobsWith {i j : Nat} {given job : ProbeJob} {stage : ProbeStage}
    (at_i : survey.jobs[i]? = some given) (at_j : (survey.jobsWith i stage)[j]? = some job) :
    (i = j ∧ job = { given with stage }) ∨ (i ≠ j ∧ survey.jobs[j]? = some job) := by
  by_cases same : i = j
  · subst same
    rw [jobsWith, List.getElem?_modify_eq, at_i] at at_j
    exact .inl ⟨rfl, (Option.some.inj at_j).symm⟩
  · rw [jobsWith, List.getElem?_modify_ne _ _ same] at at_j
    exact .inr ⟨same, at_j⟩

theorem mem_jobsWith {i : Nat} {job given : ProbeJob} {stage : ProbeStage}
    (found : survey.jobs[i]? = some given) (member : job ∈ survey.jobsWith i stage) :
    job ∈ survey.jobs ∨ job = { given with stage } := by
  obtain ⟨j, here⟩ := List.mem_iff_getElem?.mp member
  rcases getElem?_jobsWith found here with ⟨_, changed⟩ | ⟨_, same⟩
  · exact .inr changed
  · exact .inl (List.mem_of_getElem? same)

/-- The jobs stay within the paths when one of them goes on. -/
theorem Serves.paths_jobsWith (h : survey.Serves prober paths) {i : Nat} {given : ProbeJob}
    (found : survey.jobs[i]? = some given) (stage : ProbeStage) :
    ∀ job ∈ survey.jobsWith i stage, job.path ∈ paths := by
  intro job member
  rcases mem_jobsWith found member with old | rfl
  · exact h.paths_mem job old
  · exact h.paths_mem given (List.mem_of_getElem? found)

/-- A job that goes on knows what the prober says of its path. -/
theorem Serves.inspected_jobsWith (h : survey.Serves prober paths) {i : Nat} {given : ProbeJob}
    (found : survey.jobs[i]? = some given) (stage : ProbeStage)
    (knows : ∀ inspection, ({ given with stage } : ProbeJob).inspection? = some inspection →
      inspection = prober.inspect given.path) :
    ∀ job ∈ survey.jobsWith i stage, ∀ inspection, job.inspection? = some inspection →
      inspection = prober.inspect job.path := by
  intro job member inspection known
  rcases mem_jobsWith found member with old | rfl
  · exact h.inspected job old inspection known
  · exact knows inspection known

theorem Serves.step? (h : survey.Serves prober paths) {event : ProbeEvent}
    (step : survey.step? prober event = some next) : next.Serves prober paths := by
  cases happens_of_step? step with
  | start i path found room =>
    refine ⟨h.paths_jobsWith found _, ?_, h.inspected_jobsWith found _ ?_, h.failed, ?_⟩
    · intro other member
      rcases List.mem_append.mp member with old | new
      · exact h.probed_mem other old
      · rw [List.mem_singleton.mp new]
        exact h.paths_mem _ (List.mem_of_getElem? found)
    · intro inspection known
      exact (Option.some.inj known).symm
    · intro job member inspection finished
      rcases mem_jobsWith found member with old | rfl
      · exact h.noticed job old inspection finished
      · cases finished
  | finish i path inspection found =>
    have own : inspection = prober.inspect path :=
      h.inspected _ (List.mem_of_getElem? found) inspection rfl
    refine ⟨h.paths_jobsWith found _, h.probed_mem, h.inspected_jobsWith found _ ?_, ?_, ?_⟩
    · intro other known
      rw [← Option.some.inj known]
      exact own
    -- The failure is the one that was known before, or else the one of this probe.
    · intro e failed
      rcases Option.or_eq_some_iff.mp failed with before | ⟨_, now⟩
      · exact h.failed e before
      · refine ⟨path, h.paths_mem _ (List.mem_of_getElem? found), ?_⟩
        rw [← own]
        exact Inspection.failure?_eq_some_iff.mp now
    · intro job member other finished failing
      rw [Option.isSome_or, Bool.or_eq_true]
      rcases mem_jobsWith found member with old | rfl
      · exact .inl (h.noticed job old other finished failing)
      · cases finished
        exact .inr failing

/-- What the events of a list keep holds after all of them. -/
theorem after_of_step? {P : Survey → Prop} (events : List ProbeEvent)
    (kept : ∀ event ∈ events, ∀ survey next : Survey, P survey →
      survey.step? prober event = some next → P next) (h : P survey) :
    P (survey.after prober events) := by
  induction events generalizing survey with
  | nil => exact h
  | cons event rest ih =>
    obtain ⟨first, others⟩ := List.forall_mem_cons.mp kept
    rw [after, List.foldl_cons]
    cases step : survey.step? prober event with
    | none => exact ih others h
    | some next => exact ih others (first survey next h step)

theorem Serves.after (h : survey.Serves prober paths) (events : List ProbeEvent) :
    (survey.after prober events).Serves prober paths :=
  after_of_step? events (fun _ _ _ _ serves step => serves.step? step) h

theorem cache_eq_error_iff {e : Failure} : survey.cache = .error e ↔ survey.failure = some e := by
  rw [cache]
  cases survey.failure <;> simp

/-- A survey fails with what one of its probes fails with. -/
theorem Serves.exists_probe (h : survey.Serves prober paths) {e : Failure}
    (failed : survey.cache = .error e) :
    ∃ path ∈ paths, (prober.inspect path).finding = .error e :=
  h.failed e (cache_eq_error_iff.mp failed)

end Survey

end Montage
