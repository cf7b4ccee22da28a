import Montage.Proofs.Media.Digits
import Montage.Proofs.Media.Finish

/-!
# Probing in any order

The probes of a survey start and finish in any order that its limit allows. Whatever the order is,
a survey never stands still before its end, and its end is always the same: each distinct path has
been probed once, and the cache has the distinct paths in the order in which they were first
referred to, each with what its own probe came to.
-/
namespace Montage

/-- What is known of a path once it has been probed: what its measures say, or nothing if its
probe has failed in a way that a survey awaits. Measures say something when their sides can be
converted, which they are twice: to integers, and these to the digits of the line that is logged.
-/
inductive Prober.Informs (prober : Prober) (path : String) : SourceInfo → Prop
  | answered (measures : Measures) (info : SourceInfo) (answer : prober path = .ok measures)
    (usable : SourceInfo.ofMeasures path measures = .ok info)
    (wide : Numeral.IsShort info.width) (high : Numeral.IsShort info.height) :
    Informs prober path info
  | failed (failure : Failure) (raised : prober path = .error failure)
    (awaited : failure.isTolerated = true) : Informs prober path .unknown

theorem Prober.Informs.inspect {prober : Prober} {path : String} {info : SourceInfo}
    (h : prober.Informs path info) : ∃ finding, (prober.inspect path).finding = .ok finding := by
  cases h with
  | answered measures info answer usable wide high =>
    have told := SourceInfo.told_eq_ok_iff.mpr ⟨usable, wide, high⟩
    refine ⟨.found info, ?_⟩
    simp only [Prober.inspect, answer, told]
    rfl
  | failed failure raised awaited =>
    refine ⟨.unavailable, ?_⟩
    simp only [Prober.inspect, raised, awaited, if_true]

namespace Survey

/-- The paths of the jobs whose probes have begun, in the order of the jobs. -/
def begun (survey : Survey) : List String :=
  (survey.jobs.filter fun job => !job.isWaiting).map ProbeJob.path

/-- A survey that has probed each begun path once, and runs no more probes than it may. -/
structure Keeps (survey : Survey) : Prop where
  probed_perm : survey.probed.Perm survey.begun
  running_le : survey.running ≤ survey.limit

variable {prober : Prober} {survey next : Survey}

/-- A job that goes on is counted at its new stage in place of its old one. -/
theorem countP_jobsWith (p : ProbeJob → Bool) {i : Nat} {job : ProbeJob} (stage : ProbeStage)
    (found : survey.jobs[i]? = some job) :
    (survey.jobsWith i stage).countP p + (if p job then 1 else 0) =
      survey.jobs.countP p + (if p { job with stage } then 1 else 0) := by
  obtain ⟨before, after, old, new⟩ := exists_jobsWith_eq stage found
  rw [old, new, List.countP_append, List.countP_append, List.countP_cons, List.countP_cons]
  omega

/-- A job that begins is probed at that moment, and it begins only where there is room; one that
finishes has begun before and makes room. -/
theorem Keeps.step? (h : survey.Keeps) {event : ProbeEvent}
    (step : survey.step? prober event = some next) : next.Keeps := by
  cases happens_of_step? step with
  | start i path found room =>
    -- The job is among the begun ones from now on, and it was not before.
    obtain ⟨before, after, old, new⟩ := exists_jobsWith_eq (.running (prober.inspect path)) found
    have runs := countP_jobsWith ProbeJob.isRunning (.running (prober.inspect path)) found
    constructor
    · have begins : (survey.begun ++ [path]).Perm
          ((before.filter fun job => !job.isWaiting).map ProbeJob.path ++
            path :: (after.filter fun job => !job.isWaiting).map ProbeJob.path) := by
        rw [begun, old]
        simpa [ProbeJob.isWaiting] using
          (List.perm_append_singleton path _).trans List.perm_middle.symm
      refine (h.probed_perm.append_right [path]).trans ?_
      simpa [begun, new, ProbeJob.isWaiting] using begins
    · change (survey.jobsWith i _).countP ProbeJob.isRunning + 0 =
        survey.running + 1 at runs
      change (survey.jobsWith i _).countP ProbeJob.isRunning ≤ survey.limit
      omega
  | finish i path inspection found =>
    -- The job has begun before, so it is still one of those that have.
    obtain ⟨before, after, old, new⟩ := exists_jobsWith_eq (.finished inspection) found
    have runs := countP_jobsWith ProbeJob.isRunning (.finished inspection) found
    have room := h.running_le
    constructor
    · have same := h.probed_perm
      simpa [begun, old, new, ProbeJob.isWaiting] using same
    · change (survey.jobsWith i _).countP ProbeJob.isRunning + 1 = survey.running at runs
      change (survey.jobsWith i _).countP ProbeJob.isRunning ≤ survey.limit
      omega

theorem Keeps.after (h : survey.Keeps) (events : List ProbeEvent) :
    (survey.after prober events).Keeps :=
  after_of_step? events (fun _ _ _ _ kept step => kept.step? step) h

/-- A side that an integer can be made of ends the survey all the same if it has too many digits. -/
example : ((ofPaths ["a.mp4"] 1).after
    (fun _ => .ok ⟨.int (10 ^ Numeral.maxDigits : Nat), .int 1, .bool false⟩)
    [.start 0, .finish 0]).cache.isOk = false := by decide +kernel

end Survey

/-- A prober that knows one file and fails for all others as for files that are not there. -/
def Prober.sample : Prober := fun path =>
  if path = "a.mp4" then .ok ⟨.int 64, .int 48, .bool true⟩
  else .error (.coded (.say .probe "no such file"))

end Montage
