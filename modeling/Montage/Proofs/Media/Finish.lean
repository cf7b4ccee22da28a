import Mathlib.Algebra.Ring.Nat
import Montage.Proofs.Media.Survey

/-!
# How a survey ends

Every event brings a survey nearer to its end: a waiting job has two events to go and a running
one has one. As long as there is something to go an event can happen, since there is room for at
least one probe. And whatever the order was in which the probes ran, a survey with nothing to go
has found for each distinct path, in first-reference order, what the prober says of that path.
-/
namespace Montage

namespace Survey

/-- A survey of distinct paths in their order, with room for a number of probes. -/
structure Follows (paths : List String) (maxWorkers : Int) (survey : Survey) : Prop where
  paths_eq : survey.jobs.map ProbeJob.path = distinct paths
  limit_eq : survey.limit = (max 1 maxWorkers).toNat

variable {prober : Prober} {paths : List String} {maxWorkers : Int} {survey next : Survey}

theorem follows_ofPaths (paths : List String) (maxWorkers : Int) :
    (ofPaths paths maxWorkers).Follows paths maxWorkers := by
  refine ⟨?_, rfl⟩
  simp [ofPaths, Function.comp_def]

theorem Follows.step? (h : survey.Follows paths maxWorkers) {event : ProbeEvent}
    (step : survey.step? prober event = some next) : next.Follows paths maxWorkers := by
  obtain ⟨before, after, path, stage, stage', old, new, limit, _⟩ := step?_cases step
  refine ⟨?_, limit.trans h.limit_eq⟩
  rw [← h.paths_eq, old, new]
  simp

theorem Follows.after (h : survey.Follows paths maxWorkers) (events : List ProbeEvent) :
    (survey.after prober events).Follows paths maxWorkers :=
  after_of_step? events (fun _ _ _ _ follows step => follows.step? step) h

theorem remaining_eq_zero_iff : survey.remaining = 0 ↔
    ∀ job ∈ survey.jobs, job.stage.remaining = 0 := by
  unfold remaining
  induction survey.jobs with
  | nil => simp
  | cons job rest ih => rw [List.foldr_cons, Nat.add_eq_zero_iff, ih, List.forall_mem_cons]

/-- A survey with something to go can go on: a running probe can finish, and where none runs
there is room for one to start. -/
theorem Follows.exists_step? (h : survey.Follows paths maxWorkers)
    (unfinished : survey.remaining ≠ 0) :
    ∃ event next, survey.step? prober event = some next := by
  -- A running probe can always finish. If none runs the limit leaves room for a waiting one.
  by_cases busy : ∃ job ∈ survey.jobs, job.isRunning = true
  · obtain ⟨job, member, running⟩ := busy
    obtain ⟨i, found⟩ := List.mem_iff_getElem?.mp member
    rcases job with ⟨path, _ | inspection | _⟩
    · cases running
    · exact ⟨.finish i, _, by simp only [Survey.step?, found]; rfl⟩
    · cases running
  · have idle : survey.running = 0 := by
      rw [running, List.countP_eq_zero]
      exact fun job member running => busy ⟨job, member, running⟩
    have room : survey.running < survey.limit := by
      rw [idle, h.limit_eq]
      omega
    have waits : ∃ job ∈ survey.jobs, job.stage.remaining ≠ 0 := by
      by_contra none
      refine unfinished (remaining_eq_zero_iff.mpr fun job member => ?_)
      by_contra left
      exact none ⟨job, member, left⟩
    obtain ⟨job, member, left⟩ := waits
    obtain ⟨i, found⟩ := List.mem_iff_getElem?.mp member
    rcases job with ⟨path, _ | inspection | _⟩
    · exact ⟨.start i, _, by simp only [Survey.step?, found, if_pos room]; rfl⟩
    · exact absurd ⟨_, member, rfl⟩ busy
    · exact absurd rfl left

/-- A survey has not failed if all its paths can be probed. -/
theorem Serves.failure_eq_none (h : survey.Serves prober paths)
    (fine : ∀ path ∈ paths, ∃ finding, (prober.inspect path).finding = .ok finding) :
    survey.failure = none := by
  cases failure : survey.failure with
  | none => rfl
  | some e =>
    obtain ⟨path, listed, broken⟩ := h.failed e failure
    obtain ⟨finding, found⟩ := fine path listed
    rw [found] at broken
    cases broken

/-- A finished job of a survey that has not failed has the finding of its own path. -/
theorem Serves.outcome?_eq (h : survey.Serves prober paths) (clean : survey.failure = none)
    {job : ProbeJob} (member : job ∈ survey.jobs) (finished : job.stage.remaining = 0) :
    ∃ finding, job.outcome? = some (.ok (job.path, finding)) ∧
      (prober.inspect job.path).finding = .ok finding := by
  rcases job with ⟨path, _ | _ | inspection⟩
  · cases finished
  · cases finished
  · obtain rfl : inspection = prober.inspect path := h.inspected _ member inspection rfl
    cases outcome : (prober.inspect path).finding with
    | ok finding =>
      refine ⟨finding, ?_, rfl⟩
      simp only [ProbeJob.outcome?, outcome]
      rfl
    -- A failure would have been noticed by the survey.
    | error e =>
      have noticed := h.noticed _ member _ rfl
        (Option.isSome_of_eq_some (Inspection.failure?_eq_some_iff.mpr outcome))
      rw [clean] at noticed
      cases noticed

/-- A survey with nothing to go that has not failed knows of each path what the prober says of
it. -/
theorem Follows.mapM_eq_of_cache (h : survey.Follows paths maxWorkers)
    (serves : survey.Serves prober paths) (finished : survey.remaining = 0) {cache : SourceCache}
    (found : survey.cache = .ok cache) :
    ((distinct paths).mapM fun path => (prober.inspect path).finding.map (path, ·)) =
      .ok cache := by
  have clean : survey.failure = none := by
    cases failure : survey.failure with
    | none => rfl
    | some e =>
      rw [cache_eq_error_iff.mpr failure] at found
      cases found
  have each : ∀ job ∈ survey.jobs, ∃ finding,
      job.outcome? = some (.ok (job.path, finding)) ∧
        (prober.inspect job.path).finding = .ok finding := fun job member =>
    serves.outcome?_eq clean member (remaining_eq_zero_iff.mp finished job member)
  rw [Survey.cache, clean] at found
  cases found
  rw [← h.paths_eq]
  -- Job by job, the finding that is kept is the one that the prober gives for the path.
  generalize survey.jobs = jobs at each
  induction jobs with
  | nil => rfl
  | cons job rest ih =>
    obtain ⟨⟨finding, outcome, inspected⟩, others⟩ := List.forall_mem_cons.mp each
    rw [List.map_cons, List.mapM_cons, inspected, ih others, List.filterMap_cons, outcome]
    rfl

/-- A survey that is decided and has not failed has nothing to go. -/
theorem remaining_of_isDecided (decided : survey.isDecided = true) {cache : SourceCache}
    (found : survey.cache = .ok cache) : survey.remaining = 0 := by
  rw [isDecided, Bool.or_eq_true, decide_eq_true_eq] at decided
  rcases decided with failed | finished
  · obtain ⟨e, failure⟩ := Option.isSome_iff_exists.mp failed
    rw [cache_eq_error_iff.mpr failure] at found
    cases found
  · exact finished

/-! ### Rounds -/

/-- The next event of a survey in rounds can happen. -/
theorem exists_step?_of_next? (prober : Prober) {event : ProbeEvent}
    (event_eq : survey.next? = some event) : ∃ next, survey.step? prober event = some next := by
  -- The next event names a job by the stage that it is at.
  have stage_of (p : ProbeJob → Bool) {i : Nat} (found : survey.jobs.findIdx? p = some i) :
      ∃ job, survey.jobs[i]? = some job ∧ p job = true := by
    obtain ⟨inside, holds, _⟩ := List.findIdx?_eq_some_iff_getElem.mp found
    exact ⟨_, List.getElem?_eq_getElem inside, holds⟩
  rw [next?, Option.or_eq_some_iff] at event_eq
  rcases event_eq with starts | ⟨_, finishes⟩
  · split at starts
    next open_ =>
      obtain ⟨i, found, rfl⟩ := Option.map_eq_some_iff.mp starts
      obtain ⟨⟨path, _ | _ | _⟩, here, waits⟩ := stage_of _ found
      · rw [Bool.and_eq_true, decide_eq_true_eq] at open_
        exact ⟨_, by simp only [Survey.step?, here, if_pos open_.2]; rfl⟩
      · cases waits
      · cases waits
    next => cases starts
  · split at finishes
    next => cases finishes
    next =>
      obtain ⟨i, found, rfl⟩ := Option.map_eq_some_iff.mp finishes
      obtain ⟨⟨path, _ | inspection | _⟩, here, runs⟩ := stage_of _ found
      · cases runs
      · exact ⟨_, by simp only [Survey.step?, here]; rfl⟩
      · cases runs

/-- A survey without a next event is decided: where nothing runs there is room for what waits. -/
theorem isDecided_of_next? (room : 0 < survey.limit) (ended : survey.next? = none) :
    survey.isDecided = true := by
  rw [isDecided, Bool.or_eq_true, decide_eq_true_eq]
  by_cases failed : survey.failure.isSome = true
  · exact .inl failed
  rw [next?, Option.or_eq_none_iff, Bool.eq_false_iff.mpr failed, Bool.and_false,
    if_neg Bool.false_ne_true, Option.map_eq_none_iff, List.findIdx?_eq_none_iff] at ended
  obtain ⟨starts, nobody⟩ := ended
  -- No job runs, so the survey has room and would start what waits.
  have idle : survey.running = 0 := by
    rw [running, List.countP_eq_zero]
    intro job member runs
    rw [nobody job member] at runs
    cases runs
  simp only [idle, room, decide_true, Bool.true_or, Bool.true_and, if_true, Option.map_eq_none_iff,
    List.findIdx?_eq_none_iff] at starts
  right
  refine remaining_eq_zero_iff.mpr fun job member => ?_
  have runs := nobody job member
  have waits := starts job member
  rcases job with ⟨path, _ | _ | _⟩
  · cases waits
  · cases runs
  · rfl

/-- The survey let on in rounds for as long as there is a next event. -/
def settled (prober : Prober) (survey : Survey) : Survey :=
  match _step : survey.next?.bind (survey.step? prober) with
  | none => survey
  | some next => settled prober next
termination_by survey.remaining
decreasing_by
  obtain ⟨event, _, step⟩ := Option.bind_eq_some_iff.mp _step
  exact step?_remaining step

theorem settled_of_next? (ended : survey.next? = none) : survey.settled prober = survey := by
  rw [settled]
  split
  · rfl
  next next step =>
    rw [ended] at step
    cases step

theorem settled_of_step? {event : ProbeEvent} (event_eq : survey.next? = some event)
    (step : survey.step? prober event = some next) :
    survey.settled prober = next.settled prober := by
  rw [settled]
  split
  next stuck =>
    rw [event_eq, Option.bind_some, step] at stuck
    cases stuck
  next other step' =>
    rw [event_eq, Option.bind_some, step] at step'
    cases step'
    rfl

/-- What every event keeps is kept by a survey that is let on in rounds, and at its end there is no
next event. -/
theorem settled_of_kept (prober : Prober) {P : Survey → Prop}
    (kept : ∀ survey next : Survey, ∀ event, P survey →
      survey.step? prober event = some next → P next) (h : P survey) :
    P (survey.settled prober) ∧ (survey.settled prober).next? = none := by
  -- The survey stops at a state that has no next event, and else takes the next one.
  fun_induction settled prober survey with
  | case1 survey stuck =>
    refine ⟨h, ?_⟩
    cases event_eq : survey.next? with
    | none => rfl
    | some event =>
      obtain ⟨next, step⟩ := exists_step?_of_next? prober event_eq
      rw [event_eq, Option.bind_some, step] at stuck
      cases stuck
  | case2 survey next step ih =>
    obtain ⟨event, _, step⟩ := Option.bind_eq_some_iff.mp step
    exact ih (kept survey next event h step)

/-- A survey of paths that is let on in rounds comes to a decision about them. -/
theorem follows_settled (prober : Prober) (paths : List String) (maxWorkers : Int) :
    ((ofPaths paths maxWorkers).settled prober).Follows paths maxWorkers ∧
      ((ofPaths paths maxWorkers).settled prober).Serves prober paths ∧
      ((ofPaths paths maxWorkers).settled prober).isDecided = true := by
  obtain ⟨⟨follows, serves⟩, ended⟩ := settled_of_kept prober
    (P := fun survey => survey.Follows paths maxWorkers ∧ survey.Serves prober paths)
    (fun _ _ _ both step => ⟨both.1.step? step, both.2.step? step⟩)
    ⟨follows_ofPaths paths maxWorkers, serves_ofPaths paths maxWorkers⟩
  refine ⟨follows, serves, isDecided_of_next? ?_ ended⟩
  rw [follows.limit_eq]
  omega

/-- Whatever the order was in which the probes ran, a survey that has found something has found
what it would have found in rounds. -/
theorem Follows.cache_settled (h : survey.Follows paths maxWorkers)
    (serves : survey.Serves prober paths) (decided : survey.isDecided = true) {cache : SourceCache}
    (found : survey.cache = .ok cache) :
    ((ofPaths paths maxWorkers).settled prober).cache = .ok cache := by
  have mapped := h.mapM_eq_of_cache serves (remaining_of_isDecided decided found) found
  obtain ⟨follows, serves', decided'⟩ := follows_settled prober paths maxWorkers
  -- No path has failed in the one survey, so that none can fail in the other.
  have clean := serves'.failure_eq_none fun path member => by
    obtain ⟨entry, _, kept⟩ :=
      (Except.mem_of_mapM_eq_ok mapped).1 path ((mem_distinct path paths).mpr member)
    cases finding : (prober.inspect path).finding with
    | ok found => exact ⟨found, rfl⟩
    | error e =>
      rw [finding] at kept
      cases kept
  obtain ⟨other, found'⟩ : ∃ other, ((ofPaths paths maxWorkers).settled prober).cache = .ok other :=
    ⟨_, by rw [Survey.cache, clean]⟩
  rw [found', ← mapped,
    follows.mapM_eq_of_cache serves' (remaining_of_isDecided decided' found') found']

end Survey

/-- Findings that are made path by path stand in the order of the paths, each by its own. -/
theorem Prober.entries_of_mapM {prober : Prober} {paths : List String} {cache : SourceCache}
    (probed : (paths.mapM fun path => (prober.inspect path).finding.map (path, ·)) = .ok cache) :
    cache.map Prod.fst = paths ∧
      ∀ entry ∈ cache, (prober.inspect entry.1).finding = .ok entry.2 := by
  -- An entry is made of its path and of what the probe has found for that.
  have entry_eq {path : String} {entry : String × Finding}
      (h : (prober.inspect path).finding.map (path, ·) = .ok entry) :
      path = entry.1 ∧ (prober.inspect path).finding = .ok entry.2 := by
    cases finding : (prober.inspect path).finding with
    | error e =>
      rw [finding] at h
      cases h
    | ok answer =>
      rw [finding] at h
      cases h
      exact ⟨rfl, rfl⟩
  constructor
  · rw [← Except.map_eq_map_of_mapM_eq_ok (g := id) (k := Prod.fst) probed
      fun path _ entry h => (entry_eq h).1, List.map_id]
  · intro entry member
    obtain ⟨path, _, h⟩ := (Except.mem_of_mapM_eq_ok probed).2 entry member
    obtain ⟨rfl, finding⟩ := entry_eq h
    exact finding

end Montage
