import Montage.Render.Task

/-!
# Progress of tasks

Every move brings a task nearer to its end: it reaches a later phase, or uses up one of the events
that its survey has to go or of the turns that the engine still has. So every task comes to an end
if it is let on.
-/
namespace Montage

namespace Phase

/-- How many phases are still to come. -/
def rank : Phase → Nat
  | arriving _ => 5
  | probing .. => 4
  | queued .. => 3
  | encoding .. => 2
  | trailing .. => 1
  | finished _ => 0

/-- How many events the survey, or turns the engine, still has. -/
def turnsLeft : Phase → Nat
  | probing _ _ survey => survey.remaining
  | encoding _ _ _ turns => turns
  | trailing _ survey => survey.remaining
  | _ => 0

end Phase

namespace Renderer

theorem rank_fail (r : Renderer) (e : Failure) (scene : Scene) :
    (r.fail e scene).2.rank = 0 := rfl

theorem rank_announce (r : Renderer) (job : Job) (scene : Scene) :
    (r.announce job scene).2.rank = 0 := by
  unfold announce; dsimp only; split <;> rfl

theorem rank_abandon (r : Renderer) (job : Job) (lock : Nat) (output : Path) (e : Failure)
    (scene : Scene) : (r.abandon job lock output e scene).2.rank = 0 := by
  unfold abandon; dsimp only; split <;> exact rank_fail ..

theorem rank_finalize (r : Renderer) (job : Job) (lock : Nat) (output : Path) (scene : Scene) :
    (r.finalize job lock output scene).2.rank = 0 := by
  unfold finalize
  split
  · exact rank_abandon ..
  · split
    · exact rank_announce ..
    · exact rank_abandon ..

theorem rank_finishEncoding (r : Renderer) (job : Job) (lock : Nat) (output : Path)
    (scene : Scene) : (r.finishEncoding job lock output scene).2.rank = 0 := by
  unfold finishEncoding
  dsimp only
  split
  · exact rank_abandon ..
  · exact rank_finalize ..

theorem rank_startEncoding_le (r : Renderer) (job : Job) (lock : Nat) (scene : Scene) :
    (r.startEncoding job lock scene).2.rank ≤ 2 := by
  unfold startEncoding
  split
  · simp [rank_fail]
  · split
    · simp [rank_fail]
    · dsimp only
      split
      · simp [rank_finishEncoding]
      · exact Nat.le_refl 2

theorem rank_compile_le (r : Renderer) (ticket : Ticket) (destination : Path)
    (timeline : Timeline Binary64) (cache : SourceCache) (scene : Scene) :
    (r.compile ticket destination timeline cache scene).2.rank ≤ 3 := by
  unfold compile seekLock
  dsimp only
  split
  · simp [rank_fail]
  · split
    · exact Nat.le_refl 3
    · exact Nat.le_succ_of_le (rank_startEncoding_le ..)

theorem rank_finishProbing_le (r : Renderer) (ticket : Ticket) (destination : Path)
    (timeline : Timeline Binary64) (survey : Survey) (scene : Scene) :
    (r.finishProbing ticket destination timeline survey scene).2.rank ≤ 3 := by
  unfold finishProbing enter
  dsimp only
  split
  · exact Nat.le_of_ble_eq_true rfl
  · split
    · exact rank_compile_le ..
    · simp [rank_fail]

theorem rank_arrive_le (r : Renderer) (ticket : Ticket) (request : RenderRequest)
    (scene : Scene) : (r.arrive ticket request scene).2.rank ≤ 4 := by
  unfold arrive enter startProbing
  split
  · simp [Phase.rank]
  · split
    · simp [rank_fail]
    · split
      · dsimp only
        split
        · exact Nat.le_succ_of_le (rank_finishProbing_le ..)
        · exact Nat.le_refl 4
      · simp [rank_fail]

/-- The probes of a survey before and after a move, and the journal with the probe that began. -/
theorem step?_of_probe? {r : Renderer} {survey : Survey} {event : ProbeEvent} {scene : Scene}
    {next : Scene × Survey} (h : r.probe? survey event scene = some next) :
    survey.step? r.prober event = some next.2 ∧
      next.1 = scene.note fun j =>
        { j with probed := j.probed ++ next.2.probed.drop survey.probed.length } := by
  obtain ⟨after, step, rfl⟩ := Option.map_eq_some_iff.mp h
  exact ⟨step, rfl⟩

/-- What a phase can go on to, and the move that takes it there. -/
inductive Proceeds (r : Renderer) (ticket : Ticket) (scene : Scene) :
    Task.Move → Phase → Scene × Phase → Prop
  | arrive (request : RenderRequest) :
    Proceeds r ticket scene .resume (.arriving request) (r.arrive ticket request scene)
  | finishProbing (destination : Path) (timeline : Timeline Binary64) (survey : Survey)
    (decided : survey.isDecided = true) :
    Proceeds r ticket scene .resume (.probing destination timeline survey)
      (r.finishProbing ticket destination timeline survey scene)
  | probe (destination : Path) (timeline : Timeline Binary64) (survey : Survey)
    (event : ProbeEvent) (next : Scene × Survey)
    (happens : r.probe? survey event scene = some next) :
    Proceeds r ticket scene (.probe event) (.probing destination timeline survey)
      (next.1, .probing destination timeline next.2)
  | startEncoding (job : Job) (lock : Nat) (turn : scene.site.locks.isNext lock ticket = true) :
    Proceeds r ticket scene .resume (.queued job lock)
      (r.startEncoding job lock (scene.withLocks (scene.site.locks.dequeue lock ticket)))
  | finishEncoding (job : Job) (lock : Nat) (output : Path) :
    Proceeds r ticket scene .resume (.encoding job lock output 0)
      (r.finishEncoding job lock output scene)
  | continueEncoding (job : Job) (lock : Nat) (output : Path) (turns : Nat) :
    Proceeds r ticket scene .resume (.encoding job lock output (turns + 1))
      (scene, .encoding job lock output turns)
  | trail (answer : Except Failure RenderResult) (survey : Survey) (event : ProbeEvent)
    (next : Scene × Survey) (happens : r.probe? survey event scene = some next) :
    Proceeds r ticket scene (.probe event) (.trailing answer survey)
      (next.1, .trailing answer next.2)

theorem proceeds_of_proceed? {r : Renderer} {ticket : Ticket} {move : Task.Move} {scene : Scene}
    {phase : Phase} {next : Scene × Phase} (h : r.proceed? ticket move scene phase = some next) :
    r.Proceeds ticket scene move phase next := by
  -- Each phase has one way on for each move that can happen in it.
  cases phase with
  | arriving request =>
    cases move with
    | resume =>
      cases h
      exact .arrive request
    | probe event => cases h
  | probing destination timeline survey =>
    cases move with
    | resume =>
      rw [proceed?] at h
      split at h
      next decided =>
        cases h
        exact .finishProbing destination timeline survey decided
      · cases h
    | probe event =>
      obtain ⟨after, happens, rfl⟩ := Option.map_eq_some_iff.mp h
      exact .probe destination timeline survey event after happens
  | queued job lock =>
    cases move with
    | resume =>
      rw [proceed?] at h
      split at h
      next turn =>
        cases h
        exact .startEncoding job lock turn
      · cases h
    | probe event => cases h
  | encoding job lock output turns =>
    cases move with
    | resume =>
      cases turns with
      | zero =>
        cases h
        exact .finishEncoding job lock output
      | succ turns =>
        cases h
        exact .continueEncoding job lock output turns
    | probe event => cases turns <;> cases h
  | trailing answer survey =>
    cases move with
    | resume => cases h
    | probe event =>
      obtain ⟨after, happens, rfl⟩ := Option.map_eq_some_iff.mp h
      exact .trail answer survey event after happens
  | finished answer => cases h

/-- A move reaches a later phase, or there is an event or a turn less. -/
theorem proceed?_lt {r : Renderer} {ticket : Ticket} {move : Task.Move} {scene : Scene}
    {phase : Phase} {next : Scene × Phase}
    (h : r.proceed? ticket move scene phase = some next) :
    next.2.rank < phase.rank ∨
      (next.2.rank = phase.rank ∧ next.2.turnsLeft < phase.turnsLeft) := by
  -- Only a survey's event and a turn of the engine keep the phase, and each of them uses one up.
  cases proceeds_of_proceed? h with
  | arrive request => exact .inl (Nat.lt_succ_of_le (rank_arrive_le r ticket request scene))
  | finishProbing destination timeline survey decided =>
    have le := rank_finishProbing_le r ticket destination timeline survey scene
    exact .inl (Nat.lt_succ_of_le le)
  | probe destination timeline survey event after happens =>
    exact .inr ⟨rfl, Survey.step?_remaining (step?_of_probe? happens).1⟩
  | startEncoding job lock turn => exact .inl (Nat.lt_succ_of_le (rank_startEncoding_le ..))
  | finishEncoding job lock output =>
    have eq := rank_finishEncoding r job lock output scene
    left
    change (r.finishEncoding job lock output scene).2.rank < 2
    omega
  | continueEncoding job lock output turns => exact .inr ⟨rfl, Nat.lt_succ_self turns⟩
  | trail answer survey event after happens =>
    exact .inr ⟨rfl, Survey.step?_remaining (step?_of_probe? happens).1⟩

/-- A task that has gone on arrives no more. -/
theorem ne_arriving_of_proceed? {r : Renderer} {ticket : Ticket} {move : Task.Move}
    {scene : Scene} {phase : Phase} {next : Scene × Phase}
    (h : r.proceed? ticket move scene phase = some next) (request : RenderRequest) :
    next.2 ≠ .arriving request := by
  intro again
  have lower := proceed?_lt h
  rw [again] at lower
  cases phase <;> simp [Phase.rank, Phase.turnsLeft] at lower

theorem step?_lt {r : Renderer} {ticket : Ticket} {move : Task.Move} {site site' : Site}
    {task task' : Task} (h : r.step? ticket move site task = some (site', task')) :
    task'.phase.rank < task.phase.rank ∨
      (task'.phase.rank = task.phase.rank ∧ task'.phase.turnsLeft < task.phase.turnsLeft) := by
  simp only [step?, Option.map_eq_some_iff, Prod.exists, Prod.mk.injEq] at h
  obtain ⟨scene, phase, h, _, rfl⟩ := h
  exact proceed?_lt h

end Renderer

end Montage
