import Montage.Proofs.Render.Alone

/-!
# Schedules

A schedule lets the tasks of a batch make their moves in some order. What every move keeps is kept
by every schedule, and there is a schedule for every order in which tasks are let on one after the
other.
-/
namespace Montage

namespace Batch

variable {r : Renderer} {batch next : Batch} {ticket : Ticket} {move : Task.Move}

/-- A step of a batch is one of the task whose move it is. -/
theorem exists_of_step? (step : batch.step? r ticket move = some next) : ∃ task scene phase,
    batch.tasks[ticket]? = some task ∧
      r.proceed? ticket move ⟨batch.site, task.events, task.log⟩ task.phase =
          some (scene, phase) ∧
        next = ⟨scene.site, batch.tasks.set ticket ⟨phase, scene.events, scene.log⟩⟩ := by
  simp only [step?, Option.bind_eq_some_iff, Option.map_eq_some_iff, Prod.exists] at step
  obtain ⟨task, found, site, task', stepped, rfl⟩ := step
  simp only [Renderer.step?, Option.map_eq_some_iff, Prod.exists, Prod.mk.injEq] at stepped
  obtain ⟨scene, phase, proceeded, rfl, rfl⟩ := stepped
  exact ⟨task, scene, phase, found, proceeded, rfl⟩

theorem eq_or_getElem?_of_set {α : Type} {l : List α} {i j : Nat} {a b : α}
    (h : (l.set i a)[j]? = some b) : (i = j ∧ a = b) ∨ (i ≠ j ∧ l[j]? = some b) := by
  rw [List.getElem?_set] at h
  split at h
  next same =>
    split at h
    · exact .inl ⟨same, Option.some.inj h⟩
    · cases h
  next ne => exact .inr ⟨ne, h⟩

theorem after_cons (r : Renderer) (batch : Batch) (ticket : Ticket) (move : Task.Move)
    (rest : List (Ticket × Task.Move)) : batch.after r ((ticket, move) :: rest) =
      ((batch.step? r ticket move).getD batch).after r rest := rfl

theorem after_append (r : Renderer) (batch : Batch) (first second : List (Ticket × Task.Move)) :
    batch.after r (first ++ second) = (batch.after r first).after r second :=
  List.foldl_append

/-- What every step keeps holds after any number of steps, whatever their order. -/
theorem after_of_step? {P : Batch → Prop}
    (kept : ∀ {batch next : Batch} {ticket : Ticket} {move : Task.Move}, P batch →
      batch.step? r ticket move = some next → P next)
    (schedule : List (Ticket × Task.Move)) (h : P batch) : P (batch.after r schedule) := by
  induction schedule generalizing batch with
  | nil => exact h
  | cons turn rest ih =>
    obtain ⟨ticket, move⟩ := turn
    rw [after_cons]
    cases step : batch.step? r ticket move with
    | none => exact ih h
    | some next => exact ih (kept h step)

/-- A task can be let on without the others until it is answered or has to wait for them. -/
theorem exists_after_settle (r : Renderer) (ticket : Ticket) (site : Site) (task : Task)
    (tasks : List Task) (found : tasks[ticket]? = some task) :
    ∃ schedule, (Batch.mk site tasks).after r schedule =
      ⟨(r.settle ticket site task).1, tasks.set ticket (r.settle ticket site task).2⟩ := by
  have below := (List.getElem?_eq_some_iff.mp found).1
  have put : tasks.set ticket task = tasks := by
    obtain ⟨_, rfl⟩ := List.getElem?_eq_some_iff.mp found
    exact List.set_getElem_self below
  fun_induction Renderer.settle r ticket site task generalizing tasks with
  | case1 site task answered => exact ⟨[], by rw [put]; rfl⟩
  | case2 site task unanswered site' task' step ih =>
    obtain ⟨schedule, ends⟩ := ih (tasks.set ticket task') (by
      rw [List.getElem?_set, if_pos rfl, if_pos below]) (by rwa [List.length_set]) (by
      rw [List.set_set])
    refine ⟨(ticket, task.next) :: schedule, ?_⟩
    rw [List.set_set] at ends
    -- The task moves, and the others stay where they are.
    have first : (Batch.mk site tasks).step? r ticket task.next =
        some ⟨site', tasks.set ticket task'⟩ := by
      rw [step?, found, Option.bind_some, step]
      rfl
    rw [← ends, after_cons, first, Option.getD_some]
  | case3 site task unanswered stuck => exact ⟨[], by rw [put]; rfl⟩

/-- The second of two requests can be let on until it stands still, and then the first. -/
theorem exists_after_both (r : Renderer) (site : Site) (first second : RenderRequest) :
    ∃ schedule, (ofRequests site [first, second]).after r schedule =
      ⟨(r.settle 0 (r.settle 1 site (.ofRequest second)).1 (.ofRequest first)).1,
        [(r.settle 0 (r.settle 1 site (.ofRequest second)).1 (.ofRequest first)).2,
          (r.settle 1 site (.ofRequest second)).2]⟩ := by
  obtain ⟨early, begun⟩ := exists_after_settle r 1 site (.ofRequest second)
    [.ofRequest first, .ofRequest second] rfl
  obtain ⟨late, ended⟩ := exists_after_settle r 0 (r.settle 1 site (.ofRequest second)).1
    (.ofRequest first) [.ofRequest first, (r.settle 1 site (.ofRequest second)).2] rfl
  refine ⟨early ++ late, ?_⟩
  rw [after_append]
  change ((Batch.mk site [.ofRequest first, .ofRequest second]).after r early).after r late = _
  rw [begun]
  exact ended

end Batch

end Montage
