import Montage.Proofs.Render.Account
import Montage.Proofs.Render.Delivery

/-!
# What comes of a failure

A render answers with a result, whatever fails on its way: the storage, the prober, the compiler,
the engine, or the observer when it is told of a state in between. What nothing catches is a
failure of the observer when it is told of the beginning or of an end, and that is the answer then.
A render that has replaced its destination answers with a success, as long as the observer takes
note of it.
-/
namespace Montage

/-- The states that are entered before anything is caught, or when the answer is settled. -/
def RenderState.IsOuter (state : RenderState) : Prop :=
  state = .idle ∨ state = .failed ∨ state = .done

namespace Account

/-- Why a render can end without a file. -/
inductive Reason (F : Replies.Kind → Failure → Prop) (observer : Option Observer)
    (options : CompileOptions Binary64) : Failure → Prop
  | replied {kind : Replies.Kind} {e : Failure} (fails : F kind e) : Reason F observer options e
  | observed {state : RenderState} {e : Failure} (inner : ¬state.IsOuter)
    (fails : check observer state = some e) : Reason F observer options e
  | compiled {timeline : Timeline Binary64} {cache : SourceCache} {e : CompileError}
    (fails : (compileTimeline timeline cache options).graph = .error e) :
    Reason F observer options (e.failure options.minClipDuration)

/-- A success, unless the written file cannot be shown or the observer fails when it is told that
the render is done. -/
def IsDelivery (F : Replies.Kind → Failure → Prop) (observer : Option Observer)
    (answer : Except Failure RenderResult) : Prop :=
  (∃ path warnings, answer = .ok (.succeeded path warnings)) ∨ (∃ e, F .relative e) ∨
    ∃ e, check observer .done = some e

/-- An account with the answer that it ought to have, where the collaborators fail with certain
failures only. -/
structure Answers (F : Replies.Kind → Failure → Prop) (observer : Option Observer)
    (options : CompileOptions Binary64) (a : Account) : Prop where
  /-- A failure escapes exactly if it is the observer's, of the state that it was told of last. -/
  escapes : ∀ e, a.answer = .error e ↔ ∃ state, state.IsOuter ∧
    a.events.getLast? = some (.entered state) ∧ check observer state = some e
  reported : ∀ result, a.answer = .ok result →
    (∃ path warnings, result = .succeeded path warnings) ∨
      ∃ e, Reason F observer options e ∧ result = e.result
  delivered : ∀ destination, .replaced destination ∈ a.events → IsDelivery F observer a.answer
  told : a.events = [] → observer = none

section

variable {F : Replies.Kind → Failure → Prop} {observer : Option Observer}
  {options : CompileOptions Binary64} {a : Account}

/-- An observer that fails neither at the beginning nor at an end has every render return. -/
theorem Answers.returns (h : a.Answers F observer options)
    (quiet : ∀ state : RenderState, state.IsOuter → check observer state = none) :
    ∃ result, a.answer = .ok result := by
  cases answer : a.answer with
  | ok result => exact ⟨result, rfl⟩
  | error e =>
    obtain ⟨state, outer, _, fails⟩ := (h.escapes e).mp answer
    rw [quiet state outer] at fails
    cases fails

/-- What has replaced its destination is a success where the file is shown and the end told. -/
theorem Answers.success (h : a.Answers F observer options) (quiet : check observer .done = none)
    (shown : ∀ e, ¬F .relative e) {result : RenderResult} (returned : a.answer = .ok result)
    {destination : Path} (replaced : .replaced destination ∈ a.events) : result.success = true := by
  rcases h.delivered destination replaced with ⟨path, warnings, eq⟩ | ⟨e, fails⟩ | ⟨e, told⟩
  · cases returned.symm.trans eq
    rfl
  · exact absurd fails (shown e)
  · cases quiet.symm.trans told

theorem Answers.after (h : a.Answers F observer options) (events : List Event)
    (delivered : ∀ destination, .replaced destination ∈ events →
      IsDelivery F observer a.answer) : (a.after events).Answers F observer options where
  escapes e := by
    by_cases silent : a.events = []
    · -- Nobody is told of anything, so no failure escapes.
      obtain rfl := h.told silent
      refine Iff.trans (h.escapes e) ⟨?_, ?_⟩ <;>
        exact fun ⟨_, _, _, fails⟩ => absurd fails (Option.some_ne_none e).symm
    · have last : (a.after events).events.getLast? = a.events.getLast? := by
        rw [Account.after, List.getLast?_append, List.getLast?_eq_some_getLast silent]
        rfl
      rw [last]
      exact h.escapes e
  reported := h.reported
  delivered destination here :=
    (List.mem_append.mp here).elim (delivered destination) (h.delivered destination)
  told silent := h.told (List.append_eq_nil_iff.mp silent).2

theorem replaced_notMem_told (observer : Option Observer) (state : RenderState)
    (destination : Path) : .replaced destination ∉ told observer state := by
  cases observer with
  | none => exact List.not_mem_nil
  | some observe =>
    intro here
    cases List.mem_singleton.mp here

theorem answers_entered {state : RenderState} {stopped : Failure → Account}
    (stops : ∀ e, check observer state = some e → (stopped e).Answers F observer options)
    (goes : a.Answers F observer options) :
    (entered observer state stopped a).Answers F observer options := by
  have kept (answer : Except Failure RenderResult) (destination : Path)
      (here : .replaced destination ∈ told observer state) : IsDelivery F observer answer :=
    absurd here (replaced_notMem_told observer _ destination)
  rw [entered]
  cases checked : check observer state with
  | none => exact goes.after _ (kept _)
  | some e => exact (stops e checked).after _ (kept _)

theorem answers_ended {state : RenderState} (outer : state.IsOuter) {result : RenderResult}
    (reported : (∃ path warnings, result = .succeeded path warnings) ∨
      ∃ e, Reason F observer options e ∧ result = e.result) :
    (ended observer state result).Answers F observer options where
  escapes e := by
    cases observer with
    -- Only the observer stands outside the handlers, so only what it raises at the end escapes.
    | none => exact ⟨nofun, fun ⟨_, _, _, fails⟩ => absurd fails (Option.some_ne_none e).symm⟩
    | some observe =>
      rw [ended]
      constructor
      · intro failed
        refine ⟨state, outer, rfl, ?_⟩
        dsimp only at failed
        split at failed
        · cases failed
        next checked => rw [checked, Except.error.inj failed]
      · rintro ⟨last, _, told, fails⟩
        cases told
        rw [fails]
  reported given answered := by
    rw [ended] at answered
    dsimp only at answered
    split at answered
    · cases answered
      exact reported
    · cases answered
  delivered destination here := absurd here (replaced_notMem_told observer _ destination)
  told silent := by
    cases observer with
    | none => rfl
    | some observe => cases silent

theorem answers_failed {e : Failure} (reason : Reason F observer options e) :
    (failed observer e).Answers F observer options :=
  answers_ended (.inr (.inl rfl)) (.inr ⟨e, reason, rfl⟩)

/-- A failure of the observer at a state in between. -/
theorem answers_stopped {state : RenderState} (inner : ¬state.IsOuter) (e : Failure)
    (fails : check observer state = some e) : (failed observer e).Answers F observer options :=
  answers_failed (.observed inner fails)

variable {replies : Replies} (lawful : replies.FailBy F)

include lawful

theorem answers_announced (warnings : List String) (destination : Path) :
    ((announced observer replies warnings).after [.replaced destination]).Answers F observer
      options := by
  rw [announced]
  -- A destination that cannot be shown fails a render whose file is in place already.
  cases shown : replies.relative with
  | error e =>
    have fails := lawful.relative e shown
    exact (answers_failed (.replied fails)).after _ fun _ _ => .inr (.inl ⟨e, fails⟩)
  | ok path =>
    rw [after_after]
    refine (answers_ended (.inr (.inr rfl)) (.inl ⟨path, warnings, rfl⟩)).after _ fun _ _ => ?_
    rw [IsDelivery, ended]
    cases check observer .done with
    | none => exact .inl ⟨path, warnings, rfl⟩
    | some e => exact .inr (.inr ⟨e, rfl⟩)

theorem answers_abandoned {e : Failure} (reason : Reason F observer options e) :
    (abandoned observer replies e).Answers F observer options := by
  rw [abandoned]
  cases discarded : replies.discarded with
  | none => exact answers_failed reason
  | some e => exact answers_failed (.replied (lawful.discarded e discarded))

theorem answers_finalized (job : Job) :
    (finalized observer replies job).Answers F observer options := by
  refine answers_entered (fun e fails => answers_abandoned lawful (.observed ?_ fails)) ?_
  · simp [RenderState.IsOuter]
  · cases replaced : replies.replaced with
    | some e => exact answers_abandoned lawful (.replied (lawful.replaced e replaced))
    | none => exact answers_announced lawful job.warnings job.destination

theorem answers_encoded (job : Job) :
    (encoded observer replies job).Answers F observer options := by
  rw [encoded]
  cases engine : replies.engine with
  | some e => exact answers_abandoned lawful (.replied (lawful.engine e engine))
  | none => exact answers_finalized lawful job

theorem answers_rendered (job : Job) :
    (rendered observer replies job).Answers F observer options := by
  refine answers_entered (answers_stopped (by simp [RenderState.IsOuter])) ?_
  cases output : replies.output with
  | error e => exact answers_failed (.replied (lawful.output e output))
  | ok path => exact (answers_encoded lawful job).after _ fun _ here => by simp at here

theorem answers_compiled (destination : Path) (timeline : Timeline Binary64)
    (cache : SourceCache) (warnings : List String) :
    (compiled observer replies options destination timeline cache warnings).Answers F observer
      options := by
  refine answers_entered (answers_stopped (by simp [RenderState.IsOuter])) ?_
  cases graph : (compileTimeline timeline cache options).graph with
  | error e => exact answers_failed (.compiled graph)
  | ok graph => exact answers_rendered lawful _

theorem answers_probed (destination : Path) (timeline : Timeline Binary64) :
    (probed observer replies options destination timeline).Answers F observer options := by
  rw [probed]
  cases survey : replies.survey with
  | error e => exact answers_failed (.replied (lawful.survey e survey))
  | ok cache =>
    dsimp only
    cases shown : Course.probeWarnings replies cache with
    | error e =>
      obtain ⟨path, failed⟩ := Course.exists_shown shown
      exact answers_failed (.replied (lawful.shown path e failed))
    | ok warnings => exact answers_compiled lawful destination timeline cache warnings

variable (observer options) in
theorem answers_planned (request : RenderRequest) :
    (match Course.planned replies request with
      | .error e => failed observer e
      | .ok (destination, timeline) => entered observer .probing (failed observer)
          (probed observer replies options destination timeline)).Answers F observer options := by
  cases plan : Course.planned replies request with
  | error e =>
    rcases Course.refused_of_planned plan with refused | ⟨path, refused⟩
    · exact answers_failed (.replied (lawful.destination e refused))
    · exact answers_failed (.replied (lawful.resolved path e refused))
  | ok found =>
    exact answers_entered (answers_stopped (by simp [RenderState.IsOuter]))
      (answers_probed lawful found.1 found.2)

/-- Whatever fails, an account of a request has the answer that it ought to have. -/
theorem answers_ofRequest (options : CompileOptions Binary64) (request : RenderRequest) :
    (ofRequest observer replies options request).Answers F observer options := by
  have planned := answers_planned observer options lawful request
  rw [ofRequest, entered]
  cases checked : check observer .idle with
  | none =>
    exact planned.after _ fun destination here =>
      absurd here (replaced_notMem_told observer _ destination)
  | some e =>
    -- Nothing is caught yet, so this failure is the answer.
    cases observer with
    | none => cases checked
    | some observe =>
      change Answers F (some observe) options ⟨[.entered .idle], .error e⟩
      refine ⟨fun e' => ⟨fun escaped => ?_, ?_⟩, fun result returned => ?_,
        fun destination here => ?_, fun silent => ?_⟩
      · cases escaped
        exact ⟨.idle, .inl rfl, rfl, checked⟩
      · rintro ⟨state, _, told, fails⟩
        cases told
        rw [checked] at fails
        exact congrArg Except.error (Option.some.inj fails)
      · cases returned
      · exact absurd here (replaced_notMem_told (some observe) .idle destination)
      · cases silent

end

end Account

section

variable {F : Replies.Kind → Failure → Prop} {r : Renderer} (fails : r.FailsBy F)

include fails

/-- Every answer among others is the one that there ought to be. -/
theorem Batch.answers_after (site : Site) (requests : List RenderRequest)
    (schedule : List (Ticket × Task.Move))
    (i : Nat) (task : Task) (request : RenderRequest) (answer : Except Failure RenderResult)
    (here : ((Batch.ofRequests site requests).after r schedule).tasks[i]? = some task)
    (asked : requests[i]? = some request) (answered : task.answer? = some answer) :
    Account.Answers F r.observer r.compileOptions ⟨task.events, answer⟩ := by
  obtain ⟨replies, lawful, keeps⟩ :=
    keepsTo_after fails site requests schedule i task request here asked
  rw [← keeps.answered answer answered]
  exact Account.answers_ofRequest lawful r.compileOptions request

/-- A render alone comes to the answer that there ought to be. -/
theorem Renderer.exists_answers (request : RenderRequest) (site : Site)
    (idle : site.locks.current = []) : ∃ answer,
      (r.render request site).2.answer? = some answer ∧
        Account.Answers F r.observer r.compileOptions
          ⟨(r.render request site).2.events, answer⟩ := by
  obtain ⟨replies, lawful, answer, answered, account⟩ := exists_account fails request site idle
  refine ⟨answer, answered, ?_⟩
  rw [← account]
  exact Account.answers_ofRequest lawful r.compileOptions request

end

/-- The failures of collaborators whose storage shows every path that it has resolved. -/
def Replies.shows (F : Replies.Kind → Failure → Prop) (kind : Replies.Kind) (e : Failure) : Prop :=
  kind ≠ .shown ∧ kind ≠ .relative ∧ F kind e

namespace Renderer

theorem FailsBy.shows {r : Renderer} {F : Replies.Kind → Failure → Prop} (h : r.FailsBy F) :
    r.FailsBy (Replies.shows F) where
  destination _ _ _ _ failed := ⟨nofun, nofun, h.destination _ _ _ _ failed⟩
  resolved _ _ _ _ failed := ⟨nofun, nofun, h.resolved _ _ _ _ failed⟩
  survey _ _ failed := ⟨nofun, nofun, h.survey _ _ failed⟩
  output _ _ failed := ⟨nofun, nofun, h.output _ _ failed⟩
  engine _ _ _ _ failed := ⟨nofun, nofun, h.engine _ _ _ _ failed⟩
  replaced _ _ _ _ _ failed := ⟨nofun, nofun, h.replaced _ _ _ _ _ failed⟩
  discarded _ _ _ failed := ⟨nofun, nofun, h.discarded _ _ _ failed⟩

end Renderer

end Montage
