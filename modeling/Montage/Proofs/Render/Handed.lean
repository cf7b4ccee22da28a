import Montage.Proofs.Render.Course

/-!
# What a render hands out

A task hands its sources to the prober and its job to the engine. Once the engine has taken over
nothing more is handed out: neither the end of a render nor a failure calls the prober or the
engine again.
-/
namespace Montage

/-- What the prober and the engine have been handed. -/
def Journal.handed (j : Journal) : List String × List EncoderCall := (j.probed, j.calls)

/-- The calls of the engine that a task at work has made. -/
def Scene.calls (scene : Scene) : List EncoderCall := scene.events.filterMap Event.call?

/-- What has been handed out by all tasks, and the calls among it that are the task's own. -/
def Scene.handed (scene : Scene) : (List String × List EncoderCall) × List EncoderCall :=
  (scene.site.journal.handed, scene.calls)

theorem Scene.calls_eq {begun scene : Scene} (same : begun.handed = scene.handed) :
    begun.calls = scene.calls := congrArg Prod.snd same

theorem Scene.calls_mark (scene : Scene) (event : Event) :
    (scene.mark event).calls = scene.calls ++ event.call?.toList := by
  rw [calls, mark, List.filterMap_append]
  cases event <;> rfl

theorem Scene.handed_mark (scene : Scene) (event : Event) (other : event.call? = none) :
    (scene.mark event).handed = scene.handed := by
  rw [handed, calls_mark, other]
  exact Prod.ext rfl (List.append_nil _)

namespace Renderer

variable {r : Renderer}

/-- Telling the observer hands nothing over. -/
theorem tell_handed (state : RenderState) (scene : Scene) :
    ∃ told, r.tell state scene = (told, r.check state) ∧ told.site = scene.site ∧
      told.handed = scene.handed := by
  rw [tell, check]
  cases r.observer with
  | none => exact ⟨scene, rfl, rfl, rfl⟩
  | some observe => exact ⟨scene.mark (.entered state), rfl, rfl, scene.handed_mark _ rfl⟩

theorem handed_conclude (e : Failure) (scene : Scene) :
    (r.conclude e scene).1.handed = scene.handed := by
  obtain ⟨told, eq, _, handed⟩ := r.tell_handed .failed (scene.say [e.line])
  rw [conclude, eq]
  cases r.check .failed <;> exact handed

theorem handed_fail (e : Failure) (scene : Scene) : (r.fail e scene).1.handed = scene.handed :=
  handed_conclude e scene

theorem handed_abandon (job : Job) (lock : Nat) (output : Path) (e : Failure) (scene : Scene) :
    (r.abandon job lock output e scene).1.handed = scene.handed := by
  simp only [abandon]
  cases (Storage.discard scene.site.tree output).result with
  | ok removed => exact handed_fail e _
  | error e => exact handed_fail (.file e) _

theorem handed_announce (job : Job) (scene : Scene) :
    (r.announce job scene).1.handed = scene.handed := by
  simp only [announce]
  cases (r.invalidator (r.shownPath job.destination) scene.site.tree).failure with
  | none | some e =>
    dsimp only
    obtain ⟨told, eq, _, handed⟩ := r.tell_handed .done _
    rw [eq]
    have dropped := handed.trans (Scene.handed_mark scene (.invalidated _) rfl)
    cases r.check .done <;> exact dropped

/-- Once the engine is done nothing is handed over. -/
theorem handed_finalize (job : Job) (lock : Nat) (output : Path) (scene : Scene) :
    (r.finalize job lock output scene).1.handed = scene.handed := by
  obtain ⟨told, eq, _, handed⟩ := r.tell_handed .finalizing scene
  rw [finalize, eq, ← handed]
  cases r.check .finalizing with
  | some e => exact handed_abandon job lock output e told
  | none =>
    dsimp only
    split
    · exact (handed_announce job _).trans (Scene.handed_mark told (.replaced job.destination) rfl)
    · exact handed_abandon job lock output _ _

/-- The end of the engine's work hands nothing on. -/
theorem handed_finishEncoding (job : Job) (lock : Nat) (output : Path) (scene : Scene) :
    (r.finishEncoding job lock output scene).1.handed = scene.handed := by
  simp only [finishEncoding]
  split
  · exact handed_abandon job lock output _ _
  · exact handed_finalize job lock output _

end Renderer

end Montage
