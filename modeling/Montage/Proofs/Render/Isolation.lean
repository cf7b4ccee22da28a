import Mathlib.Data.List.Induction
import Montage.Proofs.Render.Apart
import Montage.Proofs.Render.Lone
import Montage.Proofs.Render.Schedule

/-!
# Renders that run together

Tasks share the files and the locks. Nothing that a render does elsewhere matters to a task that
does not look there, and the lock of its destination is free for it if nobody else has that
destination. So whatever the order of all their moves is, each task comes to what it would have come
to with its own moves alone.
-/
namespace Montage

open FileTree

/-- The moves of one task in a schedule. -/
def Batch.own (ticket : Ticket) (schedule : List (Ticket × Task.Move)) : List Task.Move :=
  schedule.filterMap fun (mover, move) => if mover = ticket then some move else none

theorem Phase.rank_unlocked (phase : Phase) : phase.unlocked.rank = phase.rank := by
  cases phase <;> rfl

theorem Phase.wants_unlocked {plan : RenderRequest → Except Failure (Path × Timeline Binary64)}
    {destination : Path} {phase : Phase} :
    phase.unlocked.Wants plan destination ↔ phase.Wants plan destination := by
  cases phase <;> exact Iff.rfl

/-- A task among others goes along with its request's render by itself: it is in the same phase, and
finds the same wherever it looks. -/
structure Accompanies (r : Renderer) (thumbnail : String → Option Path) (planned : FileTree)
    (request : RenderRequest) (lone : FileTree × Phase) (site : Site) (phase : Phase) : Prop where
  tracks : Tracks r planned request lone.1 lone.2
  phase_eq : phase.unlocked = lone.2
  agree : AgreeOn (r.looks thumbnail planned request) lone.1 site.tree
  free : 4 ≤ phase.rank → ∀ destination timeline,
    r.plan planned request = .ok (destination, timeline) →
      site.locks.find? destination = none

/-- What a task does to what it shares with others: it changes only files of its own, and leaves no
lock behind for destinations of others. -/
structure Renderer.Respects (r : Renderer) (thumbnail : String → Option Path) (planned : FileTree)
    (request : RenderRequest) (site next : Site) : Prop where
  proper : next.tree.IsProper
  elsewhere : ∀ p, p ∉ r.changes thumbnail planned request → next.tree.get? p = site.tree.get? p
  locks : ∀ other, (∀ timeline, r.plan planned request ≠ .ok (other, timeline)) →
    site.locks.find? other = none → next.locks.find? other = none

namespace Accompanies

variable {r : Renderer} {thumbnail : String → Option Path} {planned : FileTree}
  {request : RenderRequest} {lone : FileTree × Phase} {site : Site} {phase : Phase}
  {ticket : Ticket} {move : Task.Move} {next : Scene × Phase}

/-- A task goes along when another one has made a move that changes nothing where it looks. -/
theorem of_elsewhere (h : Accompanies r thumbnail planned request lone site phase) {next : Site}
    (same : AgreeOn (r.looks thumbnail planned request) site.tree next.tree)
    (locks : ∀ destination timeline, r.plan planned request = .ok (destination, timeline) →
      site.locks.find? destination = none → next.locks.find? destination = none) :
    Accompanies r thumbnail planned request lone next phase where
  tracks := h.tracks
  phase_eq := h.phase_eq
  agree p looked := (same p looked).trans (h.agree p looked)
  free early destination timeline plan :=
    locks destination timeline plan (h.free early destination timeline plan)

theorem plan_eq (h : Accompanies r thumbnail planned request lone site phase)
    (begun : lone.1 = planned) : r.plan site.tree request = r.plan planned request := by
  have agree := h.agree
  rw [begun] at agree
  exact Renderer.plan_of_agree agree

theorem exists_plan (h : Accompanies r thumbnail planned request lone site phase)
    {destination : Path} (wanted : phase.Wants (r.plan site.tree) destination) :
    ∃ timeline, r.plan planned request = .ok (destination, timeline) :=
  h.tracks.exists_plan h.plan_eq (h.phase_eq ▸ Phase.wants_unlocked.mpr wanted)

theorem stop?_eq (h : Accompanies r thumbnail planned request lone site phase)
    (move : Task.Move) :
    r.stop? move (r.plan lone.1) lone.2 = r.stop? move (r.plan site.tree) phase := by
  rw [← h.tracks.stop?_congr move h.plan_eq, ← h.phase_eq, Renderer.stop?_unlocked]

theorem rank_ne (h : Accompanies r thumbnail planned request lone site phase) : phase.rank ≠ 3 := by
  rw [← phase.rank_unlocked, h.phase_eq]
  exact h.tracks.rank_ne

/-- A move that is not possible among others is not possible alone. -/
theorem lone_eq (scene : Scene)
    (h : Accompanies r thumbnail planned request lone scene.site phase)
    (stuck : r.proceed? ticket move scene phase = none) : r.lone lone move = lone := by
  have none := r.isSome_proceed? ticket move scene (r.plan scene.site.tree) h.rank_ne
  rw [stuck, ← h.stop?_eq, Option.isSome_none, eq_comm, Option.isSome_eq_false_iff,
    Option.isNone_iff_eq_none] at none
  rw [Renderer.lone, none]
  rfl

/-- A move of the task leads to where the same move leads alone, and respects the others. -/
theorem of_proceed? (scene : Scene)
    (h : Accompanies r thumbnail planned request lone scene.site phase)
    (drops : r.invalidator.Drops thumbnail) (proper : planned.IsProper)
    (properNow : scene.site.tree.IsProper)
    (step : r.proceed? ticket move scene phase = some next) :
    Accompanies r thumbnail planned request (r.lone lone move) next.1.site next.2 ∧
      r.Respects thumbnail planned request scene.site next.1.site := by
  obtain ⟨stop, stops, stopsAt⟩ := Renderer.stopsAt_of_proceed? step h.rank_ne
    fun early destination wanted => (h.exists_plan wanted).elim (h.free early destination)
  have locks (other : Path) (foreign : ∀ timeline, r.plan planned request ≠ .ok (other, timeline)) :
      scene.site.locks.find? other = none → next.1.site.locks.find? other = none := by
    refine stopsAt.locks other fun wanted => ?_
    obtain ⟨timeline, plan⟩ := h.exists_plan wanted
    exact foreign timeline plan
  have free (early : 4 ≤ next.2.rank) (destination : Path) (timeline : Timeline Binary64)
      (plan : r.plan planned request = .ok (destination, timeline)) :
      next.1.site.locks.find? destination = none :=
    Renderer.free_of_proceed? step early fun before => h.free before destination timeline plan
  have alone := stops
  rw [← h.stop?_eq] at alone
  have tracks := Renderer.tracks_of_stop? h.tracks alone
  have goes : r.lone lone move = r.stopped lone.1 stop := by
    rw [Renderer.lone, alone]
    rfl
  have arrives := stopsAt.stopped
  rw [goes]
  cases stop with
  | stands stood =>
    rw [Renderer.stopped, Prod.mk.injEq] at arrives
    obtain ⟨tree, stood_eq⟩ := arrives
    refine ⟨⟨tracks, stood_eq, by rw [tree]; exact h.agree, free⟩, ?_, ?_, locks⟩
    · rwa [tree]
    · intro p _
      rw [tree]
  | encodes job output =>
    rw [Renderer.stopped, Prod.mk.injEq] at arrives
    obtain ⟨tree, ended⟩ := arrives
    obtain ⟨begun, idle, order⟩ := tracks
    -- The engine's work and what follows it is one errand, which does the same on both trees.
    have outcome (tree : FileTree) : r.encoded job output tree =
        (r.carrying thumbnail planned request).result tree := by
      rw [Renderer.result_carrying drops, Renderer.outcome_of_order idle order]
    have local' := r.isLocal_carrying thumbnail planned request
    have agree := h.agree
    rw [begun] at agree
    have alike := local'.alike planned scene.site.tree proper properNow
      (agree.mono (Renderer.run_subset_looks planned request))
    rw [outcome] at tree ended
    refine ⟨⟨?_, ?_, ?_, free⟩, ?_, ?_, locks⟩
    · refine .finished _ _ (.inr ?_)
      rw [begun, Renderer.outcome_of_order idle order]
      rfl
    · rw [ended, Renderer.stopped, outcome, begun]
      exact congrArg Phase.finished alike.reply
    · rw [tree, Renderer.stopped, outcome, begun]
      exact local'.agree proper properNow (Renderer.run_subset_looks planned request) agree
    · rw [tree]
      exact local'.proper _ properNow
    · intro p spared
      rw [tree]
      exact local'.kept _ properNow p (by rwa [alike.changes])

end Accompanies

namespace Batch

theorem own_concat (i ticket : Ticket) (past : List (Ticket × Task.Move)) (move : Task.Move) :
    own i (past ++ [(ticket, move)]) = own i past ++ if ticket = i then [move] else [] := by
  rw [own, own, List.filterMap_append]
  congr 1
  by_cases same : ticket = i <;> simp [same]

/-- The moves of the only task are all moves. -/
theorem own_single (moves : List Task.Move) : own 0 (moves.map (0, ·)) = moves := by
  simp [own, List.filterMap_map]

variable {r : Renderer} {thumbnail : String → Option Path} {planned : FileTree}
  {requests : List RenderRequest} {batch next : Batch} {past : List (Ticket × Task.Move)}
  {ticket : Ticket} {move : Task.Move}

/-- A batch each of whose tasks has gone along with its request's render by itself. -/
structure OnTrack (r : Renderer) (thumbnail : String → Option Path) (planned : FileTree)
    (requests : List RenderRequest) (past : List (Ticket × Task.Move)) (batch : Batch) : Prop where
  length : batch.tasks.length = requests.length
  proper : batch.site.tree.IsProper
  each : ∀ (i : Nat) (task : Task) (request : RenderRequest), batch.tasks[i]? = some task →
    requests[i]? = some request →
      Accompanies r thumbnail planned request (r.loneAfter planned request (own i past)) batch.site
        task.phase

theorem onTrack_ofRequests {site : Site} (proper : site.tree.IsProper)
    (idle : site.locks.current = []) :
    (ofRequests site requests).OnTrack r thumbnail site.tree requests [] := by
  refine ⟨List.length_map _, proper, ?_⟩
  intro i task request here there
  rw [ofRequests, List.getElem?_map, there] at here
  cases here
  refine ⟨.arriving, rfl, fun _ _ => rfl, fun _ destination _ _ => ?_⟩
  change site.locks.find? destination = none
  rw [LockTable.find?, idle]
  rfl

theorem OnTrack.stuck (h : batch.OnTrack r thumbnail planned requests past)
    (stuck : batch.step? r ticket move = none) :
    batch.OnTrack r thumbnail planned requests (past ++ [(ticket, move)]) := by
  refine ⟨h.length, h.proper, fun i task request here there => ?_⟩
  have along := h.each i task request here there
  rw [own_concat]
  split
  next same =>
    subst same
    simp only [step?, here, Option.bind_some, Option.map_eq_none_iff, Renderer.step?] at stuck
    rw [Renderer.loneAfter_concat, along.lone_eq ⟨batch.site, task.events, task.log⟩ stuck]
    exact along
  next => rwa [List.append_nil]

/-- Every move leaves all tasks on their tracks. -/
theorem OnTrack.step? (h : batch.OnTrack r thumbnail planned requests past)
    (drops : r.invalidator.Drops thumbnail) (apart : r.Apart thumbnail planned requests)
    (step : batch.step? r ticket move = some next) :
    next.OnTrack r thumbnail planned requests (past ++ [(ticket, move)]) := by
  obtain ⟨task, scene, phase, found, proceeded, rfl⟩ := exists_of_step? step
  have below : ticket < requests.length := by
    rw [← h.length]
    exact (List.getElem?_eq_some_iff.mp found).1
  have asked : requests[ticket]? = some requests[ticket] := List.getElem?_eq_getElem below
  obtain ⟨along, respects⟩ := (h.each ticket task _ found asked).of_proceed?
    ⟨batch.site, task.events, task.log⟩ drops apart.proper h.proper proceeded
  refine ⟨?_, respects.proper, fun i other request here there => ?_⟩
  · rw [List.length_set]
    exact h.length
  · rw [own_concat]
    -- The mover has gone along; for any other task the move was elsewhere.
    rcases eq_or_getElem?_of_set here with ⟨rfl, rfl⟩ | ⟨ne, here⟩
    · cases asked.symm.trans there
      rw [if_pos rfl, Renderer.loneAfter_concat]
      exact along
    · rw [if_neg ne, List.append_nil]
      refine (h.each i other request here there).of_elsewhere (fun p looked => ?_) ?_
      · exact respects.elsewhere p fun changed =>
          Set.disjoint_left.mp (apart.disjoint asked there ne) changed looked
      · intro destination timeline plan free
        exact respects.locks destination (apart.destination_ne asked there ne plan) free

theorem onTrack_after {site : Site} (drops : r.invalidator.Drops thumbnail)
    (idle : site.locks.current = []) (apart : r.Apart thumbnail site.tree requests)
    (schedule : List (Ticket × Task.Move)) :
    ((ofRequests site requests).after r schedule).OnTrack r thumbnail site.tree requests
      schedule := by
  induction schedule using List.reverseRecOn with
  | nil => exact onTrack_ofRequests apart.proper idle
  | append_singleton past turn ih =>
    obtain ⟨ticket, move⟩ := turn
    rw [after_append, after_cons]
    cases step : ((ofRequests site requests).after r past).step? r ticket move with
    | none => exact ih.stuck step
    | some next => exact ih.step? drops apart step

end Batch

namespace Accompanies

variable {r : Renderer} {thumbnail : String → Option Path} {planned : FileTree}
  {request : RenderRequest} {lone : FileTree × Phase} {site : Site} {task : Task}

/-- A task and its request's render by itself have the same answer. -/
theorem answer?_eq (h : Accompanies r thumbnail planned request lone site task.phase) :
    task.answer? = Task.answer? ⟨lone.2, [], []⟩ := by
  rw [← h.phase_eq]
  obtain ⟨phase, events, log⟩ := task
  cases phase <;> rfl

/-- A task that has no answer can make a move. -/
theorem exists_step? (h : Accompanies r thumbnail planned request lone site task.phase)
    (unanswered : task.answer? = none) (ticket : Ticket) :
    ∃ move, (r.step? ticket move site task).isSome = true := by
  obtain ⟨move, possible⟩ := h.tracks.exists_stop? (fun answer answers => by
    have given := (Task.answer?_eq_some ⟨lone.2, [], []⟩ answer).mpr answers
    rw [← h.answer?_eq, unanswered] at given
    cases given) (r.plan lone.1)
  rw [h.stop?_eq, ← r.isSome_proceed? ticket move ⟨site, task.events, task.log⟩ _ h.rank_ne]
    at possible
  exact ⟨move, by rw [Renderer.step?, Option.isSome_map]; exact possible⟩

end Accompanies

namespace Renderer

/-- Requests that keep out of each other's way are rendered as each would be alone. Whatever the
order is of all moves of their tasks, and whatever probes and engine come to, a task has the answer
that it would have with its own moves alone, and at its destination stands what would stand there;
and a task that has no answer can go on. -/
theorem isolated_after (r : Renderer) (thumbnail : String → Option Path)
    (requests : List RenderRequest) (site : Site) (schedule : List (Ticket × Task.Move)) (i : Nat)
    (request : RenderRequest) (drops : r.invalidator.Drops thumbnail)
    (idle : site.locks.current = []) (apart : r.Apart thumbnail site.tree requests)
    (here : requests[i]? = some request) :
    let together := (Batch.ofRequests site requests).after r schedule
    let alone := (Batch.ofRequests site [request]).after r ((Batch.own i schedule).map (0, ·))
    ∃ task lone, together.tasks[i]? = some task ∧ alone.tasks = [lone] ∧
      task.answer? = lone.answer? ∧
      (∀ destination timeline ending, r.plan site.tree request = .ok (destination, timeline) →
        together.site.tree.find ending destination = alone.site.tree.find ending destination) ∧
      (task.answer?.isSome = true ∨ ∃ move, (together.step? r i move).isSome = true) := by
  intro together alone
  have onTrack := Batch.onTrack_after drops idle apart schedule
  -- The run alone is a run of a batch as well, with nobody to keep apart from. So both runs go
  -- along with the same render by itself.
  have single : r.Apart thumbnail site.tree [request] :=
    ⟨apart.proper, List.pairwise_singleton .., List.pairwise_singleton ..⟩
  have onTrack' := Batch.onTrack_after drops idle single ((Batch.own i schedule).map (0, ·))
  obtain ⟨task, found⟩ : ∃ task, together.tasks[i]? = some task := by
    refine ⟨_, List.getElem?_eq_getElem ?_⟩
    rw [onTrack.length]
    exact (List.getElem?_eq_some_iff.mp here).1
  obtain ⟨lone, only⟩ := List.length_eq_one_iff.mp onTrack'.length
  have along := onTrack.each i task request found here
  have along' := onTrack'.each 0 lone request (by rw [only]; rfl) rfl
  rw [Batch.own_single] at along'
  refine ⟨task, lone, found, only, along.answer?_eq.trans along'.answer?_eq.symm, ?_, ?_⟩
  · intro destination timeline ending plan
    have reached := along.tracks.tree_eq
    rw [find_of_agree along.agree reached plan, find_of_agree along'.agree reached plan]
  · cases answered : task.answer? with
    | some answer => exact .inl rfl
    | none =>
      obtain ⟨move, possible⟩ := along.exists_step? answered i
      refine .inr ⟨move, ?_⟩
      rw [Batch.step?, found, Option.bind_some, Option.isSome_map]
      exact possible

theorem paths_sample (engine : Engine) (tree : FileTree) (name temp : String)
    (named : Path.IsName name) (planned : (sample engine).plan tree (.sample name) =
      .ok (.absolute ["gallery", name], .sample))
    (beside : (sample engine).storage.tempPath (.absolute ["gallery", name]) =
      .ok (.absolute ["gallery", temp])) :
    (sample engine).written (fun _ => none) tree (.sample name) =
        [.absolute ["gallery", name], .absolute ["gallery", temp]] ∧
      (sample engine).paths (fun _ => none) tree (.sample name) =
        [.absolute ["gallery", name], .absolute ["gallery", temp], .absolute ["gallery", name],
          .absolute ["gallery", "a.mp4"], .absolute ["gallery", "a.mp4"],
          .absolute ["gallery", "a.mp4"]] := by
  have sources : ((sample engine).sources .sample).map Path.ofString =
      [.absolute ["gallery", "a.mp4"], .absolute ["gallery", "a.mp4"]] := by
    -- The engine has no part in it, and a given one can be evaluated.
    change ((sample (.scripted ⟨[], [], none⟩)).sources .sample).map Path.ofString = _
    decide +kernel
  have listed : (sample engine).written (fun _ => none) tree (.sample name) =
      [.absolute ["gallery", name], .absolute ["gallery", temp]] := by
    rw [written, planned]
    dsimp only
    rw [beside]
    rfl
  have read : Path.ofString name = ⟨"", [name]⟩ := named.ofString_eq
  have names : (sample engine).named (.sample name) =
      [.absolute ["gallery", name], .absolute ["gallery", "a.mp4"]] := by
    have texts : Timeline.overlapping.sourcePaths = ["a.mp4"] := by decide
    have read' : Path.ofString "a.mp4" = ⟨"", ["a.mp4"]⟩ := by decide
    change (name :: Timeline.overlapping.sourcePaths).map (fun text =>
      Path.join ⟨"/", ["gallery"]⟩ (Path.ofString text)) = _
    rw [texts, List.map_cons, List.map_cons, read, read']
    rfl
  refine ⟨listed, ?_⟩
  rw [paths, listed, names, planned]
  dsimp only
  rw [sources]
  rfl

theorem apart_sample (engine : Engine) :
    (sample engine).plan .sample (.sample "b.mp4") =
        .ok (.absolute ["gallery", "b.mp4"], .sample) ∧
      (sample engine).Apart (fun _ => none) .sample [.sample "out.mp4", .sample "b.mp4"] := by
  have linkless : FileTree.sample.IsLinkless := by decide
  have planned : (sample engine).plan .sample (.sample "out.mp4") =
      .ok (.absolute ["gallery", "out.mp4"], .sample) := plan_old _
  have planned' : (sample engine).plan .sample (.sample "b.mp4") =
      .ok (.absolute ["gallery", "b.mp4"], .sample) :=
    plan_sample _ _ "b.mp4" linkless (by decide) none (by decide) nofun
  have beside : (sample engine).storage.tempPath (.absolute ["gallery", "out.mp4"]) =
      .ok (.absolute ["gallery", "out.rendering.mp4"]) := by
    change Storage.tempPath ⟨.absolute ["gallery"], ".rendering"⟩ _ = _
    decide +kernel
  have beside' : (sample engine).storage.tempPath (.absolute ["gallery", "b.mp4"]) =
      .ok (.absolute ["gallery", "b.rendering.mp4"]) := by
    change Storage.tempPath ⟨.absolute ["gallery"], ".rendering"⟩ _ = _
    decide +kernel
  obtain ⟨written, paths⟩ := paths_sample _ _ "out.mp4" "out.rendering.mp4" (by decide)
    planned beside
  obtain ⟨written', paths'⟩ := paths_sample _ _ "b.mp4" "b.rendering.mp4" (by decide)
    planned' beside'
  refine ⟨planned', apart_of_spares (fun _ _ => rfl)
    (FileTree.sample.isProper_of_entries (by decide)) linkless ?_ ?_⟩
  -- All paths are listed, so what is asked of them is evaluated for each.
  · have plain (path : Path) (named : path.root = "/" ∧ ∀ n ∈ path.names, Path.IsName n) :
        path.IsPlain := ⟨named.1, named.2⟩
    intro request member
    rcases List.mem_pair.mp member with rfl | rfl
    · refine ⟨rfl, fun path listed => plain path ?_, ?_⟩
      · rw [paths] at listed
        revert path
        decide
      · rw [written]
        decide
    · refine ⟨rfl, fun path listed => plain path ?_, ?_⟩
      · rw [paths'] at listed
        revert path
        decide
      · rw [written']
        decide
  · rw [List.pairwise_pair, Spares, Spares, written, written', paths, paths']
    decide

/-- Two renders side by side, both of which are answered as they would be alone. -/
theorem isolated_after_sample :
    let r := sample (.scripted ⟨[.write "new"], [], none⟩)
    let site : Site := ⟨.sample, .empty, .empty⟩
    let requests : List RenderRequest := [.sample "out.mp4", .sample "b.mp4"]
    ∃ schedule task answer,
      let together := (Batch.ofRequests site requests).after r schedule
      let alone := (Batch.ofRequests site [.sample "b.mp4"]).after r
        ((Batch.own 1 schedule).map (0, ·))
      together.tasks[1]? = some task ∧ task.answer? = some answer ∧
        alone.tasks.map Task.answer? = [some answer] ∧
        together.site.tree.find .kept (.absolute ["gallery", "b.mp4"]) =
          alone.site.tree.find .kept (.absolute ["gallery", "b.mp4"]) := by
  intro r site requests
  obtain ⟨planned, apart⟩ := apart_sample (.scripted ⟨[.write "new"], [], none⟩)
  obtain ⟨schedule, ends⟩ := Batch.exists_after_both r site (.sample "out.mp4") (.sample "b.mp4")
  obtain ⟨⟨answer, answered, _⟩, _⟩ := r.settle_outcome (.sample "b.mp4") site.tree 1 site
    (.ofRequest (.sample "b.mp4")) rfl rfl fun _ _ _ _ => rfl
  obtain ⟨task, lone, found, only, same, left, _⟩ := r.isolated_after (fun _ => none) requests site
    schedule 1 (.sample "b.mp4") (fun _ _ => rfl) rfl apart rfl
  -- The schedule runs the second request first, and to its answer.
  have here : task = (r.settle 1 site (.ofRequest (.sample "b.mp4"))).2 := by
    change ((Batch.ofRequests site [.sample "out.mp4", .sample "b.mp4"]).after r
      schedule).tasks[1]? = some task at found
    rw [ends] at found
    exact (Option.some.inj found).symm
  rw [← here] at answered
  refine ⟨schedule, task, answer, found, answered, ?_, left _ _ .kept planned⟩
  rw [only, List.map_singleton, ← same, answered]

/-- Two requests for different destinations can both be answered, the second one first. Where it
leaves the files alone, the first comes to what it would alone. -/
theorem exists_after_both_answered (r : Renderer) (site : Site) (first second : RenderRequest)
    (idle : site.locks.current = [])
    (unchanged : (r.outcome site.tree second site.tree).1 = site.tree)
    (foreign : ∀ destination timeline timeline',
      r.plan site.tree first = .ok (destination, timeline) →
        r.plan site.tree second ≠ .ok (destination, timeline')) :
    ∃ schedule,
      (∀ task ∈ ((Batch.ofRequests site [first, second]).after r schedule).tasks,
        task.answer?.isSome) ∧
      ((Batch.ofRequests site [first, second]).after r schedule).site.tree =
        (r.outcome site.tree first site.tree).1 := by
  have free (destination : Path) : site.locks.find? destination = none := by
    rw [LockTable.find?, idle]
    rfl
  obtain ⟨schedule, ends⟩ := Batch.exists_after_both r site first second
  obtain ⟨⟨answer', answered', outcome'⟩, unlocked⟩ := r.settle_outcome second site.tree 1 site
    (.ofRequest second) rfl rfl fun _ destination _ _ => free destination
  -- So the first request finds the files as they were, and its destination's lock free.
  have between : (r.settle 1 site (.ofRequest second)).1.tree = site.tree := by
    rw [← unchanged]
    exact congrArg Prod.fst outcome'
  obtain ⟨⟨answer, answered, outcome⟩, _⟩ := r.settle_outcome first site.tree 0
    (r.settle 1 site (.ofRequest second)).1 (.ofRequest first) between rfl
    fun _ destination timeline plan => unlocked destination
      (fun timeline' => foreign destination timeline timeline' plan) (free destination)
  refine ⟨schedule, ?_, ?_⟩
  · rw [ends]
    intro task member
    rcases List.mem_pair.mp member with rfl | rfl
    · rw [answered]
      rfl
    · rw [answered']
      rfl
  · rw [ends]
    exact congrArg Prod.fst outcome

/-- A render that fails deletes the file that stands at its temporary path, though it is another
render's destination. -/
theorem not_isolated_beside :
    let r := sample (.scripted ⟨[], [], some (.foreign .runtime "RuntimeError" "lost")⟩)
    let site : Site := ⟨FileTree.sample.set ["gallery", "out.rendering.mp4"] (.file "kept"),
      .empty, .empty⟩
    let requests : List RenderRequest := [.sample "out.mp4", .sample "out.rendering.mp4"]
    r.plan site.tree (.sample "out.mp4") = .ok (.absolute ["gallery", "out.mp4"], .sample) ∧
      r.plan site.tree (.sample "out.rendering.mp4") =
        .ok (.absolute ["gallery", "out.rendering.mp4"], .sample) ∧
      (∀ source ∈ r.sources .sample, source = "/gallery/a.mp4") ∧
      (r.render (.sample "out.rendering.mp4") site).1.tree.find .kept
          (.absolute ["gallery", "out.rendering.mp4"]) =
        .ok (["gallery", "out.rendering.mp4"], some (.file "kept")) ∧
      ∃ schedule,
        (∀ task ∈ ((Batch.ofRequests site requests).after r schedule).tasks,
          task.answer?.isSome) ∧
        ((Batch.ofRequests site requests).after r schedule).site.tree.find .kept
            (.absolute ["gallery", "out.rendering.mp4"]) =
          .ok (["gallery", "out.rendering.mp4"], none) := by
  intro r site requests
  have linkless : site.tree.IsLinkless := by decide
  have planned : r.plan site.tree (.sample "out.mp4") =
      .ok (.absolute ["gallery", "out.mp4"], .sample) :=
    plan_sample _ _ "out.mp4" linkless (by decide) (some (.file "old")) (by decide) nofun
  have planned' : r.plan site.tree (.sample "out.rendering.mp4") =
      .ok (.absolute ["gallery", "out.rendering.mp4"], .sample) :=
    plan_sample _ _ "out.rendering.mp4" linkless (by decide) (some (.file "kept"))
      (by decide) nofun
  obtain ⟨job, order⟩ := order_sample _ _ "out.mp4"
    (.absolute ["gallery", "out.rendering.mp4"]) planned (by decide +kernel)
  obtain ⟨job', order'⟩ := order_sample _ _ "out.rendering.mp4"
    (.absolute ["gallery", "out.rendering.rendering.mp4"]) planned' (by decide +kernel)
  have resolved := resolved_sample site.tree linkless
  -- The second render discards a temporary file that is not there, the first one the second one's
  -- destination.
  have kept : (r.encoded job' (.absolute ["gallery", "out.rendering.rendering.mp4"])
      site.tree).1 = site.tree :=
    Storage.discard_of_absent site.tree (.absolute ["gallery", "out.rendering.rendering.mp4"])
      (resolved _ (by decide)).held (by decide)
  have lost : (r.encoded job (.absolute ["gallery", "out.rendering.mp4"]) site.tree).1 =
      site.tree.erase ["gallery", "out.rendering.mp4"] :=
    Storage.discard_of_file site.tree (.absolute ["gallery", "out.rendering.mp4"]) "kept"
      (resolved _ (by decide)).held (by decide)
  refine ⟨planned, planned', ?_, ?_, ?_⟩
  · change ∀ source ∈ (sample (.scripted ⟨[], [], none⟩)).sources .sample, _
    decide +kernel
  · rw [(r.render_of_order _ site rfl rfl order').1, kept,
      (resolved _ (by decide)).find_eq]
    decide
  · obtain ⟨schedule, answered, after⟩ := exists_after_both_answered r site
      (.sample "out.mp4") (.sample "out.rendering.mp4") rfl
      (by rw [outcome_of_order rfl order', kept]) (by
        intro destination timeline timeline' plan plan'
        cases planned.symm.trans plan
        exact absurd (planned'.symm.trans plan') (by simp [Path.absolute]))
    rw [outcome_of_order rfl order, lost] at after
    have clear : (site.tree.erase ["gallery", "out.rendering.mp4"]).Resolved
        (.absolute ["gallery", "out.rendering.mp4"]) :=
      (Edited.erase site.tree (.absolute ["gallery", "out.rendering.mp4"])
        (by decide)).links.resolved (resolved "out.rendering.mp4" (by decide))
    refine ⟨schedule, answered, ?_⟩
    rw [after, clear.find_eq]
    decide

end Renderer

end Montage
