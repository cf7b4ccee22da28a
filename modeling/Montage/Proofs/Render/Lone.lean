import Montage.Proofs.Render.Destination

/-!
# A render by itself

Where the moves of a render lead when it waits for nobody can be told from the tree and the phase
alone. Until the engine's work is done the tree is the one that the request was planned on, and
what the engine is to do is what the request's order says, whatever the order was in which the
probes ran.
-/
namespace Montage

/-- The tree and the phase of a render that waits for nobody after a move; as before if the move
cannot happen. -/
def Renderer.lone (r : Renderer) (state : FileTree × Phase) (move : Task.Move) : FileTree × Phase :=
  ((r.stop? move (r.plan state.1) state.2).map (r.stopped state.1)).getD state

/-- A request's render by itself, after a list of moves. -/
def Renderer.loneAfter (r : Renderer) (tree : FileTree) (request : RenderRequest)
    (moves : List Task.Move) : FileTree × Phase :=
  moves.foldl r.lone (tree, .arriving request)

theorem Renderer.loneAfter_concat (r : Renderer) (tree : FileTree) (request : RenderRequest)
    (moves : List Task.Move) (move : Task.Move) :
    r.loneAfter tree request (moves ++ [move]) = r.lone (r.loneAfter tree request moves) move :=
  List.foldl_concat ..

/-- What holds of the tree and the phase of a request's render by itself. -/
inductive Tracks (r : Renderer) (planned : FileTree) (request : RenderRequest) :
    FileTree → Phase → Prop
  | arriving : Tracks r planned request planned (.arriving request)
  | probing (destination : Path) (timeline : Timeline Binary64) (survey : Survey)
    (idle : r.check .idle = none) (plan : r.plan planned request = .ok (destination, timeline))
    (probing : r.check .probing = none)
    (follows : survey.Follows (r.sources timeline) r.settings.probeMaxWorkers)
    (serves : survey.Serves r.prober (r.sources timeline)) :
    Tracks r planned request planned (.probing destination timeline survey)
  | encoding (job : Job) (lock : Nat) (output : Path) (turns : Nat) (idle : r.check .idle = none)
    (order : r.order planned request = .ok (job, output)) :
    Tracks r planned request planned (.encoding job lock output turns)
  | trailing (answer : Except Failure RenderResult) (survey : Survey) :
    Tracks r planned request planned (.trailing answer survey)
  | finished (tree : FileTree) (answer : Except Failure RenderResult)
    (left : tree = planned ∨ tree = (r.outcome planned request planned).1) :
    Tracks r planned request tree (.finished answer)

/-- A stop of a request's render by itself. -/
def Stop.Tracks (r : Renderer) (planned : FileTree) (request : RenderRequest) (tree : FileTree) :
    Stop → Prop
  | .stands phase => Montage.Tracks r planned request tree phase
  | .encodes job output =>
    tree = planned ∧ r.check .idle = none ∧ r.order planned request = .ok (job, output)

variable {r : Renderer} {planned : FileTree} {request : RenderRequest}

namespace Tracks

variable {tree : FileTree} {phase : Phase}

theorem tree_eq (h : Tracks r planned request tree phase) :
    tree = planned ∨ tree = (r.outcome planned request planned).1 := by
  cases h with
  | finished _ answer left => exact left
  | _ => exact .inl rfl

theorem of_answers {answer : Except Failure RenderResult} (h : phase.Answers answer) :
    Tracks r planned request planned phase := by
  cases phase with
  | trailing given survey => exact .trailing given survey
  | finished given => exact .finished planned given (.inl rfl)
  | _ => exact absurd h not_false

/-- Nobody waits who is by himself. -/
theorem rank_ne (h : Tracks r planned request tree phase) : phase.rank ≠ 3 := by
  cases h <;> exact nofun

/-- The destination that a render may ask for a lock is the one that its request has. -/
theorem exists_plan (h : Tracks r planned request tree phase) {now : FileTree}
    (same : tree = planned → r.plan now request = r.plan planned request) {destination : Path}
    (wanted : phase.Wants (r.plan now) destination) :
    ∃ timeline, r.plan planned request = .ok (destination, timeline) := by
  -- Only the first turn reads the tree, and nothing has been written by then.
  cases h with
  | arriving =>
    obtain ⟨timeline, plan⟩ := wanted
    exact ⟨timeline, same rfl ▸ plan⟩
  | probing destination' timeline survey idle plan probing follows serves =>
    obtain rfl : destination' = destination := wanted
    exact ⟨timeline, plan⟩
  | encoding job lock output turns idle order =>
    obtain rfl : job.destination = destination := wanted
    obtain ⟨timeline, _, plan, _⟩ := Renderer.order_ok planned request job output order
    exact ⟨timeline, plan⟩
  | trailing answer survey => exact absurd wanted not_false
  | finished _ answer left => exact absurd wanted not_false

/-- A render is planned only when it arrives. -/
theorem stop?_congr (h : Tracks r planned request tree phase) (move : Task.Move) {now : FileTree}
    (same : tree = planned → r.plan now request = r.plan planned request) :
    r.stop? move (r.plan now) phase = r.stop? move (r.plan tree) phase := by
  cases h with
  | arriving =>
    cases move with
    | resume => rw [Renderer.stop?, Renderer.stop?, same rfl]
    | probe event => rw [Renderer.stop?, Renderer.stop?]
  | _ => simp only [Renderer.stop?]

/-- A render that has no answer can make a move. -/
theorem exists_stop? (h : Tracks r planned request tree phase)
    (unanswered : ∀ answer, ¬phase.Answers answer)
    (plan : RenderRequest → Except Failure (Path × Timeline Binary64)) :
    ∃ move, (r.stop? move plan phase).isSome = true := by
  cases h with
  | arriving => exact ⟨.resume, rfl⟩
  | probing destination timeline survey idle _ probing follows serves =>
    -- A survey that is still undecided has a probe that can start or land.
    by_cases decided : survey.isDecided = true
    · exact ⟨.resume, by rw [Renderer.stop?, if_pos decided]; rfl⟩
    · have unfinished : survey.remaining ≠ 0 := fun finished =>
        decided (by rw [Survey.isDecided, finished]; exact Bool.or_true _)
      obtain ⟨event, next, step⟩ : ∃ event next, survey.step? r.prober event = some next :=
        follows.exists_step? unfinished
      exact ⟨.probe event, by rw [Renderer.stop?, step]; rfl⟩
  | encoding job lock output turns idle order => exact ⟨.resume, by cases turns <;> rfl⟩
  | trailing answer survey => exact absurd rfl (unanswered answer)
  | finished _ answer left => exact absurd rfl (unanswered answer)

end Tracks

namespace Renderer

/-- Where an order is carried out that is the request's, if it is one. -/
theorem Executes.tracks {made : Except Failure (Job × Path)} {stop : Stop}
    (h : r.Executes made stop) (idle : r.check .idle = none)
    (own : ∀ order, made = .ok order → r.order planned request = .ok order) :
    stop.Tracks r planned request planned := by
  cases made with
  | error e =>
    cases stop with
    | stands phase => exact Tracks.of_answers h
    | encodes job output => exact absurd h not_false
  | ok made =>
    obtain ⟨job, output⟩ := made
    -- A stop that waits for the engine or calls it has taken over the order as it was made.
    have order := own (job, output) rfl
    cases stop with
    | stands phase =>
      cases phase with
      | encoding job' lock output' turns =>
        obtain ⟨rfl, rfl⟩ := h
        exact .encoding job' lock output' turns idle order
      | _ => exact absurd h not_false
    | encodes job' output' =>
      obtain ⟨rfl, rfl⟩ := h
      exact ⟨rfl, idle, order⟩

theorem tracks_finishProbing {destination : Path} {timeline : Timeline Binary64} {survey : Survey}
    (idle : r.check .idle = none) (plan : r.plan planned request = .ok (destination, timeline))
    (probing : r.check .probing = none)
    (follows : survey.Follows (r.sources timeline) r.settings.probeMaxWorkers)
    (serves : survey.Serves r.prober (r.sources timeline)) (decided : survey.isDecided = true) :
    (r.finishProbingStop destination timeline survey).Tracks r planned request planned := by
  refine (executes_finishProbingStop destination timeline survey).tracks idle fun made ordered => ?_
  cases found : survey.cache with
  | error e =>
    rw [found] at ordered
    cases ordered
  | ok cache =>
    -- A survey that has found something has found the same as any other one.
    have surveyed : r.surveyed timeline = .ok cache := follows.cache_settled serves decided found
    rwa [order_of_plan plan probing, surveyed, ← found]

theorem tracks_arrive :
    (r.arriveStop (r.plan planned request)).Tracks r planned request planned := by
  rw [arriveStop.eq_def]
  cases idle : r.check .idle with
  | some e => exact .finished planned _ (.inl rfl)
  | none =>
    dsimp only
    cases plan : r.plan planned request with
    | error e => exact .finished planned _ (.inl rfl)
    | ok found =>
      obtain ⟨destination, timeline⟩ := found
      dsimp only
      cases probing : r.check .probing with
      | some e => exact .finished planned _ (.inl rfl)
      | none =>
        have follows := Survey.follows_ofPaths (r.sources timeline) r.settings.probeMaxWorkers
        have serves : (Survey.ofPaths (r.sources timeline) r.settings.probeMaxWorkers).Serves
            r.prober (r.sources timeline) := Survey.serves_ofPaths ..
        dsimp only [startProbingStop]
        split
        -- Without sources the survey is over before it begins.
        next empty =>
          refine tracks_finishProbing idle plan probing follows serves ?_
          rw [Survey.isDecided, Survey.remaining, List.isEmpty_iff.mp empty]
          rfl
        next => exact .probing destination timeline _ idle plan probing follows serves

/-- Wherever its moves lead, the render of a request by itself stays on its track. -/
theorem tracks_of_stop? {tree : FileTree} {phase : Phase} {move : Task.Move} {stop : Stop}
    (h : Tracks r planned request tree phase)
    (stops : r.stop? move (r.plan tree) phase = some stop) :
    stop.Tracks r planned request tree := by
  cases h with
  | arriving =>
    cases move with
    | resume =>
      cases stops
      exact tracks_arrive
    | probe event => cases stops
  | probing destination timeline survey idle plan probing follows serves =>
    cases move with
    | resume =>
      rw [stop?] at stops
      split at stops
      next decided =>
        cases stops
        exact tracks_finishProbing idle plan probing follows serves decided
      next => cases stops
    | probe event =>
      obtain ⟨next, step, rfl⟩ := Option.map_eq_some_iff.mp stops
      exact .probing destination timeline next idle plan probing (follows.step? step)
        (serves.step? step)
  -- The engine's turns pass without a change, and after the last one its work is done at once.
  | encoding job lock output turns idle order =>
    cases move with
    | resume =>
      cases turns with
      | zero =>
        cases stops
        exact ⟨rfl, idle, order⟩
      | succ turns =>
        cases stops
        exact .encoding job 0 output turns idle order
    | probe event => cases turns <;> cases stops
  | trailing answer survey =>
    cases move with
    | resume => cases stops
    | probe event =>
      obtain ⟨next, step, rfl⟩ := Option.map_eq_some_iff.mp stops
      exact .trailing answer next
  | finished _ answer left => cases stops

end Renderer

end Montage
