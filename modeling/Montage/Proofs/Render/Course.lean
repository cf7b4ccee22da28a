import Montage.Proofs.Render.Failures
import Montage.Proofs.Render.Schedule
import Montage.Proofs.Timeline.Sources

/-!
# The course of a render

What a render tells its observer, what it does and what it answers follow from what its
collaborators reply, each of which may fail in any way when it is called. A course takes these
replies as given and goes through the render from its first state to its last one; it keeps to one
script, which it may leave only to fail. A running task is on the course of the replies that it
gets, whatever runs beside it.
-/
namespace Montage

/-- What a render is replied by the storage, the prober, the engine and the invalidator. Each is
called once at most for one purpose; a failure of the invalidator makes no difference. -/
structure Replies where
  destination : Except Failure Path
  resolved : String → Except Failure String
  survey : Except Failure SourceCache
  shown : String → Except Failure String
  output : Except Failure Path
  engine : Option Failure
  replaced : Option Failure
  discarded : Option Failure
  relative : Except Failure String

/-- Replies that fail only with what can be raised. -/
structure Replies.AreRaised (replies : Replies) : Prop where
  destination : ∀ e, replies.destination = .error e → e.IsRaised
  resolved : ∀ path e, replies.resolved path = .error e → e.IsRaised
  survey : ∀ e, replies.survey = .error e → e.IsRaised
  shown : ∀ path e, replies.shown path = .error e → e.IsRaised
  output : ∀ e, replies.output = .error e → e.IsRaised
  engine : ∀ e, replies.engine = some e → e.IsRaised
  replaced : ∀ e, replies.replaced = some e → e.IsRaised
  discarded : ∀ e, replies.discarded = some e → e.IsRaised
  relative : ∀ e, replies.relative = .error e → e.IsRaised

/-- What a render has told and done when it returns, and its result. -/
structure Course where
  events : List Event
  result : RenderResult

namespace Event

def call? : Event → Option EncoderCall
  | called call => some call
  | _ => none

end Event

namespace Course

def states (c : Course) : List RenderState := c.events.filterMap Event.state?

def calls (c : Course) : List EncoderCall := c.events.filterMap Event.call?

def after (events : List Event) (c : Course) : Course := ⟨events ++ c.events, c.result⟩

def failed (e : Failure) : Course := ⟨[.entered .failed], e.result⟩

/-! ### From one reply to the next -/

section

variable (replies : Replies)

def announced (warnings : List String) : Course :=
  match replies.relative with
  | .error e => failed e
  | .ok path => ⟨[.invalidated path, .entered .done], .succeeded path warnings⟩

/-- The end after a failure beside a temporary file. A failure to discard that file takes the
place of the one before. -/
def abandoned (e : Failure) : Course :=
  match replies.discarded with
  | none => failed e
  | some e => failed e

def finalized (job : Job) : Course :=
  after [.entered .finalizing] <|
    match replies.replaced with
    | some e => abandoned replies e
    | none => after [.replaced job.destination] (announced replies job.warnings)

def encoded (job : Job) : Course :=
  match replies.engine with
  | some e => abandoned replies e
  | none => finalized replies job

def rendered (job : Job) : Course :=
  after [.entered .rendering] <|
    match replies.output with
    | .error e => failed e
    | .ok output => after [.called (Renderer.call job output)] (encoded replies job)

def compiled (options : CompileOptions Binary64) (destination : Path)
    (timeline : Timeline Binary64) (cache : SourceCache) (warnings : List String) : Course :=
  after [.entered .compiling] <|
    match (compileTimeline timeline cache options).graph with
    | .error e => failed (e.failure options.minClipDuration)
    | .ok graph => rendered replies ⟨destination, warnings, graph⟩

/-- The paths of the sources that could not be probed. -/
def unavailable (cache : SourceCache) : List String :=
  cache.filterMap fun (path, finding) =>
    match finding with
    | .found _ => none
    | .unavailable => some path

def probeWarnings (cache : SourceCache) : Except Failure (List String) :=
  (unavailable cache).mapM fun path => (replies.shown path).map ("Could not probe " ++ ·)

def probed (options : CompileOptions Binary64) (destination : Path)
    (timeline : Timeline Binary64) : Course :=
  match replies.survey with
  | .error e => failed e
  | .ok cache =>
    match probeWarnings replies cache with
    | .error e => failed e
    | .ok warnings => compiled replies options destination timeline cache warnings

def planned (request : RenderRequest) : Except Failure (Path × Timeline Binary64) := do
  let destination ← replies.destination
  let resolved ← request.timeline.sourcePaths.mapM fun path =>
    (replies.resolved path).map fun full => (path, full)
  .ok (destination, request.timeline.mapSources (Renderer.replacement resolved))

/-- The course of a request's render. -/
def ofRequest (options : CompileOptions Binary64) (request : RenderRequest) : Course :=
  after [.entered .idle] <|
    match planned replies request with
    | .error e => failed e
    | .ok (destination, timeline) =>
      after [.entered .probing] (probed replies options destination timeline)

end

/-! ### The script -/

/-- A course that keeps to the rest of a script, up to its end or to a failure. -/
def Follows (path : String) (rest : List Event) (c : Course) : Prop :=
  (∃ n e, n < rest.length ∧ Failure.IsRaised e ∧
    c = ⟨rest.take n ++ [.entered .failed], e.result⟩) ∨
  ∃ warnings, c = ⟨rest ++ [.entered .done], .succeeded path warnings⟩

variable {replies : Replies} {path : String} {rest : List Event} {c : Course} {e : Failure}

theorem Follows.after (h : c.Follows path rest) (event : Event) :
    (c.after [event]).Follows path (event :: rest) := by
  rcases h with ⟨n, e, below, raised, rfl⟩ | ⟨warnings, rfl⟩
  · exact .inl ⟨n + 1, e, Nat.succ_lt_succ below, raised, rfl⟩
  · exact .inr ⟨warnings, rfl⟩

theorem exists_shown {cache : SourceCache} (failed : probeWarnings replies cache = .error e) :
    ∃ path, replies.shown path = .error e := by
  obtain ⟨path, _, shown⟩ := Except.exists_of_mapM_eq_error failed
  exact ⟨path, Except.map_eq_error_iff.mp shown⟩

theorem refused_of_planned {request : RenderRequest}
    (failed : planned replies request = .error e) :
    replies.destination = .error e ∨ ∃ path, replies.resolved path = .error e := by
  rw [planned, Except.bind_eq_error_iff] at failed
  rcases failed with failed | ⟨destination, _, failed⟩
  · exact .inl failed
  · rcases Except.bind_eq_error_iff.mp failed with failed | ⟨resolved, _, failed⟩
    · obtain ⟨path, _, failed⟩ := Except.exists_of_mapM_eq_error failed
      exact .inr ⟨path, Except.map_eq_error_iff.mp failed⟩
    · cases failed

section

variable {call : EncoderCall} {destination : Path} {n : Nat} {last : RenderState}

end

end Course

end Montage
