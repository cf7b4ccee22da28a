import Montage.Proofs.Render.Course

/-!
# The account of a render

An account is what a render tells its observer, what it does, and what it answers, when the
observer may fail as well as all others. Of a failure of the observer there is a negative result,
unless it is told of the beginning or of an end of the render: then the failure is the answer. Like
a course, an account takes all replies as given, and a running task keeps to the account of the
replies that it gets.
-/
namespace Montage

/-- What a reply is about. -/
inductive Replies.Kind where
  | destination
  | resolved
  | survey
  | shown
  | output
  | engine
  | replaced
  | discarded
  | relative
deriving DecidableEq

/-- Replies that fail only with certain failures, of each kind its own. -/
structure Replies.FailBy (F : Replies.Kind → Failure → Prop) (replies : Replies) : Prop where
  destination : ∀ e, replies.destination = .error e → F .destination e
  resolved : ∀ path e, replies.resolved path = .error e → F .resolved e
  survey : ∀ e, replies.survey = .error e → F .survey e
  shown : ∀ path e, replies.shown path = .error e → F .shown e
  output : ∀ e, replies.output = .error e → F .output e
  engine : ∀ e, replies.engine = some e → F .engine e
  replaced : ∀ e, replies.replaced = some e → F .replaced e
  discarded : ∀ e, replies.discarded = some e → F .discarded e
  relative : ∀ e, replies.relative = .error e → F .relative e

/-- What a render has told and done when it ends, and its answer: a result, or a failure of the
observer that no result reports. -/
structure Account where
  events : List Event
  answer : Except Failure RenderResult

namespace Account

def after (events : List Event) (a : Account) : Account := ⟨events ++ a.events, a.answer⟩

theorem after_after (first second : List Event) (a : Account) :
    (a.after second).after first = a.after (first ++ second) := by
  rw [after, after, after, List.append_assoc]

section

variable (observer : Option Observer)

/-- What the observer is told of a state, if there is one. -/
def told (state : RenderState) : List Event :=
  match observer with
  | none => []
  | some _ => [.entered state]

/-- The failure of the observer when it is told of a state. -/
def check (state : RenderState) : Option Failure := observer.bind fun observe => observe state

/-- The end with a result, of which the observer is told. -/
def ended (state : RenderState) (result : RenderResult) : Account :=
  ⟨told observer state,
    match check observer state with
    | none => .ok result
    | some e => .error e⟩

def failed (e : Failure) : Account := ended observer .failed e.result

/-- A state entered on the way: what follows, unless the observer fails. -/
def entered (state : RenderState) (stopped : Failure → Account) (next : Account) : Account :=
  (match check observer state with
    | none => next
    | some e => stopped e).after (told observer state)

variable (replies : Replies)

def announced (warnings : List String) : Account :=
  match replies.relative with
  | .error e => failed observer e
  | .ok path => (ended observer .done (.succeeded path warnings)).after [.invalidated path]

/-- The end after a failure beside a temporary file. A failure to discard that file takes the
place of the one before. -/
def abandoned (e : Failure) : Account := failed observer (replies.discarded.getD e)

def finalized (job : Job) : Account :=
  entered observer .finalizing (abandoned observer replies)
    (match replies.replaced with
      | some e => abandoned observer replies e
      | none => (announced observer replies job.warnings).after [.replaced job.destination])

def encoded (job : Job) : Account :=
  match replies.engine with
  | some e => abandoned observer replies e
  | none => finalized observer replies job

def rendered (job : Job) : Account :=
  entered observer .rendering (failed observer)
    (match replies.output with
      | .error e => failed observer e
      | .ok output => (encoded observer replies job).after [.called (Renderer.call job output)])

def compiled (options : CompileOptions Binary64) (destination : Path)
    (timeline : Timeline Binary64) (cache : SourceCache) (warnings : List String) : Account :=
  entered observer .compiling (failed observer)
    (match (compileTimeline timeline cache options).graph with
      | .error e => failed observer (e.failure options.minClipDuration)
      | .ok graph => rendered observer replies ⟨destination, warnings, graph⟩)

def probed (options : CompileOptions Binary64) (destination : Path)
    (timeline : Timeline Binary64) : Account :=
  match replies.survey with
  | .error e => failed observer e
  | .ok cache =>
    match Course.probeWarnings replies cache with
    | .error e => failed observer e
    | .ok warnings => compiled observer replies options destination timeline cache warnings

/-- The account of a request's render. -/
def ofRequest (options : CompileOptions Binary64) (request : RenderRequest) : Account :=
  entered observer .idle (⟨[], .error ·⟩)
    (match Course.planned replies request with
      | .error e => failed observer e
      | .ok (destination, timeline) =>
        entered observer .probing (failed observer)
          (probed observer replies options destination timeline))

end

end Account

/-- What is still to come of a task's account, by what it will be replied. -/
def Phase.account (observer : Option Observer) (options : CompileOptions Binary64)
    (replies : Replies) : Phase → Account
  | .arriving request => .ofRequest observer replies options request
  | .probing destination timeline _ => .probed observer replies options destination timeline
  | .queued job _ => .rendered observer replies job
  | .encoding job _ _ _ => .encoded observer replies job
  | .trailing answer _ => ⟨[], answer⟩
  | .finished answer => ⟨[], answer⟩

/-- A renderer whose collaborators fail only with certain failures. Of them, the storage shows every
path that it has resolved. -/
structure Renderer.FailsBy (r : Renderer) (F : Replies.Kind → Failure → Prop) : Prop where
  destination : ∀ tree path newName e,
    r.storage.destination tree path newName = .error e → F .destination e.failure
  resolved : ∀ tree path shown e,
    r.storage.resolve tree path shown = .error e → F .resolved e.failure
  survey : ∀ path e, (r.prober.inspect path).finding = .error e → F .survey e
  output : ∀ destination e, r.storage.tempPath destination = .error e → F .output (.file e)
  engine : ∀ job output tree e, (r.produced job output tree).failure = some e → F .engine e
  replaced : ∀ tree temp destination moved e,
    Storage.replace tree temp destination = (moved, .error e) → F .replaced e.failure
  discarded : ∀ tree output e,
    (Storage.discard tree output).result = .error e → F .discarded (.file e)

/-- A way from a scene to another one on an account: what is told and done on the way is the first
of it, and the rest follows. -/
def Leads (F : Replies.Kind → Failure → Prop) (r : Renderer) (scene : Scene)
    (rest : Replies → Account) (next : Scene × Phase) : Prop :=
  ∃ told, next.1.events = scene.events ++ told ∧
    ∀ later : Replies, later.FailBy F → ∃ replies : Replies, replies.FailBy F ∧
      rest replies = (next.2.account r.observer r.compileOptions later).after told

section

variable {F : Replies.Kind → Failure → Prop} {r : Renderer} {scene begun : Scene}
  {next : Scene × Phase} {rest before : Replies → Account}

/-- What is replied on the way is put in for what was open before. -/
theorem Leads.of_replies (h : Leads F r scene rest next) (given : Replies → Replies)
    (lawful : ∀ replies, replies.FailBy F → (given replies).FailBy F)
    (eq : ∀ replies, before (given replies) = rest replies) : Leads F r scene before next := by
  obtain ⟨told, events, onward⟩ := h
  refine ⟨told, events, fun later fail => ?_⟩
  obtain ⟨replies, fail', rest⟩ := onward later fail
  exact ⟨given replies, lawful replies fail', (eq replies).trans rest⟩

/-- What has been told at the beginning is the first of the account. -/
theorem Leads.told (h : Leads F r begun rest next) (events : List Event)
    (begins : begun.events = scene.events ++ events) :
    Leads F r scene (fun replies => (rest replies).after events) next := by
  obtain ⟨told, told_eq, onward⟩ := h
  refine ⟨events ++ told, ?_, fun later fail => ?_⟩
  · rw [told_eq, begins, List.append_assoc]
  · obtain ⟨replies, fail', eq⟩ := onward later fail
    exact ⟨replies, fail', by dsimp only; rw [eq, Account.after_after]⟩

theorem Leads.of_events (h : Leads F r begun rest next) (events : begun.events = scene.events) :
    Leads F r scene rest next := by
  rwa [Leads, events] at h

/-- A step that tells nothing and keeps what is to come. -/
theorem leads_of_account (events : next.1.events = scene.events)
    (rest : ∀ replies, before replies = next.2.account r.observer r.compileOptions replies) :
    Leads F r scene before next :=
  ⟨[], events.trans (List.append_nil _).symm, fun later lawful => ⟨later, lawful, rest later⟩⟩

end

namespace Renderer

variable {F : Replies.Kind → Failure → Prop} {r : Renderer}

theorem tell_eq_told (state : RenderState) (scene : Scene) :
    r.tell state scene = ({ scene with events := scene.events ++ Account.told r.observer state },
      Account.check r.observer state) := by
  unfold tell Account.told Account.check
  cases r.observer with
  | none => rw [List.append_nil]; rfl
  | some observe => rfl

theorem conclude_eq_failed (e : Failure) (scene : Scene) : ∃ told,
    r.conclude e scene = (told, (Account.failed r.observer e).answer) ∧
      told.events = scene.events ++ (Account.failed r.observer e).events := by
  rw [conclude, tell_eq_told, Account.failed, Account.ended]
  cases Account.check r.observer .failed with
  | none => exact ⟨_, rfl, rfl⟩
  | some e => exact ⟨_, rfl, rfl⟩

theorem leads_fail (e : Failure) (scene : Scene) :
    Leads F r scene (fun _ => .failed r.observer e) (r.fail e scene) := by
  obtain ⟨told, concluded, events⟩ := r.conclude_eq_failed e scene
  rw [fail, concluded]
  refine ⟨_, events, fun later lawful => ⟨later, lawful, ?_⟩⟩
  rw [Phase.account, Account.after, List.append_nil]

/-- A state is entered, and the step goes on as the observer lets it. -/
theorem leads_entered {state : RenderState} {scene : Scene} {stopped : Failure → Replies → Account}
    {rest : Replies → Account} {next : Scene × Phase}
    (stops : ∀ told : Scene, told.events = scene.events ++ Account.told r.observer state →
      ∀ e, r.tell state scene = (told, some e) → Leads F r told (stopped e) next)
    (goes : ∀ told : Scene, told.events = scene.events ++ Account.told r.observer state →
      r.tell state scene = (told, none) → Leads F r told rest next) :
    Leads F r scene
      (fun replies => .entered r.observer state (stopped · replies) (rest replies)) next := by
  have told := r.tell_eq_told state scene
  -- The observer alone decides here: the replies are those of the rest.
  cases checked : Account.check r.observer state with
  | none =>
    rw [checked] at told
    refine ((goes _ rfl told).told _ rfl).of_replies id (fun _ h => h) fun replies => ?_
    rw [Account.entered, checked]
    rfl
  | some e =>
    rw [checked] at told
    refine ((stops _ rfl e told).told _ rfl).of_replies id (fun _ h => h) fun replies => ?_
    rw [Account.entered, checked]
    rfl

theorem leads_announce (job : Job) (scene : Scene) :
    Leads F r scene (fun replies => .announced r.observer replies job.warnings)
      (r.announce job scene) := by
  let relative := r.shownPath job.destination
  have given : ∀ replies : Replies, replies.FailBy F →
      ({ replies with relative := .ok relative } : Replies).FailBy F :=
    fun replies h => { h with relative := fun e failed => by cases failed }
  -- Only the log tells whether the thumbnail could be dropped.
  obtain ⟨told, announced, events⟩ : ∃ told : Scene, r.announce job scene =
      (told, .finished (Account.ended r.observer .done (.succeeded relative job.warnings)).answer) ∧
      told.events = scene.events ++ [.invalidated relative] ++ Account.told r.observer .done := by
    simp only [announce, tell_eq_told, Account.ended]
    cases Account.check r.observer .done <;>
      exact ⟨_, rfl, by split <;> rfl⟩
  rw [announced]
  refine ⟨[.invalidated relative] ++ Account.told r.observer .done, ?_, fun later lawful =>
    ⟨{ later with relative := .ok relative }, given later lawful, ?_⟩⟩
  · exact events.trans (List.append_assoc _ _ _)
  · simp only [Account.announced, Phase.account, Account.after, Account.ended, List.append_nil]

theorem leads_abandon (fails : r.FailsBy F) (job : Job) (lock : Nat) (output : Path) (e : Failure)
    (scene : Scene) :
    Leads F r scene (fun replies => .abandoned r.observer replies e)
      (r.abandon job lock output e scene) := by
  simp only [abandon]
  -- The replies are completed with the one of the storage when the output is discarded.
  cases discarded : (Storage.discard scene.site.tree output).result with
  | ok removed =>
    refine ((leads_fail e _).of_events rfl).of_replies ({ · with discarded := none }) ?_ ?_
    · exact fun replies h => { h with discarded := fun e failed => by cases failed }
    · exact fun replies => rfl
  | error error =>
    refine ((leads_fail (.file error) _).of_events rfl).of_replies
      ({ · with discarded := some (.file error) }) ?_ ?_
    · refine fun replies h => { h with discarded := fun e failed => ?_ }
      cases failed
      exact fails.discarded _ _ _ discarded
    · exact fun replies => rfl

theorem leads_finalize (fails : r.FailsBy F) (job : Job) (lock : Nat) (output : Path)
    (scene : Scene) :
    Leads F r scene (fun replies => .finalized r.observer replies job)
      (r.finalize job lock output scene) := by
  refine leads_entered (fun told events e tells => ?_) fun told events tells => ?_
  · rw [finalize, tells]
    exact leads_abandon fails job lock output e told
  · rw [finalize, tells]
    dsimp only
    split
    next tree replaced =>
      -- What `replace` came to on this tree is put into the replies, and the later stages go on.
      refine (((leads_announce job _).told [.replaced job.destination] rfl).of_events
        rfl).of_replies ({ · with replaced := none }) ?_ ?_
      · exact fun replies h => { h with replaced := fun e failed => by cases failed }
      · exact fun replies => rfl
    next tree e replaced =>
      refine ((leads_abandon fails job lock output e.failure _).of_events rfl).of_replies
        ({ · with replaced := some e.failure }) ?_ ?_
      · refine fun replies h => { h with replaced := fun e failed => ?_ }
        cases failed
        exact fails.replaced _ _ _ _ _ replaced
      · exact fun replies => rfl

theorem leads_finishEncoding (fails : r.FailsBy F) (job : Job) (lock : Nat) (output : Path)
    (scene : Scene) :
    Leads F r scene (fun replies => .encoded r.observer replies job)
      (r.finishEncoding job lock output scene) := by
  simp only [finishEncoding]
  -- The replies are completed with the one that the engine gives.
  split
  next e failed =>
    refine ((leads_abandon fails job lock output e _).of_events rfl).of_replies
      ({ · with engine := some e }) ?_ ?_
    · refine fun replies h => { h with engine := fun e failed' => ?_ }
      cases failed'
      exact fails.engine job output scene.site.tree e failed
    · exact fun replies => rfl
  next =>
    refine ((leads_finalize fails job lock output _).of_events rfl).of_replies
      ({ · with engine := none }) ?_ ?_
    · exact fun replies h => { h with engine := fun e failed => by cases failed }
    · exact fun replies => rfl

theorem leads_startEncoding (fails : r.FailsBy F) (job : Job) (lock : Nat) (scene : Scene) :
    Leads F r scene (fun replies => .rendered r.observer replies job)
      (r.startEncoding job lock scene) := by
  refine leads_entered (fun told events e tells => ?_) fun told events tells => ?_
  · rw [startEncoding, tells]
    exact (leads_fail e _).of_events rfl
  rw [startEncoding, tells]
  dsimp only
  cases temp : r.storage.tempPath job.destination with
  | error e =>
    refine ((leads_fail (.file e) _).of_events rfl).of_replies
      ({ · with output := .error (.file e) }) ?_ ?_
    · refine fun replies h => { h with output := fun e failed => ?_ }
      cases failed
      exact fails.output _ _ temp
    · exact fun replies => rfl
  | ok output =>
    have given : ∀ replies : Replies, replies.FailBy F →
        ({ replies with output := .ok output } : Replies).FailBy F :=
      fun replies h => { h with output := fun e failed => by cases failed }
    dsimp only
    cases r.engine.turns (call job output) with
    | zero =>
      exact ((leads_finishEncoding fails job lock output _).told [.called (call job output)]
        rfl).of_replies _ given fun replies => rfl
    | succ turns =>
      -- The engine has been called, and what it replies is still to come.
      refine ⟨[.called (call job output)], rfl, ?_⟩
      exact fun later lawful => ⟨{ later with output := .ok output }, given later lawful, rfl⟩

theorem leads_seekLock (fails : r.FailsBy F) (ticket : Ticket) (job : Job) (scene : Scene) :
    Leads F r scene (fun replies => .rendered r.observer replies job)
      (r.seekLock ticket job scene) := by
  simp only [seekLock]
  split
  · exact leads_of_account rfl fun replies => rfl
  · exact (leads_startEncoding fails job _ _).of_events rfl

theorem leads_compile (fails : r.FailsBy F) (ticket : Ticket) (destination : Path)
    (timeline : Timeline Binary64) (cache : SourceCache) (scene : Scene) :
    Leads F r scene (fun replies =>
      match (compileTimeline timeline cache r.compileOptions).graph with
      | .error e => .failed r.observer (e.failure r.compileOptions.minClipDuration)
      | .ok graph => .rendered r.observer replies ⟨destination, r.probeWarnings cache, graph⟩)
      (r.compile ticket destination timeline cache scene) := by
  simp only [compile]
  cases (compileTimeline timeline cache r.compileOptions).graph with
  | error e => exact (leads_fail _ _).of_events rfl
  | ok graph => exact (leads_seekLock fails ticket _ _).of_events rfl

theorem leads_enter {state : RenderState} {scene : Scene} {rest : Replies → Account}
    {next : Scene → Scene × Phase} (goes : ∀ told : Scene, Leads F r told rest (next told)) :
    Leads F r scene
      (fun replies => .entered r.observer state (.failed r.observer) (rest replies))
      (r.enter state scene next) := by
  refine leads_entered (fun told events e tells => ?_) fun told events tells => ?_
  · rw [enter, tells]
    exact leads_fail e told
  · rw [enter, tells]
    exact goes told

theorem probeWarnings_eq (replies : Replies) (cache : SourceCache)
    (shown : replies.shown = fun path => .ok (r.shownPath (Path.ofString path))) :
    Course.probeWarnings replies cache = .ok (r.probeWarnings cache) := by
  have all (paths : List String) : (paths.mapM fun path =>
      (replies.shown path).map ("Could not probe " ++ ·)) =
        .ok (paths.map fun path => "Could not probe " ++ r.shownPath (Path.ofString path)) := by
    induction paths with
    | nil => rfl
    | cons path rest ih =>
      rw [List.mapM_cons, ih, shown]
      rfl
  rw [Course.probeWarnings, all, Course.unavailable, List.map_filterMap, Renderer.probeWarnings]
  congr 2
  funext entry
  obtain ⟨path, finding⟩ := entry
  cases finding <;> rfl

theorem leads_finishProbing (fails : r.FailsBy F) (ticket : Ticket) (destination : Path)
    (timeline : Timeline Binary64) (survey : Survey) (scene : Scene)
    (serves : survey.Serves r.prober (r.sources timeline)) :
    Leads F r scene
      (fun replies => .probed r.observer replies r.compileOptions destination timeline)
      (r.finishProbing ticket destination timeline survey scene) := by
  simp only [finishProbing]
  cases found : survey.cache with
  | error e =>
    obtain ⟨path, _, failed⟩ := serves.exists_probe found
    obtain ⟨told, concluded, events⟩ := r.conclude_eq_failed e (scene.say survey.warnings)
    dsimp only
    rw [concluded]
    refine ⟨_, events, fun later lawful => ⟨{ later with survey := .error e }, ?_, ?_⟩⟩
    · refine { lawful with survey := fun e failed' => ?_ }
      cases failed'
      exact fails.survey path _ failed
    · simp only [Account.probed, Phase.account, Account.after, List.append_nil]
  | ok cache =>
    dsimp only
    -- The warnings show paths, so how these are shown is part of the reply.
    refine ((leads_enter fun told => leads_compile fails ticket destination timeline cache
      told).of_events rfl).of_replies
        ({ · with survey := .ok cache
                  shown := fun path => .ok (r.shownPath (Path.ofString path)) }) ?_ ?_
    · exact fun replies h =>
        { h with survey := fun e failed => by cases failed
                 shown := fun path e failed => by cases failed }
    · intro replies
      simp only [Account.probed]
      rw [probeWarnings_eq _ cache rfl]
      rfl

theorem leads_probe? {survey : Survey} {event : ProbeEvent} {scene : Scene} {next : Scene × Survey}
    (h : r.probe? survey event scene = some next) {before : Replies → Account} {phase : Phase}
    (rest : ∀ replies, before replies = phase.account r.observer r.compileOptions replies) :
    Leads F r scene before (next.1, phase) := by
  refine leads_of_account ?_ rest
  rw [(step?_of_probe? h).2]
  rfl

theorem leads_startProbing (fails : r.FailsBy F) (ticket : Ticket) (destination : Path)
    (timeline : Timeline Binary64) (scene : Scene) :
    Leads F r scene
      (fun replies => .probed r.observer replies r.compileOptions destination timeline)
      (r.startProbing ticket destination timeline scene) := by
  simp only [startProbing]
  split
  · exact leads_finishProbing fails ticket destination timeline _ scene (Survey.serves_ofPaths _ _)
  · exact leads_of_account rfl fun replies => rfl

/-- The replies of the storage that decide what a request's plan is. -/
theorem planned_eq (r : Renderer) (tree : FileTree) (request : RenderRequest) (replies : Replies)
    (destination : replies.destination =
      (r.storage.destination tree request.destinationPath request.newName).mapError
        StorageError.failure)
    (resolved : replies.resolved = fun path =>
      ((r.storage.resolve tree (Path.ofString path) path).map Path.text).mapError
        StorageError.failure) :
    Course.planned replies request = r.plan tree request := by
  have sources : (request.timeline.sourcePaths.mapM fun path =>
      (replies.resolved path).map fun full => (path, full)) =
        r.resolveSources tree request.timeline := by
    rw [resolveSources, resolved]
    congr 1
    funext path
    dsimp only
    cases r.storage.resolve tree (Path.ofString path) path <;> rfl
  rw [Course.planned, plan, destination, sources]

theorem leads_arrive (fails : r.FailsBy F) (ticket : Ticket) (request : RenderRequest)
    (scene : Scene) :
    Leads F r scene (fun replies => .ofRequest r.observer replies r.compileOptions request)
      (r.arrive ticket request scene) := by
  refine leads_entered (fun told events e tells => ?_) fun told events tells => ?_
  · rw [arrive, tells]
    exact leads_of_account rfl fun replies => rfl
  -- The replies of an account stand for what the storage says about the tree of this moment.
  let answer (replies : Replies) : Replies := { replies with
    destination := (r.storage.destination told.site.tree request.destinationPath
      request.newName).mapError StorageError.failure
    resolved := fun path => ((r.storage.resolve told.site.tree (Path.ofString path) path).map
      Path.text).mapError StorageError.failure }
  have lawful (replies : Replies) (h : replies.FailBy F) : (answer replies).FailBy F := by
    refine { h with destination := fun e failed => ?_, resolved := fun path e failed => ?_ }
    · obtain ⟨error, refused, rfl⟩ := Except.mapError_eq_error_iff.mp failed
      exact fails.destination _ _ _ _ refused
    · obtain ⟨error, refused, rfl⟩ := Except.mapError_eq_error_iff.mp failed
      exact fails.resolved _ _ _ _ (Except.map_eq_error_iff.mp refused)
  have planned (replies : Replies) :
      Course.planned (answer replies) request = r.plan told.site.tree request :=
    planned_eq r told.site.tree request (answer replies) rfl rfl
  rw [arrive, tells]
  dsimp only
  cases plan : r.plan told.site.tree request with
  | error e =>
    refine (leads_fail e _).of_replies answer lawful fun replies => ?_
    rw [planned, plan]
  | ok found =>
    refine (leads_enter fun told =>
      leads_startProbing fails ticket found.1 found.2 told).of_replies answer lawful
        fun replies => ?_
    rw [planned, plan]
    rfl

end Renderer

/-- Whether a phase's survey, if it has one, is a survey of its sources. -/
def Phase.Surveys (r : Renderer) : Phase → Prop
  | .probing _ timeline survey => survey.Serves r.prober (r.sources timeline)
  | _ => True

namespace Renderer

variable {F : Replies.Kind → Failure → Prop} {r : Renderer}

theorem surveys_of_rank {phase : Phase} (late : phase.rank ≤ 3) : phase.Surveys r := by
  cases phase with
  | probing destination timeline survey => exact absurd late (by simp [Phase.rank])
  | _ => trivial

theorem surveys_arrive (r : Renderer) (ticket : Ticket) (request : RenderRequest)
    (scene : Scene) : (r.arrive ticket request scene).2.Surveys r := by
  have failed (e : Failure) (scene : Scene) : (r.fail e scene).2.Surveys r :=
    surveys_of_rank (Nat.zero_le 3)
  simp only [arrive]
  split
  · trivial
  · split
    · exact failed _ _
    · rw [enter]
      split
      · simp only [startProbing]
        split
        · exact surveys_of_rank (r.rank_finishProbing_le ..)
        · exact Survey.serves_ofPaths _ _
      · exact failed _ _

/-- Every step leaves the survey one of the task's sources. -/
theorem surveys_proceed? {ticket : Ticket} {move : Task.Move} {scene : Scene} {phase : Phase}
    {next : Scene × Phase} (h : r.proceed? ticket move scene phase = some next)
    (surveys : phase.Surveys r) : next.2.Surveys r := by
  -- A survey starts when the task arrives. Later on it takes steps, or it is over.
  cases proceeds_of_proceed? h with
  | arrive request => exact r.surveys_arrive ticket request scene
  | finishProbing destination timeline survey decided =>
    exact surveys_of_rank (r.rank_finishProbing_le ticket destination timeline survey scene)
  | probe destination timeline survey event after happens =>
    exact Survey.Serves.step? surveys (step?_of_probe? happens).1
  | startEncoding job lock turn =>
    exact surveys_of_rank (Nat.le_succ_of_le (r.rank_startEncoding_le job lock _))
  | finishEncoding job lock output =>
    exact surveys_of_rank (by rw [rank_finishEncoding]; omega)
  | continueEncoding job lock output turns => trivial
  | trail answer survey event after happens => trivial

/-- Every step of a task goes on along its account. -/
theorem leads_proceed? (fails : r.FailsBy F) {ticket : Ticket} {move : Task.Move} {scene : Scene}
    {phase : Phase} {next : Scene × Phase} (h : r.proceed? ticket move scene phase = some next)
    (surveys : phase.Surveys r) :
    Leads F r scene (fun replies => phase.account r.observer r.compileOptions replies) next := by
  cases proceeds_of_proceed? h with
  | arrive request => exact leads_arrive fails ticket request scene
  | finishProbing destination timeline survey decided =>
    exact leads_finishProbing fails ticket destination timeline survey scene surveys
  | probe destination timeline survey event after happens =>
    exact leads_probe? happens fun replies => rfl
  | startEncoding job lock turn => exact (leads_startEncoding fails job lock _).of_events rfl
  | finishEncoding job lock output => exact leads_finishEncoding fails job lock output scene
  | continueEncoding job lock output turns => exact leads_of_account rfl fun replies => rfl
  | trail answer survey event after happens => exact leads_probe? happens fun replies => rfl

end Renderer

theorem Phase.Answers.eq_or_eq {answer : Except Failure RenderResult} {phase : Phase}
    (h : phase.Answers answer) :
    (∃ survey, phase = .trailing answer survey) ∨ phase = .finished answer := by
  cases phase with
  | trailing given survey => exact .inl ⟨survey, congrArg (Phase.trailing · survey) h⟩
  | finished given => exact .inr (congrArg Phase.finished h)
  | _ => exact absurd h not_false

/-- A task on the account of its request. -/
structure Task.OnAccount (F : Replies.Kind → Failure → Prop) (r : Renderer)
    (request : RenderRequest) (task : Task) : Prop where
  surveys : task.phase.Surveys r
  account : ∀ later : Replies, later.FailBy F → ∃ replies : Replies, replies.FailBy F ∧
    Account.ofRequest r.observer replies r.compileOptions request =
      (task.phase.account r.observer r.compileOptions later).after task.events

/-- A task that keeps to an account: what it has told and done so far is the first of that
account, and an answer is the answer of the whole. -/
structure Task.KeepsTo (task : Task) (a : Account) : Prop where
  begun : task.events <+: a.events
  answered : ∀ answer, task.answer? = some answer → a = ⟨task.events, answer⟩

namespace Task

variable {F : Replies.Kind → Failure → Prop} {r : Renderer} {request : RenderRequest} {task : Task}

theorem onAccount_ofRequest (F : Replies.Kind → Failure → Prop) (r : Renderer)
    (request : RenderRequest) : (Task.ofRequest request).OnAccount F r request :=
  ⟨trivial, fun later lawful => ⟨later, lawful, rfl⟩⟩

theorem OnAccount.proceed? (h : task.OnAccount F r request) (fails : r.FailsBy F)
    {ticket : Ticket} {move : Task.Move} {site : Site} {scene : Scene} {phase : Phase}
    (proceeded : r.proceed? ticket move ⟨site, task.events, task.log⟩ task.phase =
      some (scene, phase)) : Task.OnAccount F r request ⟨phase, scene.events, scene.log⟩ := by
  refine ⟨Renderer.surveys_proceed? proceeded h.surveys, fun later lawful => ?_⟩
  obtain ⟨told, events, onward⟩ := Renderer.leads_proceed? fails proceeded h.surveys
  -- The replies are found backwards: first those of this step, then those that led to it.
  obtain ⟨between, lawful', rest⟩ := onward later lawful
  obtain ⟨replies, lawful'', account⟩ := h.account between lawful'
  refine ⟨replies, lawful'', ?_⟩
  dsimp only at events rest ⊢
  rw [account, rest, events, Account.after_after]

theorem OnAccount.settle (h : task.OnAccount F r request) (fails : r.FailsBy F)
    (ticket : Ticket) (site : Site) : (r.settle ticket site task).2.OnAccount F r request := by
  fun_induction Renderer.settle r ticket site task with
  | case1 site task answered => exact h
  | case2 site task unanswered site' task' step ih =>
    simp only [Renderer.step?, Option.map_eq_some_iff, Prod.exists, Prod.mk.injEq] at step
    obtain ⟨scene, phase, proceeded, rfl, rfl⟩ := step
    exact ih (h.proceed? fails proceeded)
  | case3 site task unanswered stuck => exact h

end Task

/-- Replies without any failure. -/
def Replies.smooth : Replies :=
  ⟨.ok ⟨"", []⟩, .ok, .ok [], .ok, .ok ⟨"", []⟩, none, none, none, .ok ""⟩

theorem Replies.failBy_smooth (F : Replies.Kind → Failure → Prop) : smooth.FailBy F := by
  constructor <;> intros <;> contradiction

theorem Task.OnAccount.keepsTo {F : Replies.Kind → Failure → Prop} {r : Renderer}
    {request : RenderRequest} {task : Task} (h : task.OnAccount F r request) :
    ∃ replies : Replies, replies.FailBy F ∧
      task.KeepsTo (.ofRequest r.observer replies r.compileOptions request) := by
  -- What has not been replied yet may be anything, so it is taken to be without failures.
  obtain ⟨replies, lawful, account⟩ := h.account .smooth (Replies.failBy_smooth F)
  refine ⟨replies, lawful, ?_, ?_⟩
  · rw [account]
    exact List.prefix_append task.events _
  · intro answer answered
    rw [account]
    rcases ((task.answer?_eq_some answer).mp answered).eq_or_eq with ⟨survey, eq⟩ | eq <;>
      rw [eq, Phase.account, Account.after, List.append_nil]

namespace Batch

variable {F : Replies.Kind → Failure → Prop} {r : Renderer}

/-- Every task of a batch stays on the account of its request. -/
theorem onAccount_after (fails : r.FailsBy F) {requests : List RenderRequest}
    (schedule : List (Ticket × Task.Move)) {batch : Batch}
    (h : ∀ (i : Nat) (task : Task) (request : RenderRequest), batch.tasks[i]? = some task →
      requests[i]? = some request → task.OnAccount F r request) :
    ∀ (i : Nat) (task : Task) (request : RenderRequest),
      (batch.after r schedule).tasks[i]? = some task → requests[i]? = some request →
        task.OnAccount F r request := by
  refine after_of_step? (P := fun batch => ∀ (i : Nat) (task : Task) (request : RenderRequest),
    batch.tasks[i]? = some task → requests[i]? = some request → task.OnAccount F r request) ?_
      schedule h
  intro batch next ticket move h step i other request here asked
  obtain ⟨task, scene, phase, found, proceeded, rfl⟩ := exists_of_step? step
  rcases eq_or_getElem?_of_set here with ⟨rfl, rfl⟩ | ⟨_, here⟩
  · exact (h ticket task request found asked).proceed? fails proceeded
  · exact h i other request here asked

/-- Every task of a batch keeps to an account of its request. -/
theorem keepsTo_after (fails : r.FailsBy F) (site : Site) (requests : List RenderRequest)
    (schedule : List (Ticket × Task.Move)) (i : Nat) (task : Task) (request : RenderRequest)
    (here : ((Batch.ofRequests site requests).after r schedule).tasks[i]? = some task)
    (asked : requests[i]? = some request) : ∃ replies : Replies, replies.FailBy F ∧
      task.KeepsTo (.ofRequest r.observer replies r.compileOptions request) := by
  refine (onAccount_after fails schedule ?_ i task request here asked).keepsTo
  intro j task request here asked
  rw [Batch.ofRequests, List.getElem?_map, asked] at here
  cases here
  exact Task.onAccount_ofRequest F r request

end Batch

/-- A render alone comes to an end, and keeps to an account of its request. -/
theorem Renderer.exists_account {F : Replies.Kind → Failure → Prop} {r : Renderer}
    (fails : r.FailsBy F) (request : RenderRequest) (site : Site)
    (idle : site.locks.current = []) : ∃ replies : Replies, replies.FailBy F ∧ ∃ answer,
      (r.render request site).2.answer? = some answer ∧
        Account.ofRequest r.observer replies r.compileOptions request =
          ⟨(r.render request site).2.events, answer⟩ := by
  obtain ⟨answer, answered, _⟩ := r.render_outcome request site idle
  obtain ⟨replies, lawful, keeps⟩ :=
    ((Task.onAccount_ofRequest F r request).settle fails 0 site).keepsTo
  exact ⟨replies, lawful, answer, answered, keeps.answered answer answered⟩

end Montage
