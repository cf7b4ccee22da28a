import Mathlib.Data.List.TakeWhile
import Montage.Proofs.Media.Tolerance
import Montage.Proofs.Render.Answers
import Montage.Proofs.Render.Renaming
import Montage.Service

/-!
# The status of a result

The table of error codes has a code that does not end a render, and gives it the status of a
success. The library's own collaborators never fail with it, whatever the file system and the tools
do: a probe that fails with it is answered with unknown measures. So the status of an answer tells
a written file, a request to be mended and all other failures apart.
-/
namespace Montage

/-- A failure that has the code of one of certain kinds, if it has a code. -/
def Failure.IsWithin (kinds : List ErrorKind) : Failure → Prop
  | coded error => ∃ kind ∈ kinds, error.code = kind.code
  | _ => True

theorem StorageError.IsOf.isWithin {kinds : List ErrorKind} {e : StorageError} (h : e.IsOf kinds) :
    e.failure.IsWithin kinds := by
  rcases h with ⟨error, rfl⟩ | ⟨kind, member, message, rfl⟩
  · exact trivial
  · exact ⟨kind, member, rfl⟩

/-! ### Statuses -/

/-- The kinds of errors that the sender of a request can mend. -/
def ErrorKind.mendable : List ErrorKind := [.emptyTimeline, .pathOutsideRoot, .invalidDestination]

theorem ErrorKind.code_injective : Function.Injective code := by
  intro kind other
  cases kind <;> cases other <;> simp [code]

theorem ErrorKind.httpStatus_code {kind : ErrorKind} (fatal : kind ≠ .probe) :
    (ErrorSpec.ofCode kind.code).httpStatus = if kind ∈ mendable then 400 else 500 := by
  cases kind with
  | probe => exact absurd rfl fatal
  | _ => decide

/-- A result that cannot be told from a failure of the service itself by its status. -/
def RenderResult.IsInternal (result : RenderResult) : Prop :=
  result.success = false ∧ ∀ kind ∈ ErrorKind.mendable, result.errorCode ≠ some kind.code

/-- A status that is the one a result ought to have. -/
structure RenderResult.IsMapped (result : RenderResult) (status : Nat) : Prop where
  ok : status = 200 ↔ result.success = true
  badRequest : status = 400 ↔ ∃ kind ∈ ErrorKind.mendable, result.errorCode = some kind.code
  internal : status = 500 ↔ result.IsInternal

/-- A result that has its status in the table, and not the code that does not end a render. -/
structure RenderResult.IsListed (result : RenderResult) : Prop where
  mapped : result.IsMapped (HttpResponse.statusOf result)
  fatal : result.errorCode ≠ some ErrorKind.probe.code

theorem RenderResult.isListed_succeeded (path : String) (warnings : List String) :
    (succeeded path warnings).IsListed := by
  refine ⟨?_, by simp [succeeded]⟩
  constructor <;> simp [succeeded, HttpResponse.statusOf, IsInternal]

theorem RenderResult.isListed_failed (message : String) {kind : ErrorKind} (fatal : kind ≠ .probe) :
    (failed message kind.code).IsListed := by
  -- The status and the code are read off the one kind of error that the result reports.
  have status : HttpResponse.statusOf (failed message kind.code) =
      if kind ∈ ErrorKind.mendable then 400 else 500 := ErrorKind.httpStatus_code fatal
  have code (other : ErrorKind) :
      (failed message kind.code).errorCode = some other.code ↔ other = kind := by
    rw [failed, Option.some_inj, ErrorKind.code_injective.eq_iff, eq_comm]
  refine ⟨⟨?_, ?_, ?_⟩, ?_⟩
  · rw [status]
    split <;> simp [failed]
  · simp only [status, code, exists_eq_right]
    split <;> simp [*]
  · simp only [status, IsInternal, ne_eq, code]
    split
    next listed => exact iff_of_false (by decide) fun h => h.2 kind listed rfl
    next unlisted => exact iff_of_true rfl ⟨rfl, fun other listed same => unlisted (same ▸ listed)⟩
  · rw [ne_eq, code]
    exact fatal.symm

theorem Failure.IsWithin.isListed_result {kinds : List ErrorKind} {e : Failure}
    (h : e.IsWithin kinds) (fatal : .probe ∉ kinds) : e.result.IsListed := by
  have other (text : String) : (RenderResult.failed text ErrorKind.general.code).IsListed :=
    RenderResult.isListed_failed text (by decide)
  cases e with
  | coded error =>
    obtain ⟨kind, member, code⟩ := h
    rw [Failure.result, code]
    refine RenderResult.isListed_failed error.message ?_
    rintro rfl
    exact fatal member
  | _ => exact other _

/-! ### Sending a result -/

/-- A result without lone surrogates in its texts. -/
def RenderResult.IsEncodable (result : RenderResult) : Prop :=
  ∀ text ∈ result.texts, Text.isEncodable text = true

theorem Text.encodeError?_isChar_eq_none_iff (text : String) :
    encodeError? Letter.isChar text = none ↔ isEncodable text = true := by
  rw [isEncodable, List.all_eq_true, ← List.dropWhile_eq_nil_iff]
  unfold encodeError?
  dsimp only
  cases left : (letters text).dropWhile Letter.isChar with
  | nil => exact iff_of_true rfl rfl
  | cons first rest =>
    cases first with
    | surrogate unit => exact iff_of_false nofun nofun
    | char c =>
      have head := List.dropWhile_get_zero_not (p := Letter.isChar) (letters text) (by simp [left])
      simp [left, Letter.isChar] at head

theorem RenderResult.isEncodable_iff (result : RenderResult) : result.IsEncodable ↔
    result.texts.findSome? (Text.encodeError? Text.Letter.isChar) = none := by
  rw [List.findSome?_eq_none_iff]
  exact forall₂_congr fun text _ => (Text.encodeError?_isChar_eq_none_iff text).symm

/-- How a result is answered: its own status is sent with it unless it has a text that cannot be
encoded. Then the answer is that of a failed service, and its status is the result's own only if
that one is the same. -/
structure RenderResult.IsAnswered (result : RenderResult) (sent : HttpResponse × Option Failure) :
    Prop where
  fatal : result.errorCode ≠ some ErrorKind.probe.code
  mapped : result.IsEncodable → result.IsMapped sent.1.status
  body : result.IsEncodable → sent.1.body = result.toDocument ∧ sent.2 = none
  lost : ¬result.IsEncodable → sent.1 = .crash ∧ ∃ e, sent.2 = some (.answer (.unserializable e))
  mapped_iff : result.IsMapped sent.1.status ↔ result.IsEncodable ∨ result.IsInternal

theorem HttpResponse.ofAnswer_of_isEncodable {result : RenderResult} (h : result.IsEncodable) :
    ofAnswer (.ok result) = (⟨statusOf result, result.toDocument⟩, none) := by
  rw [ofAnswer, ofResult, result.isEncodable_iff.mp h]

theorem HttpResponse.exists_ofAnswer {result : RenderResult} (h : ¬result.IsEncodable) :
    ∃ e, ofAnswer (.ok result) = (crash, some (.answer (.unserializable e))) := by
  rw [result.isEncodable_iff, ← Ne, Option.ne_none_iff_exists'] at h
  obtain ⟨e, found⟩ := h
  exact ⟨e, by rw [ofAnswer, ofResult, found]⟩

theorem RenderResult.IsListed.isAnswered {result : RenderResult} (h : result.IsListed) :
    result.IsAnswered (HttpResponse.ofAnswer (.ok result)) := by
  by_cases encodable : result.IsEncodable
  · rw [HttpResponse.ofAnswer_of_isEncodable encodable]
    exact ⟨h.fatal, fun _ => h.mapped, fun _ => ⟨rfl, rfl⟩, absurd encodable,
      iff_of_true h.mapped (.inl encodable)⟩
  · obtain ⟨e, sent⟩ := HttpResponse.exists_ofAnswer encodable
    rw [sent]
    refine ⟨h.fatal, (absurd · encodable), (absurd · encodable), fun _ => ⟨rfl, e, rfl⟩, ?_⟩
    -- What is sent has the status of an internal failure, so the result has to be one.
    constructor
    · exact fun mapped => .inr (mapped.internal.mp rfl)
    · rintro (other | internal)
      · exact absurd other encodable
      · have mapped := h.mapped
        rwa [mapped.internal.mpr internal] at mapped

/-! ### What the library's own collaborators fail with -/

/-- The kinds of render errors that a reply may fail with. -/
def Replies.Kind.errors : Replies.Kind → List ErrorKind
  | .destination => [.pathOutsideRoot, .invalidDestination]
  | .resolved => [.pathOutsideRoot]
  | .engine => [.engine]
  | .replaced => [.finalize]
  | .survey | .shown | .output | .discarded | .relative => []

/-- The failures of the library's own collaborators: of every kind of reply certain render errors,
and any failure without a code. -/
def Replies.own (kind : Replies.Kind) (e : Failure) : Prop := e.IsWithin kind.errors

theorem ProbeRun.isWithin_summary {run : ProbeRun} {path : String} {e : Failure}
    (starts : ∀ error, run ≠ .notStarted (.coded error)) (failed : run.summary path = .error e)
    (fatal : e.isTolerated = false) : e.IsWithin [] := by
  -- Every refusal of the tool is one that a survey awaits.
  have tolerated (awaited : e.isTolerated = true) : e.IsWithin [] :=
    absurd (awaited.symm.trans fatal) (by decide)
  cases run with
  | timedOut =>
    cases failed
    exact tolerated (isTolerated_refuse _)
  | notStarted cause =>
    rw [summary] at failed
    split at failed
    · cases failed
      exact tolerated (isTolerated_refuse _)
    · cases failed
      cases e with
      | coded error => exact absurd rfl (starts error)
      | _ => exact trivial
  | exited returncode report diagnostic =>
    rw [summary] at failed
    split at failed
    · cases failed
      exact tolerated (isTolerated_refuse _)
    · rcases Except.bind_eq_error_iff.mp failed with failed | ⟨value, _, failed⟩
      · exact tolerated (readReport_tolerated failed)
      · obtain ⟨error, _, rfl⟩ := Except.mapError_eq_error_iff.mp failed
        exact trivial

/-- The render errors of a probe are tolerated, so they do not end a survey. -/
theorem Prober.isWithin_ofRuns {run : String → ProbeRun} {path : String} {e : Failure}
    (starts : ∀ path error, run path ≠ .notStarted (.coded error))
    (failed : ((ofRuns run).inspect path).finding = .error e) : e.IsWithin [] := by
  rw [inspect, ofRuns] at failed
  -- A summary fails only where it is logged. A failed run ends the survey when it is a fatal one.
  cases probed : (run path).summary path with
  | ok summary =>
    simp only [probed, Except.map] at failed
    obtain ⟨error, _, rfl⟩ := Except.mapError_eq_error_iff.mp failed
    exact trivial
  | error failure =>
    simp only [probed, Except.map] at failed
    split at failed
    · cases failed
    next fatal =>
      cases failed
      exact ProbeRun.isWithin_summary (starts path) probed (Bool.eq_false_iff.mpr fatal)

theorem EncoderRun.isWithin_production {run : EncoderRun} {e : Failure}
    (starts : ∀ error, run ≠ .notStarted (.coded error))
    (failed : run.production.failure = some e) : e.IsWithin [.engine] := by
  have engine (diagnostic : String) (returncode : Option Int) :
      (Failure.coded (.ofEngine diagnostic returncode)).IsWithin [.engine] :=
    ⟨.engine, List.mem_singleton_self _, rfl⟩
  -- Bad exits and missing programs are the engine's errors, and other causes have no code.
  cases run with
  | exited actions returncode diagnostic =>
    rw [production] at failed
    split at failed
    · cases failed
    · cases failed
      exact engine _ _
  | notStarted cause =>
    obtain rfl := Option.some.inj failed
    rw [startFailure]
    split
    · exact engine _ _
    · cases cause with
      | coded error => exact absurd rfl (starts error)
      | _ => exact trivial

theorem Engine.isWithin_ofRuns {s : Settings} {turns : Nat} {run : List String → EncoderRun}
    (starts : ∀ command error, run command ≠ .notStarted (.coded error)) (call : EncoderCall)
    (contents : List (Option String)) (tree : FileTree) (output : Path) {e : Failure}
    (failed : (((ofRuns s turns run).produce call contents).perform tree output).failure =
      some e) : e.IsWithin [.engine] := by
  rw [Production.perform] at failed
  split at failed
  · cases failed
    exact trivial
  · simp only [ofRuns] at failed
    split at failed
    · cases failed
      exact trivial
    next command _ => exact EncoderRun.isWithin_production (starts command) failed

theorem CompileError.isWithin (minimum : Binary64) (e : CompileError) :
    (e.failure minimum).IsWithin [.emptyTimeline] := by
  cases e with
  | emptyTimeline => exact ⟨.emptyTimeline, List.mem_singleton_self _, rfl⟩
  | geometry error => exact trivial

/-- The renderer of the service, made of the library's own collaborators. Nobody observes it. -/
def Renderer.standard (storage : Storage) (settings : Settings) (cache : ThumbnailCache)
    (probe : String → ProbeRun) (turns : Nat) (encode : List String → EncoderRun) : Renderer where
  storage := storage
  settings := settings
  prober := .ofRuns probe
  engine := .ofRuns settings turns encode
  invalidator := cache.invalidator
  observer := none

theorem Renderer.failsBy_own (storage : Storage) (settings : Settings) (cache : ThumbnailCache)
    {probe : String → ProbeRun} (turns : Nat) {encode : List String → EncoderRun}
    (probes : ∀ path error, probe path ≠ .notStarted (.coded error))
    (encodes : ∀ command error, encode command ≠ .notStarted (.coded error)) :
    (standard storage settings cache probe turns encode).FailsBy Replies.own where
  destination _ _ _ _ failed := (Storage.isOf_destination _ _ failed).isWithin
  resolved _ _ _ _ failed := (Storage.isOf_resolve _ _ failed).isWithin
  survey _ _ failed := Prober.isWithin_ofRuns probes failed
  output _ _ _ := trivial
  engine _ _ _ _ failed := Engine.isWithin_ofRuns encodes _ _ _ _ failed
  replaced _ _ _ _ _ failed := (Storage.isOf_replace _ failed).isWithin
  discarded _ _ _ _ := trivial

/-- An account without an observer is answered with a result that has its status. -/
theorem Account.Answers.exists_isListed {observer : Option Observer}
    {options : CompileOptions Binary64} {a : Account} (h : a.Answers Replies.own observer options)
    (silent : observer = none) : ∃ result, a.answer = .ok result ∧ result.IsListed := by
  subst silent
  obtain ⟨result, returned⟩ := h.returns fun _ _ => rfl
  refine ⟨result, returned, ?_⟩
  rcases h.reported result returned with ⟨path, warnings, rfl⟩ | ⟨e, reason, rfl⟩
  · exact RenderResult.isListed_succeeded path warnings
  · cases reason with
    | @replied kind _ fails => exact fails.isListed_result (by cases kind <;> decide)
    | observed _ fails => cases fails
    | compiled fails =>
      exact (CompileError.isWithin options.minClipDuration _).isListed_result (by decide)

theorem Service.respond_posted {s : Service} {body : String} {site : Site}
    {request : RenderRequest} {answer : Except Failure RenderResult}
    (valid : RenderRequest.ofBody body = .ok request)
    (answered : (s.renderer.render request site).2.answer? = some answer) :
    s.respond ⟨"POST", "/api/render", body⟩ site =
      ⟨(s.renderer.render request site).1, (HttpResponse.ofAnswer answer).1,
        some (s.renderer.render request site).2, (HttpResponse.ofAnswer answer).2⟩ := by
  simp [respond, allowed?, render, valid, answered]

/-- A valid request is always answered with a result, and no result has the code of a failed probe.
The status of the answer is 200 exactly for a written file, 400 exactly for an error that the sender
can mend, and 500 for every other failure, unless the result has a lone surrogate in one of its
texts. Such a result cannot be sent: its status is always 500, and the failure escapes. So it is
whatever the probe tool and the encoder come to, and whatever the file system replies; and so it is
of every render among others. -/
theorem Service.status_of_posted (version : String) (storage : Storage) (settings : Settings)
    (cache : ThumbnailCache) (probe : String → ProbeRun) (turns : Nat)
    (encode : List String → EncoderRun)
    (probes : ∀ path error, probe path ≠ .notStarted (.coded error))
    (encodes : ∀ command error, encode command ≠ .notStarted (.coded error)) :
    let r := Renderer.standard storage settings cache probe turns encode
    (∀ (body : String) (request : RenderRequest) (site : Site),
      RenderRequest.ofBody body = .ok request → site.locks.current = [] →
        ∃ result task exchange,
          (Service.mk version r).respond ⟨"POST", "/api/render", body⟩ site = exchange ∧
            exchange.task = some task ∧ task.answer? = some (.ok result) ∧
              result.IsAnswered (exchange.response, exchange.escaped)) ∧
      (∀ (site : Site) (requests : List RenderRequest) (schedule : List (Ticket × Task.Move))
        (i : Nat) (task : Task) (request : RenderRequest) (answer : Except Failure RenderResult),
        ((Batch.ofRequests site requests).after r schedule).tasks[i]? = some task →
          requests[i]? = some request → task.answer? = some answer →
            ∃ result, answer = .ok result ∧ result.IsAnswered (HttpResponse.ofAnswer answer)) ∧
      ∀ (options : CompileOptions Binary64) (replies : Replies) (request : RenderRequest),
        replies.FailBy Replies.own →
          ∃ result, (Account.ofRequest none replies options request).answer = .ok result ∧
            result.IsAnswered (HttpResponse.ofAnswer (.ok result)) := by
  intro r
  have fails : r.FailsBy Replies.own :=
    Renderer.failsBy_own storage settings cache turns probes encodes
  -- The renderer has no observer, so whatever fails has become a result, and one that is listed.
  refine ⟨?_, ?_, ?_⟩
  · intro body request site valid idle
    obtain ⟨answer, answered, answers⟩ := Renderer.exists_answers fails request site idle
    obtain ⟨result, rfl, listed⟩ := answers.exists_isListed rfl
    exact ⟨result, (r.render request site).2, _, respond_posted valid answered, rfl, answered,
      listed.isAnswered⟩
  · intro site requests schedule i task request answer here asked answered
    obtain ⟨result, rfl, listed⟩ := (Batch.answers_after fails site requests schedule i task
      request answer here asked answered).exists_isListed rfl
    exact ⟨result, rfl, listed.isAnswered⟩
  · intro options replies request lawful
    obtain ⟨result, answered, listed⟩ :=
      (Account.answers_ofRequest lawful options request).exists_isListed rfl
    exact ⟨result, answered, listed.isAnswered⟩

/-- The renderer of the service on the sample gallery, where no tool can be started. -/
def Renderer.toolless : Renderer :=
  let missing : Failure := .foreign .io "FileNotFoundError" "No such file or directory"
  .standard .sample .standard (.ofRoot Storage.sample.root ".thumbs")
    (fun _ => .notStarted missing) 1 fun _ => .notStarted missing

/-- A posted timeline without tracks is answered with a result, though no tool can be started. -/
theorem Service.status_of_posted_sample :
    let body := "\x7b\"timeline\": \x7b\x7d, \"destinationPath\": \"out.mp4\"\x7d"
    ∃ result task exchange,
      (Service.mk "1.0" .toolless).respond ⟨"POST", "/api/render", body⟩
          ⟨.sample, .empty, .empty⟩ = exchange ∧ exchange.task = some task ∧
        task.answer? = some (.ok result) ∧
        result.IsAnswered (exchange.response, exchange.escaped) := by
  intro body
  have valid : (RenderRequest.ofBody body).isOk = true := by decide +kernel
  cases read : RenderRequest.ofBody body with
  | error e =>
    rw [read] at valid
    cases valid
  | ok request =>
    exact (status_of_posted "1.0" _ _ _ _ 1 _ (by simp) (by simp)).1 body
      request ⟨.sample, .empty, .empty⟩ read rfl

/-- A path out of the sample gallery to a file whose name begins with a lone surrogate. -/
def loneName : String := "../" ++ Text.ofLetters [.surrogate ⟨0x480, by decide⟩] ++ ".mp4"

theorem Storage.destination_lone : sample.destination .sample loneName none =
    .error (.refused (.say .pathOutsideRoot ("Access denied: " ++ loneName))) := by
  have linkless : FileTree.sample.IsLinkless := by decide
  have free (p : Position) := linkless.linkAt?_eq_none p
  let name := Text.ofLetters [.surrogate ⟨0x480, by decide⟩] ++ ".mp4"
  have followed : FileTree.sample.follow [] [] ["gallery", "..", name] [] = .resolved [name] := by
    rw [FileTree.follow_cons_free _ _ _ "gallery" _ _ (by decide) (by decide)
      (by decide) (free _), FileTree.follow, if_neg (by decide), if_pos rfl,
      FileTree.follow_cons_free _ _ _ name _ _ (by decide) (by decide)
      (by decide) (free _), FileTree.follow]
    rfl
  have led : FileTree.sample.resolve (.absolute ["gallery", "..", name]) = .ok (.absolute [name]) :=
    (FileTree.sample.resolve_eq_ok_iff ..).mpr (.inl ⟨_, followed, rfl⟩)
  have joined : sample.root.join (Path.ofString loneName) = .absolute ["gallery", "..", name] := by
    decide
  -- What the name leads to is outside of the root, so that the message repeats the name as it is.
  have outside : (Path.absolute [name]).isUnder sample.root = false := by decide
  rw [destination_none, fileDestination, Storage.resolve, joined, led]
  simp only [Except.mapError, bind, Except.bind, outside]
  rfl

/-- A destination out of the gallery is an error that the sender can mend. But where its name has a
lone surrogate the result cannot be sent, and the answer has the status of a failed service. -/
theorem Service.not_status_of_posted :
    let body := "\x7b\"timeline\": \x7b\x7d, \"destinationPath\": \"../\\udc80.mp4\"\x7d"
    let exchange := (Service.mk "1.0" .toolless).respond ⟨"POST", "/api/render", body⟩
      ⟨.sample, .empty, .empty⟩
    ∃ task result, exchange.task = some task ∧ task.answer? = some (.ok result) ∧
      result.errorCode = some ErrorKind.pathOutsideRoot.code ∧
        exchange.response.status = 500 := by
  intro body exchange
  let r : Renderer := .toolless
  have read : (RenderRequest.ofBody body).toOption.map
      (fun request => (request.destinationPath, request.newName)) = some (loneName, none) := by
    decide +kernel
  cases valid : RenderRequest.ofBody body with
  | error e =>
    rw [valid] at read
    cases read
  | ok request =>
    rw [valid, Except.toOption, Option.map_some, Option.some.injEq, Prod.mk.injEq] at read
    let site : Site := ⟨.sample, .empty, .empty⟩
    let failure : Failure := .coded (.say .pathOutsideRoot ("Access denied: " ++ loneName))
    -- The request is refused with a message that repeats the name, surrogate and all.
    have order : r.order .sample request = .error failure := by
      rw [Renderer.order, Renderer.plan, read.1, read.2,
        show r.storage = .sample from rfl, Storage.destination_lone]
      rfl
    obtain ⟨answer, answered, outcome⟩ := r.render_outcome request site rfl
    have answer_eq : answer = .ok failure.result := by
      rw [Renderer.outcome, show r.check .idle = none from rfl, show site.tree = .sample from rfl,
        order] at outcome
      exact congrArg Prod.snd outcome
    have lone : ¬failure.result.IsEncodable := by
      rw [RenderResult.isEncodable_iff]
      decide
    obtain ⟨_, crashed⟩ := HttpResponse.exists_ofAnswer lone
    rw [answer_eq] at answered
    have sent : exchange = _ := respond_posted valid answered
    rw [crashed] at sent
    exact ⟨_, failure.result, congrArg Exchange.task sent, answered, rfl,
      congrArg (fun done => done.response.status) sent⟩

end Montage
