import Montage.Document.Rejection
import Montage.Render.Batch
import Montage.Text.Encoding

/-!
# The render service

Two routes answer requests: one says that the service is healthy, the other renders the posted
request and answers with the result when the file is in place or the render has failed. The
status of a failed render is that of its error code. One line break at the end of a route's path
does not count; a path with slashes at its end is redirected to the one without.
-/
namespace Montage

structure HttpRequest where
  method : String
  path : String
  body : String

structure HttpResponse where
  status : Nat
  body : Json

namespace HttpResponse

def detail (status : Nat) (text : String) : HttpResponse :=
  ⟨status, .obj [("detail", .text text)]⟩

/-- The answer to a body that is not a valid request. -/
def invalid (problems : List Document.Problem) : HttpResponse :=
  ⟨422, .arr (problems.map fun p => (p.under (.key "body")).toDocument)⟩

/-- The status of a result: 200 for a written file, else what its error code says. -/
def statusOf (result : RenderResult) : Nat :=
  if result.success then 200
  else (ErrorSpec.ofCode (result.errorCode.getD ErrorKind.general.code)).httpStatus

/-- The answer with a result, or why the result cannot be sent. -/
def ofResult (result : RenderResult) : Except AnswerError HttpResponse :=
  match result.texts.findSome? (Text.encodeError? Text.Letter.isChar) with
  | some error => .error (.unserializable error)
  | none => .ok ⟨statusOf result, result.toDocument⟩

/-- The answer when a failure left the render without a result, or its result cannot be sent. -/
def crash : HttpResponse :=
  ⟨500, .obj [("success", .bool false), ("error", .text "Internal server error"),
    ("error_code", .text ErrorKind.general.code)]⟩

/-- What is sent when a render has come to its answer, and the failure that no result reports. -/
def ofAnswer : Except Failure RenderResult → HttpResponse × Option Failure
  | .ok result =>
    match ofResult result with
    | .ok response => (response, none)
    | .error e => (crash, some (.answer e))
  | .error e => (crash, some e)

end HttpResponse

/-- Why a body has no request in it. -/
inductive BodyError where
  | invalid (problems : List Document.Problem)
  /-- A body that cannot be read although its notation has no fault. -/
  | unreadable
  /-- A body whose refusal cannot be told, since the full answer repeats what it refuses. -/
  | unanswerable (error : AnswerError)

namespace BodyError

def response : BodyError → HttpResponse
  | invalid problems => .invalid problems
  | unreadable => .detail 400 "There was an error parsing the body"
  | unanswerable _ => .crash

/-- The failure that leaves the answer unwritten. -/
def escaped? : BodyError → Option Failure
  | unanswerable error => some (.answer error)
  | _ => none

end BodyError

/-- The text of a body: a body that is not in bytes is decoded, and a byte order mark dropped. -/
def bodyText? (body : String) : Option String :=
  let bytes := body.toUTF8.toList
  match Text.Encoding.guess bytes, body.toList with
  | .bytes, '\ufeff' :: rest => some (String.ofList rest)
  | .bytes, _ => some body
  | encoding, _ => (Text.decode? encoding bytes).map String.ofList

/-- The JSON document in a body. -/
def documentOfBody (body : String) : Except BodyError Json :=
  match bodyText? body with
  | none => .error .unreadable
  | some text =>
    match Json.read text with
    | .ok document => .ok document
    | .error ⟨.integerTooLong _, _⟩ => .error .unreadable
    | .error ⟨.tooDeep _, _⟩ => .error .unreadable
    | .error e => .error (.invalid [⟨[.index e.position], .document⟩])

/-- The error for a document with problems. The full answer repeats what they are about. -/
def BodyError.ofProblems (document : Json) (problems : List Document.Problem) : BodyError :=
  let subjects := problems.map (·.subject document)
  if !subjects.all Json.isWritable then .unanswerable .unwritable
  else if !subjects.all Json.isEncodable then .unanswerable .unencodable
  else .invalid problems

/-- The render request in a body. -/
def RenderRequest.ofBody (body : String) : Except BodyError RenderRequest :=
  if body.isEmpty then .error (.invalid [⟨[], .presence⟩])
  else do
    let document ← documentOfBody body
    match fromDocument .body document with
    | .valid request => .ok request
    | .invalid problems => .error (.ofProblems document problems)

/-- An answered request: the shared site afterwards, the render that it started if it did, and a
failure that no result reports. -/
structure Exchange where
  site : Site
  response : HttpResponse
  task : Option Task
  escaped : Option Failure

structure Service where
  version : String
  renderer : Renderer

namespace Service

/-- The method that the path of a request allows; none for an unknown path. -/
def allowed? (path : String) : Option String :=
  if path = "/health" || path = "/health\n" then some "GET"
  else if path = "/api/render" || path = "/api/render\n" then some "POST"
  else none

/-- A path without the slashes at its end. -/
def withoutSlashes (path : String) : String :=
  String.ofList (path.toList.reverse.dropWhile (· = '/')).reverse

/-- The answer to a request for an unknown path. -/
def elsewhere (path : String) : HttpResponse :=
  if (allowed? (withoutSlashes path)).isSome then ⟨307, .null⟩ else .detail 404 "Not Found"

def health (s : Service) : HttpResponse :=
  ⟨200, .obj [("status", .text "healthy"), ("version", .text s.version)]⟩

/-- The answer to a posted render request. -/
def render (s : Service) (body : String) (site : Site) : Exchange :=
  match RenderRequest.ofBody body with
  | .error e => ⟨site, e.response, none, e.escaped?⟩
  | .ok request =>
    let (site, task) := s.renderer.render request site
    match task.answer? with
    | some answer =>
      let (response, escaped) := HttpResponse.ofAnswer answer
      ⟨site, response, some task, escaped⟩
    | none => ⟨site, .crash, some task, none⟩

def respond (s : Service) (request : HttpRequest) (site : Site) : Exchange :=
  match allowed? request.path with
  | none => ⟨site, elsewhere request.path, none, none⟩
  | some method =>
    if request.method ≠ method then ⟨site, .detail 405 "Method Not Allowed", none, none⟩
    else if method = "GET" then ⟨site, s.health, none, none⟩
    else s.render request.body site

end Service

end Montage
