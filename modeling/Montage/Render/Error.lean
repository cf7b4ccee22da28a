/-!
# Render errors

Every way in which a render is known to fail has a code. One table says of each code whether it
ends the render, which HTTP status it has, and what the sender of a request can do about it.
-/
namespace Montage

structure ErrorSpec where
  fatal : Bool
  httpStatus : Nat
  suggestedFix : Option String
deriving DecidableEq

namespace ErrorSpec

def internal : ErrorSpec := ⟨true, 500, none⟩

def table : List (String × ErrorSpec) := [
  ("EMPTY_TIMELINE",
    ⟨true, 400, some "Add at least one clip longer than the minimum clip duration"⟩),
  ("PATH_OUTSIDE_ROOT", ⟨true, 400, some "Use paths relative to the gallery root"⟩),
  ("INVALID_DESTINATION",
    ⟨true, 400,
      some "Point destinationPath at a file inside the gallery root, not a directory"⟩),
  ("PROBE_FAILED", ⟨false, 200, none⟩),
  ("RENDER_ENGINE_FAILED", ⟨true, 500, none⟩),
  ("FINALIZE_IO_FAILED", ⟨true, 500, none⟩),
  ("INTERNAL_ERROR", internal)]

/-- The specification of a code; unknown ones count as internal errors. -/
def ofCode (code : String) : ErrorSpec :=
  ((table.find? (·.1 = code)).map (·.2)).getD internal

end ErrorSpec

/-- The kinds of render errors. -/
inductive ErrorKind where
  | general
  | probe
  | emptyTimeline
  | pathOutsideRoot
  | invalidDestination
  | engine
  | finalize
deriving DecidableEq

namespace ErrorKind

def code : ErrorKind → String
  | general => "INTERNAL_ERROR"
  | probe => "PROBE_FAILED"
  | emptyTimeline => "EMPTY_TIMELINE"
  | pathOutsideRoot => "PATH_OUTSIDE_ROOT"
  | invalidDestination => "INVALID_DESTINATION"
  | engine => "RENDER_ENGINE_FAILED"
  | finalize => "FINALIZE_IO_FAILED"

/-- What is said where no message is given. -/
def message : ErrorKind → String
  | general => "An unexpected error occurred"
  | probe => "Failed to probe source"
  | emptyTimeline => "Timeline has no renderable clips"
  | pathOutsideRoot => "Access denied"
  | invalidDestination => "Destination must be a file path"
  | engine => "Render engine failed"
  | finalize => "Failed to finalize output"

end ErrorKind

structure RenderError where
  kind : ErrorKind
  code : String
  message : String
  /-- The exit code of an encoder that failed. -/
  returncode : Option Int
deriving DecidableEq

namespace RenderError

/-- The first text unless it is empty. -/
def orElse (text : Option String) (default : String) : String :=
  match text with
  | some t => if t.isEmpty then default else t
  | none => default

/-- An error of a kind; what is not given, or given empty, is the kind's own. -/
def ofKind (kind : ErrorKind) (message code : Option String) : RenderError :=
  ⟨kind, orElse code kind.code, orElse message kind.message, none⟩

def say (kind : ErrorKind) (message : String) : RenderError := ofKind kind (some message) none

/-- An encoder's failure with its diagnostic text. -/
def ofEngine (diagnostic : String) (returncode : Option Int) : RenderError :=
  let code := (returncode.map toString).getD "None"
  let message :=
    if diagnostic.isEmpty then s!"Render engine exited with code {code}" else diagnostic
  ⟨.engine, ErrorKind.engine.code, message, returncode⟩

def spec (e : RenderError) : ErrorSpec := ErrorSpec.ofCode e.code

theorem message_ofEngine_ne_empty (diagnostic : String) (returncode : Option Int) :
    (ofEngine diagnostic returncode).message ≠ "" := by
  simp only [ofEngine]
  split
  · intro h
    have := congrArg String.length h
    simp [toString] at this
  · next h => simpa using h

end RenderError

end Montage
