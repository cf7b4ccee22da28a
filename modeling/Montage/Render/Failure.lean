import Montage.Encoder.Command
import Montage.Gallery.Storage
import Montage.Graph.Compile
import Montage.Media.Report
import Montage.Render.Request

/-!
# Failures

Whatever can go wrong in a render, be it in the library itself or in a prober, an encoder or
another collaborator. A render error has a code of its own; all other failures are internal.
-/
namespace Montage

/-- The families that failures without a code fall into. -/
inductive FailureFamily where
  /-- The file system or the start of a process refused. -/
  | io
  | runtime
  | value
  | overflow
  | lookup
  | fields
  | kind
  | other
deriving DecidableEq

/-- Why an answer cannot be sent: it repeats what it refuses, or names files. -/
inductive AnswerError where
  /-- It holds a number that is not finite, which has no written form. -/
  | unwritable
  /-- It holds a text with a lone surrogate, which has no bytes. -/
  | unencodable
  /-- It is a result that holds such a text. -/
  | unserializable (error : Text.EncodeError)
deriving DecidableEq

def AnswerError.message : AnswerError → String
  | unwritable => "Out of range float values are not JSON compliant"
  | unencodable => "surrogates not allowed"
  | unserializable error => "Error serializing to JSON: UnicodeEncodeError: " ++ error.message

inductive Failure where
  | coded (error : RenderError)
  | file (error : FileError)
  | conversion (error : ConversionError)
  | command (error : CommandError)
  | report (error : ReportError)
  | answer (error : AnswerError)
  /-- A failure of a collaborator, by its name and what it says. -/
  | foreign (family : FailureFamily) (name text : String)
deriving DecidableEq

namespace ConversionError

def family : ConversionError → FailureFamily
  | nanToInteger => .value
  | _ => .overflow

end ConversionError

namespace FileError

def family : FileError → FailureFamily
  | refused .. => .io
  | endlessLinks _ => .runtime
  | nullCharacter => .value
  | unencodable _ => .value
  | invalidName _ => .value
  | unknownHome => .runtime

end FileError

namespace CommandError

def family : CommandError → FailureFamily
  | graph (.unknownTurn _) => .lookup
  | graph (.delay error) => error.family
  | withoutPicture => .value

end CommandError

namespace ReportError

def family : ReportError → FailureFamily
  | withoutFields _ => .fields
  | withoutItems _ => .kind
  | withoutMembers _ => .kind
  | notNumeric _ => .kind
  | unreadableNumeral _ => .value
  | numeralTooLong _ => .value
  | sideTooLong => .value
  | tooDeep _ => .runtime
  | conversion error => error.family

end ReportError

def StorageError.failure : StorageError → Failure
  | refused error => .coded error
  | file error => .file error

/-- Why a timeline whose clips have to be longer than a minimum was not compiled. -/
def CompileError.failure (minimum : Binary64) : CompileError → Failure
  | emptyTimeline =>
    .coded (.say .emptyTimeline ("No clip longer than " ++ minimum.text ++ "s in timeline"))
  | geometry error => .conversion error

namespace Failure

def text : Failure → String
  | coded error => error.message
  | file error => error.message
  | conversion error => error.message
  | command error => error.message
  | report error => error.message
  | answer error => error.message
  | foreign _ _ text => text

/-- The family of a failure without a code. -/
def family? : Failure → Option FailureFamily
  | coded _ => none
  | file error => some error.family
  | conversion error => some error.family
  | command error => some error.family
  | report error => some error.family
  | answer _ => some .value
  | foreign family _ _ => some family

def isRefusal (f : Failure) : Bool := f.family? = some .io

/-- Whether a source with this failure of its probe is rendered all the same. -/
def isTolerated (f : Failure) : Bool :=
  match f with
  | coded error => error.kind = .probe
  | f => f.family? = some .io || f.family? = some .runtime || f.family? = some .value

/-- The text of a failure, or its name where it says nothing. -/
def shown : Failure → String
  | foreign _ name text => if text.isEmpty then name else text
  | f => f.text

/-- The result of a render that ended with a failure. -/
def result : Failure → RenderResult
  | coded error => .failed error.message error.code
  | f => .failed f.shown ErrorKind.general.code

/-- The failure as a line of the log. -/
def line : Failure → String
  | coded error => "[RENDER] Failed (" ++ error.code ++ "): " ++ error.message
  | f => "[RENDER] Unexpected failure: " ++ f.text

end Failure

end Montage
