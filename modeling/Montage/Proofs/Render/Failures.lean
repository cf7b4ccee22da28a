import Montage.Proofs.Graph.Labels
import Montage.Proofs.Media.Survey
import Montage.Render.Task

/-!
# What failures say

A failure as it can be raised has something to say: a render error falls back on the message and
the code of its kind, and a collaborator's own failure on its name. All that the library itself
raises is of this form.
-/
namespace Montage

namespace RenderError

/-- A render error made by one of its constructors. -/
def IsRaised (e : RenderError) : Prop :=
  (∃ kind message code, e = ofKind kind message code) ∨
    ∃ diagnostic returncode, e = ofEngine diagnostic returncode

/-- What is said with the code of a kind can be raised. -/
theorem isRaised_say (kind : ErrorKind) (message : String) : (say kind message).IsRaised :=
  .inl ⟨kind, some message, none, rfl⟩

theorem orElse_ne_empty (text : Option String) (default : String) (h : default ≠ "") :
    orElse text default ≠ "" := by
  cases text with
  | none => exact h
  | some t =>
    rw [orElse]
    split
    · exact h
    next full => exact fun empty => full (empty ▸ rfl)

/-- What can be raised has a message. -/
theorem IsRaised.message_ne_empty {e : RenderError} (h : e.IsRaised) : e.message ≠ "" := by
  rcases h with ⟨kind, message, code, rfl⟩ | ⟨diagnostic, returncode, rfl⟩
  · refine orElse_ne_empty message kind.message ?_
    cases kind <;> simp [ErrorKind.message]
  · exact message_ofEngine_ne_empty diagnostic returncode

/-- What can be raised has a code. -/
theorem IsRaised.code_ne_empty {e : RenderError} (h : e.IsRaised) : e.code ≠ "" := by
  rcases h with ⟨kind, message, code, rfl⟩ | ⟨diagnostic, returncode, rfl⟩
  · refine orElse_ne_empty code kind.code ?_
    cases kind <;> simp [ErrorKind.code]
  · change ErrorKind.engine.code ≠ ""
    decide

end RenderError

theorem ConversionError.message_ne_empty (e : ConversionError) : e.message ≠ "" := by
  cases e <;> simp [message]

theorem Text.EncodeError.message_ne_empty (e : Text.EncodeError) : e.message ≠ "" := by
  change (_ ++ _ ++ ": surrogates not allowed" : String) ≠ ""
  simp

/-- Every error of the file system has a message. -/
theorem FileError.message_ne_empty (e : FileError) : e.message ≠ "" := by
  cases e with
  | refused errno path target =>
    change (_ ++ _ : String) ≠ ""
    simp [toString]
  | endlessLinks path | invalidName name =>
    change (_ ++ _ : String) ≠ ""
    simp
  | nullCharacter =>
    change "embedded null byte" ≠ ""
    simp
  | unencodable error => exact error.message_ne_empty
  | unknownHome =>
    change "Could not determine home directory." ≠ ""
    simp

theorem GraphTextError.message_ne_empty (e : GraphTextError) : e.message ≠ "" := by
  cases e with
  | unknownTurn degrees =>
    intro empty
    have digits := congrArg String.toList empty
    cases degrees with
    | ofNat n =>
      change (toString (n : Int)).toList = [] at digits
      rw [Labels.toList_toString_natCast] at digits
      exact Nat.toDigits_ne_nil digits
    | negSucc n =>
      change (toString (Int.negSucc n)).toList = [] at digits
      rw [Labels.toList_toString_negSucc] at digits
      cases digits
  | delay error => exact error.message_ne_empty

theorem CommandError.message_ne_empty (e : CommandError) : e.message ≠ "" := by
  cases e with
  | graph error => exact error.message_ne_empty
  | withoutPicture => simp [message]

theorem ReportError.message_ne_empty (e : ReportError) : e.message ≠ "" := by
  cases e with
  | withoutFields kind | withoutItems kind | withoutMembers kind | numeralTooLong digits
  | sideTooLong =>
    change (_ ++ _ : String) ≠ ""
    simp [toString]
  | tooDeep value =>
    change ("maximum recursion depth exceeded while decoding a JSON " ++ value.name ++ _) ≠ ""
    simp
  | notNumeric kind | unreadableNumeral text =>
    change (_ ++ _ : String) ≠ ""
    simp
  | conversion error => exact error.message_ne_empty

theorem AnswerError.message_ne_empty (e : AnswerError) : e.message ≠ "" := by
  cases e with
  | unwritable =>
    change "Out of range float values are not JSON compliant" ≠ ""
    simp
  | unencodable =>
    change "surrogates not allowed" ≠ ""
    simp
  | unserializable error =>
    change ("Error serializing to JSON: UnicodeEncodeError: " ++ error.message) ≠ ""
    simp

namespace Failure

/-- A failure as it can be raised: a render error of a known kind, or any other failure, which may
be without text but never without a name. -/
def IsRaised : Failure → Prop
  | coded error => error.IsRaised
  | foreign _ name _ => name ≠ ""
  | _ => True

/-- A failure that can be raised is shown by some text. -/
theorem IsRaised.shown_ne_empty {e : Failure} (h : e.IsRaised) : e.shown ≠ "" := by
  cases e with
  | coded error => exact RenderError.IsRaised.message_ne_empty h
  | file error => exact error.message_ne_empty
  | conversion error => exact error.message_ne_empty
  | command error => exact error.message_ne_empty
  | report error => exact error.message_ne_empty
  | answer error => exact error.message_ne_empty
  | foreign family name text =>
    change (if text.isEmpty then name else text) ≠ ""
    split
    · exact h
    next full => exact fun empty => full (empty ▸ rfl)

end Failure

/-- A result that says why there is no file, and nothing else. -/
structure RenderResult.IsFailure (result : RenderResult) : Prop where
  success : result.success = false
  error : ∃ text, result.error = some text ∧ text ≠ ""
  errorCode : ∃ code, result.errorCode = some code ∧ code ≠ ""
  path : result.path = none
  warnings : result.warnings = []

/-- A failure that can be raised makes a result with a message and a code. -/
theorem Failure.IsRaised.result {e : Failure} (h : e.IsRaised) : e.result.IsFailure := by
  have other (shown : e.shown ≠ "") :
      (RenderResult.failed e.shown ErrorKind.general.code).IsFailure :=
    ⟨rfl, ⟨_, rfl, shown⟩, ⟨_, rfl, by simp [ErrorKind.code]⟩, rfl, rfl⟩
  cases e with
  | coded error =>
    exact ⟨rfl, ⟨_, rfl, RenderError.IsRaised.message_ne_empty h⟩,
      ⟨_, rfl, RenderError.IsRaised.code_ne_empty h⟩, rfl, rfl⟩
  | _ => exact other h.shown_ne_empty

/-! ### What the library raises -/

/-- An error of the file system, or a refusal that says one of certain kinds. -/
def StorageError.IsOf (kinds : List ErrorKind) (e : StorageError) : Prop :=
  (∃ error, e = .file error) ∨ ∃ kind ∈ kinds, ∃ message, e = .refused (.say kind message)

theorem StorageError.IsOf.isRaised {kinds : List ErrorKind} {e : StorageError} (h : e.IsOf kinds) :
    e.failure.IsRaised := by
  rcases h with ⟨error, rfl⟩ | ⟨kind, _, message, rfl⟩
  · exact trivial
  · exact RenderError.isRaised_say kind message

namespace Storage

variable (s : Storage) (tree : FileTree)

/-- Resolving is refused only outside of the root. -/
theorem isOf_resolve {path : Path} {shown : String} {e : StorageError}
    (h : s.resolve tree path shown = .error e) : e.IsOf [.pathOutsideRoot] := by
  rw [resolve, Except.bind_eq_error_iff] at h
  rcases h with h | ⟨full, _, h⟩
  · obtain ⟨error, _, rfl⟩ := Except.mapError_eq_error_iff.mp h
    exact .inl ⟨error, rfl⟩
  · split at h
    · cases h
    · cases h
      exact .inr ⟨_, List.mem_singleton_self _, _, rfl⟩

/-- A destination is refused outside of the root, or where no file can be. -/
theorem isOf_fileDestination {path : Path} {shown : String} {e : StorageError}
    (h : s.fileDestination tree path shown = .error e) :
    e.IsOf [.pathOutsideRoot, .invalidDestination] := by
  have directory (message : String) : (StorageError.refused (.say .invalidDestination message)).IsOf
      [.pathOutsideRoot, .invalidDestination] :=
    .inr ⟨_, List.mem_cons_of_mem _ (List.mem_singleton_self _), message, rfl⟩
  rw [fileDestination, Except.bind_eq_error_iff] at h
  rcases h with h | ⟨full, _, h⟩
  · refine (s.isOf_resolve tree h).imp_right fun ⟨kind, member, refused⟩ => ⟨kind, ?_, refused⟩
    exact List.mem_cons.mpr (.inl (List.mem_singleton.mp member))
  -- A path that resolves is refused if it is the root, cannot be looked at, or is a directory.
  · dsimp only at h
    split at h
    · rcases Except.bind_eq_error_iff.mp h with h | ⟨isDirectory, given, h⟩
      · cases h
      · cases given
        cases h
        exact directory _
    · rcases Except.bind_eq_error_iff.mp h with h | ⟨isDirectory, _, h⟩
      · obtain ⟨error, _, rfl⟩ := Except.mapError_eq_error_iff.mp h
        exact .inl ⟨error, rfl⟩
      · split at h
        · cases h
          exact directory _
        · cases h

theorem isOf_destination {path : String} {newName : Option String} {e : StorageError}
    (h : s.destination tree path newName = .error e) :
    e.IsOf [.pathOutsideRoot, .invalidDestination] := by
  rw [destination, Except.bind_eq_error_iff] at h
  rcases h with h | ⟨full, _, h⟩
  · exact s.isOf_fileDestination tree h
  · cases newName with
    | none => cases h
    | some name =>
      dsimp only at h
      split at h
      · cases h
      · exact s.isOf_fileDestination tree h

/-- A replacement that fails is an error of the last stage. -/
theorem isOf_replace {temp destination : Path} {next : FileTree} {e : StorageError}
    (h : replace tree temp destination = (next, .error e)) : e.IsOf [.finalize] := by
  rw [replace] at h
  split at h
  · cases h
  next error _ =>
    split at h
    · cases h
      exact .inr ⟨_, List.mem_singleton_self _, _, rfl⟩
    · cases h
      exact .inl ⟨error, rfl⟩

end Storage

theorem CompileError.isRaised (minimum : Binary64) (e : CompileError) :
    (e.failure minimum).IsRaised := by
  cases e with
  | emptyTimeline => exact RenderError.isRaised_say _ _
  | geometry error => exact trivial

/-- A prober that fails only with what can be raised. -/
def Prober.Raises (prober : Prober) : Prop :=
  ∀ path e, prober path = .error e → e.IsRaised

/-- An engine that fails only with what can be raised. -/
def Engine.Raises (engine : Engine) : Prop :=
  ∀ call contents e, (engine.produce call contents).failure = some e → e.IsRaised

/-- An inspection raises nothing that its probe would not. -/
theorem Prober.Raises.inspect {prober : Prober} (h : prober.Raises) {path : String} {e : Failure}
    (failed : (prober.inspect path).finding = .error e) : e.IsRaised := by
  rw [Prober.inspect] at failed
  -- What is answered can only fail to be logged. What is raised is passed on or taken for nothing.
  cases probed : prober path with
  | ok measures =>
    rw [probed] at failed
    obtain ⟨error, _, rfl⟩ := Except.mapError_eq_error_iff.mp failed
    exact trivial
  | error failure =>
    rw [probed] at failed
    dsimp only at failed
    split at failed
    · cases failed
    · cases failed
      exact h path e probed

/-- Actions that cannot be carried out raise what can be raised, as the engine does. -/
theorem Engine.Raises.perform {engine : Engine} (h : engine.Raises) (call : EncoderCall)
    (contents : List (Option String)) (tree : FileTree) (output : Path) {e : Failure}
    (failed : ((engine.produce call contents).perform tree output).failure = some e) :
    e.IsRaised := by
  rw [Production.perform] at failed
  split at failed
  · cases failed
    exact trivial
  · exact h call contents e failed

end Montage
