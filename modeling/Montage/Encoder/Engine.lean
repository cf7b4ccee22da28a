import Montage.Render.Failure
import Montage.Text.Utf8

/-!
# Engines

An engine renders one call. It reads the inputs and can change nothing but what the output path
names: what it does there is a list of actions, and a failure may come after them.
-/
namespace Montage

inductive OutputAction where
  | write (content : String)
  | makeDirectory

/-- What an engine does at its output path, then logs, and the failure it may end with. -/
structure Production where
  actions : List OutputAction
  log : List String
  failure : Option Failure

def OutputAction.perform (tree : FileTree) (output : Path) :
    OutputAction → Except FileError FileTree
  | write content => tree.write output content
  | makeDirectory => tree.makeDirectory output

/-- A tree after an operation on it, with what was logged and the failure it ended with. -/
structure Aftermath where
  tree : FileTree
  log : List String
  failure : Option Failure

namespace Production

/-- The actions one after the other, up to the first that fails. -/
def performAll (output : Path) : List OutputAction → FileTree → FileTree × Option FileError
  | [], tree => (tree, none)
  | action :: rest, tree =>
    match action.perform tree output with
    | .ok tree => performAll output rest tree
    | .error e => (tree, some e)

def perform (p : Production) (tree : FileTree) (output : Path) : Aftermath :=
  match performAll output p.actions tree with
  | (tree, some e) => ⟨tree, [], some (.file e)⟩
  | (tree, none) => ⟨tree, p.log, p.failure⟩

end Production

structure Engine where
  /-- How often a call makes way for other renders before it is finished. -/
  turns : EncoderCall → Nat
  /-- What a call does, by what its input files hold. -/
  produce : EncoderCall → List (Option String) → Production

/-- What running the encoder came to. -/
inductive EncoderRun where
  /-- It wrote what it did to the output, then ended with a code and a diagnostic. -/
  | exited (actions : List OutputAction) (returncode : Int) (diagnostic : List UInt8)
  | notStarted (failure : Failure)

namespace EncoderRun

/-- The failure to start, as a render error where the system refused. -/
def startFailure (failure : Failure) : Failure :=
  if failure.isRefusal then .coded (.ofEngine ("Failed to start ffmpeg: " ++ failure.text) none)
  else failure

/-- An exit code other than zero is a failure with the diagnostic as its message. -/
def production : EncoderRun → Production
  | notStarted failure => ⟨[], [], some (startFailure failure)⟩
  | exited actions returncode diagnostic =>
    if returncode = 0 then ⟨actions, [], none⟩
    else
      let text := Text.decodeLossy diagnostic
      ⟨actions, ["[RENDER] FFmpeg exited with " ++ toString returncode ++ ": " ++ text],
        some (.coded (.ofEngine text (some returncode)))⟩

end EncoderRun

/-- The engine that runs the encoder's command. -/
def Engine.ofRuns (s : Settings) (turns : Nat) (run : List String → EncoderRun) : Engine where
  turns _ := turns
  produce call _ :=
    match call.command s with
    | .error e => ⟨[], [], some (.command e)⟩
    | .ok command => (run command).production

end Montage
