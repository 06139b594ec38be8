import Dpaste.BinOperations
import Dpaste.CommandLine
import Dpaste.ConfigurationFile

/-!
The two commands of `main`, what each prints on standard output, and its exit code; then
`main` itself, which chooses between them.
-/

namespace Dpaste.MainProgram

open Dpaste.EffectTraces
open Dpaste.LibraryInterfaces
open Dpaste.CipherParameters
open Dpaste.CommandLine
open Dpaste.ConfigurationFile
open Dpaste.BinOperations

variable {σ : Type} (env : Env σ)

/-- The branch of `main` for a code. -/
def getCommand (code : Text) (noDecrypt : Bool) : Code σ (Blob × Nat) := do
  let r ← get env code noDecrypt
  pure (if r.1 then (r.2, 0) else ([], 1))

/-- The branch of `main` without a code, which reads the whole standard input. -/
def pasteCommand (conf : StringMap) (storage : Storage) (pa : ParsedArgs) (stdin : Blob) :
    Code σ (Text × Nat) := do
  let uri ← pasteStream env conf storage stdin (paramsFromArgs storage pa)
  pure (uri ++ ['\n'], if uri.isEmpty then 1 else 0)

theorem pasteCommand_apply (conf : StringMap) (storage : Storage) (pa : ParsedArgs)
    (stdin : Blob) (s : σ) :
    pasteCommand env conf storage pa stdin s =
      let o := pasteStream env conf storage stdin (paramsFromArgs storage pa) s
      ⟨o.state, o.events,
        o.result.map fun uri => (uri ++ ['\n'], if uri.isEmpty then 1 else 0)⟩ := by
  simp only [pasteCommand, bind_apply]
  cases h : (pasteStream env conf storage stdin (paramsFromArgs storage pa) s).result with
  | ok uri => simp [Outcome.andThen_of_ok h, Except.map]
  | error e => simp [Outcome.andThen_of_error h, Except.map]

/-- The steps that `main` takes, and the events of the operations of `Bin` that it calls. -/
inductive MainEvent
  | readInput
  | get (code : Text) (noDecrypt : Bool)
  | paste (input : Blob) (params : Option Parameters)
  | inner (event : Event)

/-- What `main` writes on standard output. -/
inductive Output
  | nothing
  | help
  | version
  | content (data : Blob)
  | uri (line : Text)

/-- What the start of the program depends on: whether the node of the DHT comes up, and
what `GpgME::checkEngine` finds. -/
structure Startup where
  runNode : Except Exn Unit
  checkEngine : Option GpgError

structure Startup.Succeeds (start : Startup) : Prop where
  runNode : start.runNode = .ok ()
  checkEngine : start.checkEngine = none

section Main

variable (connect : Text → Text → Env σ) (start : Startup)

/-- `Bin::Bin`, where `connect` makes the transports for a host and the text of a port. -/
def newBin (file : Option Text) : Code σ (StringMap × Env σ) := do
  let (_, conf) ← ofExcept (load defaults file)
  let port ← mapAt conf "port".toList
  ofExcept start.runNode
  let host ← mapAt conf "host".toList
  pure (conf, connect host port)

/-- `Cipher::init`. -/
def initCiphers : Code σ Unit :=
  match start.checkEngine with
  | none => pure ()
  | some err => raise (.gpgme err "Failed to initialize OpenPGP engine".toList)

def main (storage : Storage) (file : Option Text) (opts : List Opt) (stdin : Blob) :
    Prog σ MainEvent Exn (Output × Nat) :=
  let pa := parseArgs opts
  if pa.fail then pure (.nothing, 1)
  else if pa.help then pure (.help, 0)
  else if pa.version then pure (.version, 0)
  else do
    let (conf, env) ← rename .inner (newBin connect start file)
    rename .inner (initCiphers start)
    if !pa.code.isEmpty then do
      emit (.get pa.code pa.noDecrypt)
      let r ← rename .inner (getCommand env pa.code pa.noDecrypt)
      pure (.content r.1, r.2)
    else do
      emit .readInput
      emit (.paste stdin (paramsFromArgs storage pa))
      let r ← rename .inner (pasteCommand env conf storage pa stdin)
      pure (.uri r.1, r.2)

end Main

end Dpaste.MainProgram
