import Dpaste.ClientScripts
import Dpaste.CommandModes
import Dpaste.StreamPastes

/-!
`main` as a script, for a process among others: what it is started with, and what it asks of
the transports that its configuration names.
-/

namespace Dpaste.CommandScripts

open Dpaste.EffectTraces
open Dpaste.InteractivePrograms
open Dpaste.LibraryInterfaces
open Dpaste.CipherParameters
open Dpaste.CommandLine
open Dpaste.ConfigurationFile
open Dpaste.ConfigurationStore
open Dpaste.BinOperations
open Dpaste.MainProgram
open Dpaste.CommandModes
open Dpaste.SecludedParts
open Dpaste.ClientScripts

/-- What one run of the program is started with. -/
structure Invocation where
  lib : Libraries
  start : Startup
  storage : Storage
  file : Option Text
  opts : List Opt
  stdin : Blob

abbrev Command (α : Type) := Script MainEvent Exn Call.Reply α

namespace Invocation

variable (x : Invocation)

/-- The configuration that `Bin::Bin` loads. -/
def conf : StringMap :=
  match load defaults x.file with
  | .ok (_, conf) => conf
  | .error _ => []

def params : Option Parameters := paramsFromArgs x.storage (parseArgs x.opts)

/-- The transports are those for this host and this port. -/
def Uses (host port : Text) : Prop :=
  x.conf.lookup "host".toList = some host ∧ x.conf.lookup "port".toList = some port

end Invocation

/-- The branch of `main` for a code. -/
def getCommandScript (lib : Libraries) (code : Text) (noDecrypt : Bool) :
    Command (Output × Nat) := do
  let r ← (getScript lib code noDecrypt).rename MainEvent.inner
  pure (.content (if r.1 then r.2 else []), if r.1 then 0 else 1)

/-- The branch of `main` without a code. -/
def pasteCommandScript (lib : Libraries) (conf : StringMap) (storage : Storage) (stdin : Blob)
    (params : Option Parameters) : Command (Output × Nat) := do
  let uri ← (pasteScript lib conf storage (dataFromStream stdin) params).rename MainEvent.inner
  pure (.uri (uri ++ ['\n']), if uri.isEmpty then 1 else 0)

/-- The start of a run that does not return at once: `Bin::Bin` and `Cipher::init`. -/
def startScript (x : Invocation) : Command StringMap := do
  let bin ← (Script.ofProg (newBin (fun _ _ => secluded x.lib) x.start x.file)).rename
    MainEvent.inner
  let _ ← (Script.ofProg (initCiphers x.start)).rename MainEvent.inner
  pure bin.1

def mainScript (x : Invocation) : Command (Output × Nat) :=
  let pa := parseArgs x.opts
  if pa.fail then pure (.nothing, 1)
  else if pa.help then pure (.help, 0)
  else if pa.version then pure (.version, 0)
  else do
    let conf ← startScript x
    if !pa.code.isEmpty then
      .tell (.get pa.code pa.noDecrypt) (getCommandScript x.lib pa.code pa.noDecrypt)
    else
      .tell .readInput (.tell (.paste x.stdin x.params)
        (pasteCommandScript x.lib conf x.storage x.stdin x.params))

section Startup

variable {σ : Type} {x : Invocation} {host port : Text}

theorem Invocation.Uses.configured (h : x.Uses host port) :
    Configured x.file x.conf host port := by
  obtain ⟨conf, _, _, ⟨⟨result, hload⟩, _, _⟩, _⟩ := exists_configured x.file
  have hconf : x.conf = conf := by rw [Invocation.conf, hload]
  exact ⟨⟨result, hconf ▸ hload⟩, h.1, h.2⟩

theorem newBin_of_uses (h : x.Uses host port) (connect : Text → Text → Env σ) :
    newBin connect x.start x.file =
      ofExcept x.start.runNode >>= fun _ => pure (x.conf, connect host port) :=
  newBin_of_configured h.configured connect x.start

end Startup

section Alone

variable {σ : Type} (env : Env σ)

theorem run_getCommandScript (code : Text) (noDecrypt : Bool) :
    (getCommandScript env.toLibraries code noDecrypt).run (answer env) =
      rename .inner (getCommand env code noDecrypt) >>= fun r => pure (.content r.1, r.2) := by
  unfold getCommandScript getCommand
  rw [Script.run_bind, Script.run_rename, run_getScript, rename_bind, bind_bind]
  congr 1
  funext r s
  cases r.1 <;> simp

theorem run_pasteCommandScript (conf : StringMap) (storage : Storage) (pa : ParsedArgs)
    (stdin : Blob) :
    (pasteCommandScript env.toLibraries conf storage stdin (paramsFromArgs storage pa)).run
        (answer env) =
      rename .inner (pasteCommand env conf storage pa stdin) >>= fun r =>
        pure (.uri r.1, r.2) := by
  unfold pasteCommandScript pasteCommand
  rw [Script.run_bind, Script.run_rename, run_pasteScript, rename_bind, bind_bind]
  rfl

theorem run_startScript {x : Invocation} {host port : Text} (h : x.Uses host port) :
    (startScript x).run (answer env) =
      rename .inner (ofExcept x.start.runNode) >>= fun _ =>
        rename .inner (initCiphers x.start) >>= fun _ => pure x.conf := by
  unfold startScript
  simp only [Script.run_bind, Script.run_rename, run_ofProg_eq, newBin_of_uses h, lift_bind,
    lift_ofExcept, lift_pure, rename_bind, bind_bind]
  congr 1
  funext _ s
  unfold initCiphers
  cases x.start.checkEngine <;> rfl

/-- Alone on the state of the environment that its configuration names, the script of a run
of the program is `main`. -/
theorem run_mainScript {x : Invocation} {host port : Text} {connect : Text → Text → Env σ}
    (h : x.Uses host port) (hlib : (connect host port).toLibraries = x.lib) :
    (mainScript x).run (answer (connect host port)) =
      main connect x.start x.storage x.file x.opts x.stdin := by
  unfold mainScript main Invocation.params
  rw [newBin_of_uses h, ← hlib]
  generalize parseArgs x.opts = pa
  dsimp only
  cases pa.fail with
  | true => rfl
  | false =>
      cases pa.help with
      | true => rfl
      | false =>
          cases pa.version with
          | true => rfl
          | false =>
              simp only [Bool.false_eq_true, if_false, Script.run_bind, run_startScript _ h,
                rename_bind, bind_bind]
              congr 1
              funext _
              show (rename MainEvent.inner (initCiphers x.start) >>= fun _ => _) =
                (rename MainEvent.inner (initCiphers x.start) >>= fun _ => _)
              congr 1
              funext _
              rw [pure_bind_eq]
              cases pa.code.isEmpty with
              | false =>
                  show (emit _ >>= fun _ => _) = (emit _ >>= fun _ => _)
                  congr 1
                  funext _
                  exact run_getCommandScript (connect host port) pa.code pa.noDecrypt
              | true =>
                  show (emit _ >>= fun _ => emit _ >>= fun _ => _) =
                    (emit _ >>= fun _ => emit _ >>= fun _ => _)
                  congr 1
                  funext _
                  congr 1
                  funext _
                  exact run_pasteCommandScript (connect host port) x.conf x.storage pa x.stdin

end Alone

section Shapes

variable {x : Invocation} {host port : Text}

theorem startScript_asks (h : x.Uses host port) :
    Asks (fun _ => False) (fun r => x.start.Succeeds ∧ r = .ok x.conf ∨
        ¬x.start.Succeeds ∧ ∃ e, r = .error e) (startScript x) := by
  unfold startScript
  rw [newBin_of_uses h]
  have hbin : Asks (fun _ => False)
      (fun r => x.start.runNode = .ok () ∧ r = .ok (x.conf, secluded x.lib) ∨
        (∃ e, x.start.runNode = .error e) ∧ ∃ e, r = .error e)
      ((Script.ofProg (ofExcept x.start.runNode >>= fun _ =>
        pure (x.conf, secluded x.lib)) : Client (StringMap × Env Unit)).rename
          MainEvent.inner) := by
    refine Asks.rename MainEvent.inner (Asks.ofProg ?_)
    cases x.start.runNode with
    | ok _ => exact .inl ⟨rfl, rfl⟩
    | error e => exact .inr ⟨⟨e, rfl⟩, e, rfl⟩
  refine Asks.bind hbin ?_ ?_
  · rintro bin (⟨hrun, hbin⟩ | ⟨-, e, hbin⟩)
    · obtain rfl := Except.ok.inj hbin
      unfold initCiphers
      cases hengine : x.start.checkEngine with
      | none => exact .inl ⟨⟨hrun, hengine⟩, rfl⟩
      | some err =>
          refine .inr ⟨fun hstart => ?_, _, rfl⟩
          rw [hstart.checkEngine] at hengine
          cases hengine
    · cases hbin
  · rintro e (⟨-, he⟩ | ⟨⟨e', hrun⟩, -⟩)
    · cases he
    · refine .inr ⟨fun hstart => ?_, e, rfl⟩
      rw [hstart.runNode] at hrun
      cases hrun

theorem mainScript_of_not_proper (h : ¬Proper x.opts) :
    ∃ out rc, mainScript x = pure (out, rc) ∧ (out = .nothing ∨ out = .help ∨ out = .version) := by
  cases hfail : (parseArgs x.opts).fail with
  | true => exact ⟨.nothing, 1, by simp [mainScript, hfail], .inl rfl⟩
  | false =>
      cases hhelp : (parseArgs x.opts).help with
      | true => exact ⟨.help, 0, by simp [mainScript, hfail, hhelp], .inr (.inl rfl)⟩
      | false =>
          cases hversion : (parseArgs x.opts).version with
          | true =>
              exact ⟨.version, 0, by simp [mainScript, hfail, hhelp, hversion], .inr (.inr rfl)⟩
          | false => exact absurd (proper_of_parseArgs hfail hhelp hversion) h

theorem mainScript_of_proper (h : Proper x.opts) :
    mainScript x = startScript x >>= fun conf =>
      if (lastCode x.opts).getD [] = [] then
        .tell .readInput (.tell (.paste x.stdin x.params)
          (pasteCommandScript x.lib conf x.storage x.stdin x.params))
      else
        .tell (.get ((lastCode x.opts).getD []) (decide (.noDecrypt ∈ x.opts)))
          (getCommandScript x.lib ((lastCode x.opts).getD []) (decide (.noDecrypt ∈ x.opts))) := by
  obtain ⟨hfail, hhelp, hversion, hcode, hnoDecrypt⟩ := parseArgs_of_proper h
  unfold mainScript
  simp only [hfail, hhelp, hversion, hcode, hnoDecrypt, Bool.false_eq_true, if_false]
  congr 1
  funext conf
  by_cases hempty : (lastCode x.opts).getD [] = []
  · simp [hempty]
  · simp [hempty]

end Shapes

end Dpaste.CommandScripts
