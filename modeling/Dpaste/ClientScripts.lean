import Dpaste.InteractivePrograms
import Dpaste.SecludedParts

/-!
Paste and get as scripts, which stop at each draw of a pin and at each call of a transport.
A script that runs alone does what the operation does.
-/

namespace Dpaste.ClientScripts

open Dpaste.EffectTraces
open Dpaste.InteractivePrograms
open Dpaste.LibraryInterfaces
open Dpaste.CipherParameters
open Dpaste.CipherSelection
open Dpaste.LocationCodes
open Dpaste.PacketEncoding
open Dpaste.BinOperations
open Dpaste.PasteAndGet
open Dpaste.SecludedParts

/-- The calls by which a paste and a get reach out of the process. -/
inductive Call
  | draw
  | httpGet (code : Text)
  | httpPut (code : Text) (blob : Blob)
  | nodeGet (code : Text)
  | nodePaste (code : Text) (blob : Blob)

@[reducible] def Call.Reply : Call → Type
  | .draw => UInt32
  | .httpGet _ => Except Exn Blob
  | .httpPut _ _ => Bool
  | .nodeGet _ => List Blob
  | .nodePaste _ _ => Bool

abbrev Client (α : Type) := Script Event Exn Call.Reply α

def pinScript : Client Text := do
  let pin ← Script.question Call.draw
  pure (pinText pin)

def httpPutScript (code : Text) (blob : Blob) : Client Bool := do
  let accepted ← Script.question (Call.httpPut code blob)
  .tell (.httpPut code blob accepted) (pure accepted)

def nodePasteScript (code : Text) (blob : Blob) : Client Bool := do
  let accepted ← Script.question (Call.nodePaste code blob)
  .tell (.nodePaste code blob accepted) (pure accepted)

def httpGetScript (code : Text) : Client Blob :=
  .tell (.httpGet code) do
    let answer ← Script.question (Call.httpGet code)
    .stop answer

def nodeGetScript (code : Text) : Client (List Blob) :=
  .tell (.nodeGet code) (Script.question (Call.nodeGet code))

def publishScript (code : Text) (binPacket : Blob) : Client Bool := do
  let success ← httpPutScript code binPacket
  if success then pure true else nodePasteScript code binPacket

def fetchScript (lcode : Text) : Client Blob := do
  let data ← httpGetScript lcode
  if data.isEmpty then do
    let values ← nodeGetScript lcode
    pure (match values with
      | value :: _ => value
      | [] => data)
  else pure data

section Operations

variable (lib : Libraries) (conf : StringMap) (storage : Storage) (data : Blob)
  (params : Option Parameters)

/-- The second part of `prepare_data`, which draws nothing. -/
def finishPacket (l : Locals) : Code Unit (Packet × Text) := do
  let cipher ← Cipher.getFromScheme lib l.scheme l.initParams
  let p ← buildPacket (secluded lib) cipher data l
  pure (p, l.pwd)

def readScript : Option Parameters → Client Locals
  | some (.aes _) => do
      let pwd ← pinScript
      pure (aesLocals pwd)
  | params => .ofProg (readParameters (secluded lib) conf storage params)

def prepareScript : Client (Packet × Text) := do
  let l ← readScript lib conf storage params
  .ofProg (finishPacket lib data l)

def pasteScript : Client Text := do
  let code ← pinScript
  let prepared ← prepareScript lib conf storage data params
  .tell (.message pastingText) do
    let binPacket ← Script.stop prepared.1.serialize
    let success ← publishScript code binPacket
    pure (if success then DPASTE_URI_PREFIX ++ code ++ prepared.2 else [])

def getScript (code : Text) (noDecrypt : Bool) : Client (Bool × Blob) := do
  let code ← Script.stop (codeFromDpasteUri code)
  let _ ← Script.stop (substr code codeOffset)
  let data ← fetchScript (code.take codeOffset)
  .ofProg (afterLookups (secluded lib) code noDecrypt data)

end Operations

section Shapes

theorem publishScript_eq (code : Text) (v : Blob) :
    publishScript code v = .ask (.httpPut code v) fun accepted =>
      .tell (.httpPut code v accepted)
        (if accepted then pure true
        else .ask (.nodePaste code v) fun accepted =>
          .tell (.nodePaste code v accepted) (pure accepted)) := by
  apply congrArg (Script.ask (Call.httpPut code v))
  funext accepted
  cases accepted <;> rfl

theorem fetchScript_eq (lcode : Text) :
    fetchScript lcode = .tell (.httpGet lcode) (.ask (.httpGet lcode) fun answer =>
      match answer with
      | .error e => .stop (.error e)
      | .ok [] => .tell (.nodeGet lcode) (.ask (.nodeGet lcode) fun values =>
          pure (values.headD []))
      | .ok (byte :: bytes) => pure (byte :: bytes)) := by
  apply congrArg (Script.tell (Event.httpGet lcode))
  apply congrArg (Script.ask (Call.httpGet lcode))
  funext answer
  rcases answer with e | _ | ⟨byte, bytes⟩
  · rfl
  · apply congrArg (Script.tell (Event.nodeGet lcode))
    apply congrArg (Script.ask (Call.nodeGet lcode))
    funext values
    cases values <;> rfl
  · rfl

theorem pasteScript_eq (lib : Libraries) (conf : StringMap) (storage : Storage) (data : Blob)
    (params : Option Parameters) :
    pasteScript lib conf storage data params = .ask .draw fun pin =>
      prepareScript lib conf storage data params >>= fun prepared =>
        .tell (.message pastingText) (Script.stop prepared.1.serialize >>= fun binPacket =>
          publishScript (pinText pin) binPacket >>= fun success =>
            pure (if success then DPASTE_URI_PREFIX ++ pinText pin ++ prepared.2 else [])) :=
  rfl

end Shapes

section Alone

variable {σ : Type} (env : Env σ)

/-- How the environment of a process answers its calls. -/
def answer : (q : Call) → σ → q.Reply × σ
  | .draw => env.draw
  | .httpGet code => env.httpGet code
  | .httpPut code blob => env.httpPut code blob
  | .nodeGet code => env.nodeGet code
  | .nodePaste code blob => env.nodePaste code blob

theorem run_ofProg_eq {α : Type} (p : Code Unit α) :
    (Script.ofProg p : Client α).run (answer env) = lift p := by
  funext s
  exact Script.run_ofProg (answer env) p s

theorem run_publishScript (code : Text) (binPacket : Blob) :
    (publishScript code binPacket).run (answer env) = publish env code binPacket := by
  unfold publishScript publish
  rw [Script.run_bind]
  congr 1
  funext success
  cases success <;> rfl

theorem run_fetchScript (lcode : Text) :
    (fetchScript lcode).run (answer env) = fetch env lcode := by
  unfold fetchScript fetch
  rw [Script.run_bind]
  congr 1
  funext data
  by_cases h : data.isEmpty = true
  · simp only [h, if_true, Script.run_bind]
    rfl
  · simp only [h]
    rfl

theorem run_readScript (conf : StringMap) (storage : Storage) (params : Option Parameters) :
    (readScript env.toLibraries conf storage params).run (answer env) =
      readParameters env conf storage params := by
  rcases params with _ | gp | a
  · rfl
  · simp only [readScript, run_ofProg_eq, readParameters, lift_bind, lift_pure]
    congr 1
    unfold mapAt
    cases conf.lookup pgpKeyId <;> rfl
  · rfl

theorem run_prepareScript (conf : StringMap) (storage : Storage) (data : Blob)
    (params : Option Parameters) :
    (prepareScript env.toLibraries conf storage data params).run (answer env) =
      prepareData env conf storage data params := by
  unfold prepareScript prepareData
  rw [Script.run_bind, run_readScript]
  congr 1
  funext l
  simp [run_ofProg_eq, finishPacket, lift_buildPacket]

/-- Alone on the state of its environment, the script of a paste is the paste. -/
theorem run_pasteScript (conf : StringMap) (storage : Storage) (data : Blob)
    (params : Option Parameters) :
    (pasteScript env.toLibraries conf storage data params).run (answer env) =
      paste env conf storage data params := by
  unfold pasteScript paste
  rw [Script.run_bind]
  congr 1
  funext code
  rw [Script.run_bind, run_prepareScript]
  congr 1
  funext prepared
  show (emit (.message pastingText) >>= fun _ => _) = (message pastingText >>= fun _ => _)
  congr 1
  funext _
  rw [Script.run_bind]
  congr 1
  funext binPacket
  rw [Script.run_bind, run_publishScript]
  rfl

/-- Alone on the state of its environment, the script of a get is the get. -/
theorem run_getScript (uri : Text) (noDecrypt : Bool) :
    (getScript env.toLibraries uri noDecrypt).run (answer env) = get env uri noDecrypt := by
  unfold getScript BinOperations.get
  rw [Script.run_bind]
  congr 1
  funext code
  dsimp only
  cases hpwd : substr code (AES.CODE_PASS_OFFSET * 2) with
  | error e =>
      rw [show substr code codeOffset = .error e from hpwd]
      rfl
  | ok pwd =>
      obtain rfl : code.drop codeOffset = pwd := by
        unfold substr at hpwd
        split at hpwd
        · exact Except.ok.inj hpwd
        · cases hpwd
      rw [show substr code codeOffset = .ok (code.drop codeOffset) from hpwd, Script.stop_ok_bind,
        Script.run_bind, run_fetchScript]
      simp only [run_ofProg_eq, lift_afterLookups]
      rfl

end Alone

end Dpaste.ClientScripts
