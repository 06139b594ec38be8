import Dpaste.ConfigurationStore
import Dpaste.StreamPastes

/-!
The command that `main` runs for a command line: which options select it, and which of the
two operations of `Bin` it calls.
-/

namespace Dpaste.CommandModes

open Dpaste.EffectTraces
open Dpaste.LibraryInterfaces
open Dpaste.CipherParameters
open Dpaste.CommandLine
open Dpaste.ConfigurationFile
open Dpaste.ConfigurationStore
open Dpaste.PacketEncoding
open Dpaste.TransportStores
open Dpaste.MainProgram

variable {σ : Type} {connect : Text → Text → Env σ} {start : Startup} {storage : Storage}
  {file : Option Text} {opts : List Opt} {stdin : Blob} {s : σ}

/-- No option makes `main` return early. -/
structure Proper (opts : List Opt) : Prop where
  invalid : .invalid ∉ opts
  help : .help ∉ opts
  version : .version ∉ opts

section Commands

/-- `Bin::Bin` finds the host and the port in every configuration file, so that it fails
only where the node does. -/
theorem newBin_of_configured {conf : StringMap} {host port : Text}
    (h : Configured file conf host port) (connect : Text → Text → Env σ) (start : Startup) :
    newBin connect start file =
      ofExcept start.runNode >>= fun _ => pure (conf, connect host port) := by
  obtain ⟨⟨result, hload⟩, hhost, hport⟩ := h
  have hloaded : newBin connect start file =
      mapAt conf "port".toList >>= fun port => ofExcept start.runNode >>= fun _ =>
        mapAt conf "host".toList >>= fun host => pure (conf, connect host port) := by
    rw [newBin, hload]
    rfl
  have hfound {key value : Text} (h : conf.lookup key = some value) :
      mapAt conf key = (pure value : Code σ Text) := by rw [mapAt, h]
  rw [hloaded, hfound hport, hfound hhost]
  rfl

/-- What `parseArgs` reports of the options without which there is a command. -/
theorem parseArgs_of_proper (h : Proper opts) :
    (parseArgs opts).fail = false ∧ (parseArgs opts).help = false ∧
      (parseArgs opts).version = false ∧ (parseArgs opts).code = (lastCode opts).getD [] ∧
      (parseArgs opts).noDecrypt = decide (.noDecrypt ∈ opts) := by
  rw [parseArgs, parseFrom_eq h.invalid]
  simp [h.help, h.version]

theorem proper_of_parseArgs (hfail : (parseArgs opts).fail = false)
    (hhelp : (parseArgs opts).help = false) (hversion : (parseArgs opts).version = false) :
    Proper opts := by
  have hinvalid : .invalid ∉ opts := by
    intro hmem
    rw [parseArgs, parseFrom_fail hmem] at hfail
    cases hfail
  rw [parseArgs, parseFrom_eq hinvalid] at hhelp hversion
  exact ⟨hinvalid, by simpa using hhelp, by simpa using hversion⟩

/-- Otherwise `main` returns at once. -/
theorem events_of_not_proper (h : ¬Proper opts) :
    (main connect start storage file opts stdin s).events = [] := by
  unfold main
  cases hfail : (parseArgs opts).fail with
  | true => simp
  | false =>
      cases hhelp : (parseArgs opts).help with
      | true => simp
      | false =>
          cases hversion : (parseArgs opts).version with
          | true => simp
          | false => exact absurd (proper_of_parseArgs hfail hhelp hversion) h

/-- Without a node or an engine it does not get to a command. -/
theorem events_of_not_succeeds (h : ¬start.Succeeds) :
    (main connect start storage file opts stdin s).events = [] := by
  by_cases hproper : Proper opts
  · obtain ⟨hfail, hhelp, hversion, _, _⟩ := parseArgs_of_proper hproper
    obtain ⟨conf, host, port, hconf, _⟩ := exists_configured file
    have hbin := newBin_of_configured hconf connect start
    cases hrun : start.runNode with
    | error e => simp [main, hfail, hhelp, hversion, hbin, hrun]
    | ok _ =>
        cases hengine : start.checkEngine with
        | none => exact absurd ⟨hrun, hengine⟩ h
        | some err => simp [main, hfail, hhelp, hversion, hbin, hrun, initCiphers, hengine]
  · exact events_of_not_proper hproper

end Commands

section Branches

variable {conf : StringMap} {host port : Text}

/-- A proper command line with a code that is not empty makes one get of it. -/
theorem main_of_code {code : Text} (hconf : Configured file conf host port)
    (hstart : start.Succeeds) (h : Proper opts) (hcode : lastCode opts = some code)
    (hne : code ≠ []) :
    main connect start storage file opts stdin s =
      let o := BinOperations.get (connect host port) code (decide (.noDecrypt ∈ opts)) s
      ⟨o.state, .get code (decide (.noDecrypt ∈ opts)) :: o.events.map .inner,
        o.result.map fun r => (.content (if r.1 then r.2 else []), if r.1 then 0 else 1)⟩ := by
  obtain ⟨hfail, hhelp, hversion, hparsed, hnoDecrypt⟩ := parseArgs_of_proper h
  have hbin := newBin_of_configured hconf connect start
  have hengine : initCiphers start = (pure () : Code σ Unit) := by
    rw [initCiphers, hstart.checkEngine]
  rw [hcode, Option.getD_some] at hparsed
  cases hresult : (BinOperations.get (connect host port) code (decide (.noDecrypt ∈ opts))
      s).result with
  | error e =>
      simp [main, hfail, hhelp, hversion, hparsed, hnoDecrypt, hne, hbin, hstart.runNode,
        hengine, getCommand, Outcome.andThen_of_error hresult, hresult, Except.map]
  | ok r =>
      cases hfound : r.1 <;>
      simp [main, hfail, hhelp, hversion, hparsed, hnoDecrypt, hne, hbin, hstart.runNode,
        hengine, getCommand, Outcome.andThen_of_ok hresult, hresult, hfound, Except.map]

/-- Without such a code it makes one paste of the input. -/
theorem main_of_no_code (hconf : Configured file conf host port) (hstart : start.Succeeds)
    (h : Proper opts) (hcode : (lastCode opts).getD [] = []) :
    main connect start storage file opts stdin s =
      let params := paramsFromArgs storage (parseArgs opts)
      let o := BinOperations.pasteStream (connect host port) conf storage stdin params s
      ⟨o.state, .readInput :: .paste stdin params :: o.events.map .inner,
        o.result.map fun uri => (.uri (uri ++ ['\n']), if uri.isEmpty then 1 else 0)⟩ := by
  obtain ⟨hfail, hhelp, hversion, hparsed, _⟩ := parseArgs_of_proper h
  have hbin := newBin_of_configured hconf connect start
  have hengine : initCiphers start = (pure () : Code σ Unit) := by
    rw [initCiphers, hstart.checkEngine]
  rw [hcode] at hparsed
  cases hresult : (BinOperations.pasteStream (connect host port) conf storage stdin
      (paramsFromArgs storage (parseArgs opts)) s).result with
  | error e =>
      simp [main, hfail, hhelp, hversion, hparsed, hbin, hstart.runNode, hengine,
        pasteCommand, Outcome.andThen_of_error hresult, hresult, Except.map]
  | ok uri =>
      simp [main, hfail, hhelp, hversion, hparsed, hbin, hstart.runNode, hengine,
        pasteCommand, Outcome.andThen_of_ok hresult, hresult, Except.map]

end Branches

section Orders

/-- What the program does depends on which flags occur, on the argument of the last get
option and on the recipients in their order: not on the order of the options otherwise, and
not on how often they are given. -/
theorem main_of_sameOptions {opts' : List Opt} (h : SameOptions opts opts') :
    main connect start storage file opts stdin = main connect start storage file opts' stdin := by
  by_cases hvalid : .invalid ∈ opts
  · have hvalid' := (h.flags .invalid rfl rfl).mp hvalid
    funext s
    simp only [main, parseArgs, parseFrom_fail hvalid, parseFrom_fail hvalid', if_true]
  · unfold main
    rw [h.parseArgs_eq hvalid]

theorem main_of_sameOptions_sample :
    main (fun _ _ => sampleEnv 0) ⟨.ok (), none⟩ ⟨0, false, false⟩ none
        [.get "a".toList, .noDecrypt, .recipients ['b'], .get "c".toList] [] =
      main (fun _ _ => sampleEnv 0) ⟨.ok (), none⟩ ⟨0, false, false⟩ none
        [.recipients ['b'], .get "c".toList, .noDecrypt, .noDecrypt] [] :=
  main_of_sameOptions
    { flags := by
        intro opt hcode hrecipient
        cases opt with
        | get => cases hcode
        | recipients => cases hrecipient
        | _ => simp
      code := by decide
      recipients := by decide }

end Orders

section Modes

theorem lastCode_eq_none_iff : lastCode opts = none ↔ ∀ code, .get code ∉ opts := by
  rw [lastCode, List.getLast?_eq_none_iff, List.filterMap_eq_nil_iff]
  constructor
  · intro h code hmem
    cases h _ hmem
  · intro h opt hmem
    cases opt with
    | get code => exact absurd hmem (h code)
    | _ => rfl

/-- With a get option the run is one get of the last code, which publishes nothing. Without
one it is one paste of the input, which looks nothing up. -/
structure KeepsMode (env : Env σ) (conf : StringMap) (storage : Storage) (opts : List Opt)
    (stdin : Blob) (s : σ) (o : Outcome σ MainEvent Exn (Output × Nat)) : Prop where
  get : ∀ code, lastCode opts = some code →
    let got := BinOperations.get env code (decide (.noDecrypt ∈ opts)) s
    o = ⟨got.state, .get code (decide (.noDecrypt ∈ opts)) :: got.events.map .inner,
        got.result.map fun r =>
          (.content (if r.1 then r.2 else []), if r.1 then 0 else 1)⟩ ∧
      ∀ e, .inner e ∈ o.events → ¬e.IsPublication
  paste : (∀ code, .get code ∉ opts) →
    let params := paramsFromArgs storage (parseArgs opts)
    let pasted := BinOperations.pasteStream env conf storage stdin params s
    o = ⟨pasted.state, .readInput :: .paste stdin params :: pasted.events.map .inner,
        pasted.result.map fun uri => (.uri (uri ++ ['\n']), if uri.isEmpty then 1 else 0)⟩ ∧
      ∀ e, .inner e ∈ o.events → ¬e.IsLookup

theorem keepsMode_of_code {env : Env σ} {conf : StringMap} {code : Text}
    {o : Outcome σ MainEvent Exn (Output × Nat)} (hcode : lastCode opts = some code) :
    let got := BinOperations.get env code (decide (.noDecrypt ∈ opts)) s
    o = ⟨got.state, .get code (decide (.noDecrypt ∈ opts)) :: got.events.map .inner,
        got.result.map fun r =>
          (.content (if r.1 then r.2 else []), if r.1 then 0 else 1)⟩ →
      KeepsMode env conf storage opts stdin s o := by
  intro got ho
  constructor
  · intro code' hcode'
    obtain rfl : code = code' := Option.some.inj (hcode.symm.trans hcode')
    refine ⟨ho, ?_⟩
    intro e he
    rw [ho] at he
    have hinner : e ∈ got.events := by simpa using he
    exact (PasteAndGet.confined_get env (f := fun _ => ()) (fun _ _ => rfl) (fun _ _ => rfl)
      code _ s).2 e hinner
  · intro hnone
    rw [lastCode_eq_none_iff.mpr hnone] at hcode
    cases hcode

theorem keepsMode_of_no_code {env : Env σ} {conf : StringMap}
    {o : Outcome σ MainEvent Exn (Output × Nat)} (hcode : lastCode opts = none) :
    let params := paramsFromArgs storage (parseArgs opts)
    let pasted := BinOperations.pasteStream env conf storage stdin params s
    o = ⟨pasted.state, .readInput :: .paste stdin params :: pasted.events.map .inner,
        pasted.result.map fun uri => (.uri (uri ++ ['\n']), if uri.isEmpty then 1 else 0)⟩ →
      KeepsMode env conf storage opts stdin s o := by
  intro params pasted ho
  constructor
  · intro code hcode'
    rw [hcode] at hcode'
    cases hcode'
  · intro _
    refine ⟨ho, ?_⟩
    intro e he
    rw [ho] at he
    have hinner : e ∈ pasted.events := by simpa using he
    exact (PasteAndGet.confined_paste env (f := fun _ => ()) (fun _ => rfl) (fun _ _ _ => rfl)
      (fun _ _ _ => rfl) conf storage _ params s).2 e hinner

/-- When the program has come up, `main` keeps to the command of the options exactly when
the last code is not empty. If it does not come up, or an option makes it return early, it
runs neither command. -/
theorem command_modes (connect : Text → Text → Env σ) (start : Startup) (storage : Storage)
    (file : Option Text) (opts : List Opt) (stdin : Blob) (s : σ) :
    let o := main connect start storage file opts stdin s
    ∃ conf host port, Configured file conf host port ∧
      (start.Succeeds →
        ((Proper opts → KeepsMode (connect host port) conf storage opts stdin s o) ↔
          (Proper opts → lastCode opts ≠ some []))) ∧
      (¬start.Succeeds ∨ ¬Proper opts → o.events = []) := by
  intro o
  obtain ⟨conf, host, port, hconf, _⟩ := exists_configured file
  refine ⟨conf, host, port, hconf, fun hstart => forall_congr' fun hproper => ?_, ?_⟩
  · constructor
    · intro h hempty
      have hget := congrArg Outcome.events (h.get [] hempty).1
      change (main connect start storage file opts stdin s).events = _ at hget
      rw [main_of_no_code hconf hstart hproper (by rw [hempty, Option.getD_some])] at hget
      cases hget
    · intro hcode
      cases hlast : lastCode opts with
      | some code =>
          have hne : code ≠ [] := by
            rintro rfl
            exact hcode hlast
          exact keepsMode_of_code hlast (main_of_code hconf hstart hproper hlast hne)
      | none =>
          refine keepsMode_of_no_code hlast (main_of_no_code hconf hstart hproper ?_)
          rw [hlast, Option.getD_none]
  · rintro (h | h)
    · exact events_of_not_succeeds h
    · exact events_of_not_proper h

/-- With an empty code `main` pastes its input. -/
theorem command_modes_counterexample :
    Proper [.get []] ∧ lastCode [.get []] = some [] ∧
      ∃ bytes, ({ data := [0x64, 0x0A] } : Packet).serialize = .ok bytes ∧
        (main (fun _ _ => sampleEnv 0) ⟨.ok (), none⟩ ⟨0, false, false⟩ none [.get []]
          [0x64, 0x0A] (World.initial 42)).events =
            [.readInput, .paste [0x64, 0x0A] none, .inner (.newCipher .NONE),
              .inner (.message BinOperations.pastingText),
              .inner (.httpPut "0000002A".toList bytes true)] ∧
        ¬KeepsMode (sampleEnv 0) defaults ⟨0, false, false⟩ [.get []] [0x64, 0x0A]
          (World.initial 42)
          (main (fun _ _ => sampleEnv 0) ⟨.ok (), none⟩ ⟨0, false, false⟩ none [.get []]
            [0x64, 0x0A] (World.initial 42)) := by
  have hproper : Proper [.get []] := ⟨by decide, by decide, by decide⟩
  have hconf : Configured none defaults "127.0.0.1".toList "6509".toList :=
    ⟨⟨1, rfl⟩, rfl, rfl⟩
  have hread : BinOperations.dataFromStream [0x64, 0x0A] = [0x64, 0x0A] :=
    StreamPastes.dataFromStream_eq_self_iff.mpr (by decide)
  refine ⟨hproper, rfl, _, rfl, ?_, ?_⟩
  · rw [main_of_no_code hconf ⟨rfl, rfl⟩ hproper rfl]
    simp only [BinOperations.pasteStream, hread]
    rfl
  · rw [main_of_no_code hconf ⟨rfl, rfl⟩ hproper rfl]
    intro h
    have hevents := congrArg Outcome.events (h.get [] rfl).1
    cases hevents

end Modes

end Dpaste.CommandModes
