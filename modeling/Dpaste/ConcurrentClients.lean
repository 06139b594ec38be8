import Dpaste.PacketPreparation
import Dpaste.PasteSequences
import Dpaste.SharedTransports

/-!
Any number of processes that paste and get at the same time, on transports that they share
with other users. What holds of every paste and every get in every order of their steps.
-/

namespace Dpaste.ConcurrentClients

open Dpaste.InteractivePrograms
open Dpaste.ConcurrentParties
open Dpaste.LabelledRuns
open Dpaste.LibraryInterfaces
open Dpaste.CipherParameters
open Dpaste.LocationCodes
open Dpaste.BinOperations
open Dpaste.PasteAndGet
open Dpaste.SecludedParts
open Dpaste.ClientScripts
open Dpaste.SharedTransports
open Dpaste.PasteSequences (locationCode locationCode_uri)

/-- One operation of a process, with the libraries and the configuration it runs on. -/
inductive Task
  | paste (lib : Libraries) (conf : StringMap) (storage : Storage) (data : Blob)
      (params : Option Parameters)
  | get (lib : Libraries) (uri : Text) (noDecrypt : Bool)

inductive Returned
  | uri (uri : Text)
  | content (found : Bool) (data : Blob)

def program : Task → Client Returned
  | .paste lib conf storage data params => do
      let uri ← pasteScript lib conf storage data params
      pure (.uri uri)
  | .get lib uri noDecrypt => do
      let r ← getScript lib uri noDecrypt
      pure (.content r.1 r.2)

variable {ι K : Type} [DecidableEq ι] [DecidableEq K] (key : Text → K)

abbrev Network (ι K : Type) := System ι Task Event Exn Call.Reply Returned (Stores K)

abbrev Trace (ι K : Type) := List (Label ι Task Event Exn Call.Reply Returned (Option (K × Blob)))

/-- Runs of the processes on the transports, and those in which all that is stored can be
found. -/
abbrev Runs (s : Network ι K) (ls : Trace ι K) (s' : Network ι K) : Prop :=
  Run (Step program (transports key)) s ls s'

section Contracts

/-- The contracts of the two operations: what the stores are when they end. -/
def Post : Task → Stores K → Except Exn Returned → Stores K → Prop
  | .paste lib conf storage data params, _, x, stop =>
      ∀ uri, x = .ok (.uri uri) → uri ≠ [] →
        ∃ code pwd bytes, Pasteable lib conf storage data params code pwd bytes ∧
          uri = DPASTE_URI_PREFIX ++ code ++ pwd ∧ stop.Holds (key code) bytes
  | .get lib uri noDecrypt, _, x, stop =>
      ∀ found content, x = .ok (.content found content) →
        ∃ code raw, codeFromDpasteUri uri = .ok code ∧
          (raw = [] ∨ stop.Holds (key (code.take codeOffset)) raw) ∧
          (afterLookups (secluded lib) code noDecrypt raw ()).result = .ok (found, content)

theorem program_meets (task : Task) (n : Stores K) :
    Meets (transports key) (Post key task n) (program task) n := by
  cases task with
  | paste lib conf storage data params =>
      refine Meets.bind (paste_meets key lib conf storage data params) ?_ ?_
      · intro uri n₁ _ hpost stop hstop uri' huri' hne
        cases huri'
        obtain ⟨code, pwd, bytes, hpasteable, huri, hholds⟩ := hpost uri rfl hne
        exact ⟨code, pwd, bytes, hpasteable, huri, (extends_of_reaches hstop).holds hholds⟩
      · intro e _ _ _ uri huri
        cases huri
  | get lib uri noDecrypt =>
      refine Meets.bind (get_meets key lib uri noDecrypt) ?_ ?_
      · intro r n₁ _ hpost stop hstop found content hr
        cases hr
        obtain ⟨code, raw, hcode, hraw, hresult⟩ := hpost r rfl
        exact ⟨code, raw, hcode, hraw.imp id (extends_of_reaches hstop).holds, hresult⟩
      · intro e _ _ _ found content hr
        cases hr

theorem program_asks (task : Task) :
    Asks (fun q => ∀ code v, Call.Hands code v q → ∃ lib conf storage data params pwd,
        task = .paste lib conf storage data params ∧
          Pasteable lib conf storage data params code pwd v)
      (fun _ => True) (program task) := by
  cases task with
  | paste lib conf storage data params =>
      refine Asks.bind ((paste_asks lib conf storage data params).mono
        (fun q hq code v h => ?_) fun _ hx => hx) (fun _ _ => trivial) fun _ _ => trivial
      obtain ⟨pwd, hpasteable⟩ := hq code v h
      exact ⟨lib, conf, storage, data, params, pwd, rfl, hpasteable⟩
  | get lib uri noDecrypt =>
      exact Asks.bind ((get_asks lib uri noDecrypt).mono
        (fun q hq code v h => absurd h (hq code v)) fun _ hx => hx) (fun _ _ => trivial)
          fun _ _ => trivial

end Contracts

section Safety

variable {key} {s s' : Network ι K} {ls : Trace ι K} {i j : ι} {lib : Libraries}
  {conf : StringMap} {storage : Storage} {data : Blob} {params : Option Parameters}
  {uri : Text} {noDecrypt : Bool}

/-- Nothing comes from nowhere: a get makes its content from nothing, from a value that
another user stored under the key of the location code, or from the packet of a paste that
has begun, under a location code with the same key. -/
theorem content_of_pasted (h : Runs key (System.resting .empty) ls s') {found : Bool}
    {content : Blob} (hend : .ends j (.get lib uri noDecrypt) (.ok (.content found content)) ∈ ls) :
    ∃ code raw, codeFromDpasteUri uri = .ok code ∧
      (afterLookups (secluded lib) code noDecrypt raw ()).result = .ok (found, content) ∧
      (raw = [] ∨ .drifts (some (key (code.take codeOffset), raw)) ∈ ls ∨
        ∃ i lib' conf storage data params code' pwd,
          .begins i (.paste lib' conf storage data params) ∈ ls ∧
            Pasteable lib' conf storage data params code' pwd raw ∧
            key code' = key (code.take codeOffset)) := by
  obtain ⟨_, stop, _, _, hlater, hpost⟩ := run_ends (program_meets key) rfl h hend
  obtain ⟨code, raw, hcode, hraw, hresult⟩ := hpost found content rfl
  refine ⟨code, raw, hcode, hresult, hraw.imp id fun hholds => ?_⟩
  have hnever : ¬(System.resting .empty : Network ι K).net.Holds (key (code.take codeOffset))
      raw := List.not_mem_nil
  have hhanded := (handed_of_holds h ((extends_of_reaches hlater).holds
    hholds)).resolve_left hnever
  rcases hhanded.cases with hdrift | ⟨i, code', q, answer, hhands, hkey, hmem⟩
  · exact .inl hdrift
  · obtain ⟨task, hbegins, htask⟩ := run_asks program_asks rfl h hmem
    obtain ⟨lib', conf, storage, data, params, pwd, rfl, hpasteable⟩ := htask code' raw hhands
    exact .inr ⟨i, lib', conf, storage, data, params, code', pwd, hbegins, hpasteable, hkey⟩

end Safety

end Dpaste.ConcurrentClients
