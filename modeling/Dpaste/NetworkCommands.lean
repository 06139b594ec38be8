import Dpaste.ConcurrentCommands
import Dpaste.NetworkTransports

/-!
Runs of the program at the same time, on the network.
-/

namespace Dpaste.NetworkCommands

open Dpaste.ConcurrentParties
open Dpaste.LabelledRuns
open Dpaste.LibraryInterfaces
open Dpaste.CommandLine
open Dpaste.LocationCodes
open Dpaste.BinOperations
open Dpaste.MainProgram
open Dpaste.CommandModes
open Dpaste.StreamPastes
open Dpaste.HttpService
open Dpaste.ClientScripts
open Dpaste.SharedTransports
open Dpaste.CommandScripts
open Dpaste.ConcurrentClients
open Dpaste.ConcurrentReading
open Dpaste.ConcurrentCommands
open Dpaste.NetworkTransports

variable {host port : Text} {ι : Type} [DecidableEq ι] {http : HttpLibraries Unit}
  {s s' s₁ s₂ : Commands host port ι Servers} {ls ls₁ ls₂ : CommandTrace host port ι Text}
  {i j : ι} {x y : Process host port} {uri uri' : Text}

/-- The processes of the samples: the first one pastes its input with a password, and the
second one gets it back. -/
def sampleProcess (salt : UInt8) (opts : List Opt) (stdin : Blob) :
    Process "127.0.0.1".toList "6509".toList :=
  ⟨⟨sampleLibraries salt, ⟨.ok (), none⟩, ⟨Scheme.NONE.toInt, false, false⟩, none, opts, stdin⟩,
    rfl, rfl⟩

def writer : Process "127.0.0.1".toList "6509".toList :=
  sampleProcess 0 [.aesEncrypt] [0x64, 0x0A]

def reader : Process "127.0.0.1".toList "6509".toList :=
  sampleProcess 1 [.get "0000002A0000002A".toList] []

theorem writer_script :
    command writer = startScript writer.1 >>= fun conf =>
      .tell .readInput (.tell (.paste writer.1.stdin writer.1.params)
        ((pasteScript writer.1.lib conf writer.1.storage writer.1.stdin writer.1.params).rename
          MainEvent.inner >>= fun uri =>
            pure (.uri (uri ++ ['\n']), if uri.isEmpty then 1 else 0))) := by
  have hstdin : dataFromStream writer.1.stdin = writer.1.stdin :=
    dataFromStream_eq_self_iff.mpr (by decide)
  rw [command, mainScript_of_proper ⟨by decide, by decide, by decide⟩]
  simp only [pasteCommandScript, hstdin]
  rfl

theorem writer_hands_one :
    ∃ k v, (sampleTrace command writer reader).flatMap (handings id) = [(k, v)] := by
  unfold sampleTrace sampleLabels sampleNext
  rw [writer_script]
  exact ⟨_, _, rfl⟩

/-- What the runs hand to the service or the DHT is the packet of the first 64 kB of the input
of one of them, prepared with the parameters of its options. This run has come up, it has no
invalid option, asks neither for the help nor for the version, and its last code, if there is
one, is empty. A process that hands something over does so for such a run, which it has begun
last. -/
theorem handed_from_input (hhttp : Documented http)
    (h : Run (Step command (network http False)) s ls s') (hidle : ∀ i, s.parties i = .idle) :
    (∀ hash v, Handed http.infoHash ls hash v →
        .drifts (some (hash, v)) ∈ ls ∨
          ∃ i x code pwd, .begins i x ∈ ls ∧ Pastes x.1 code pwd v ∧
            http.infoHash code = hash) ∧
      ∀ i q answer code v first after, ls = first ++ .asks i q answer :: after →
        Call.Hands code v q →
        ∃ before x during pwd, first = before ++ .begins i x :: during ∧
          (∀ y, .begins i y ∉ during) ∧ Pastes x.1 code pwd v := by
  have hrun := (network_refines hhttp False).run h
  constructor
  · intro hash v hhanded
    exact handed_by_paste hrun hidle hhanded
  · rintro i q answer code v first after rfl hhands
    exact pastes_of_hands (hidle i) hrun hhands

theorem handed_from_input_sample :
    ∃ hash v, Handed id (sampleTrace command writer reader) hash v ∧
      (.drifts (some (hash, v)) ∈ sampleTrace command writer reader ∨
        ∃ i x code pwd, .begins i x ∈ sampleTrace command writer reader ∧
          Pastes x.1 code pwd v ∧ code = hash) := by
  obtain ⟨hash, v, hone⟩ := writer_hands_one
  have hhanded : Handed id (sampleTrace command writer reader) hash v := by
    unfold Handed
    rw [hone]
    exact List.mem_singleton_self _
  exact ⟨hash, v, hhanded, (handed_from_input documented_sampleHttp
    (sampleTrace_run command False writer reader) fun _ => rfl).1 hash v hhanded⟩

end Dpaste.NetworkCommands
