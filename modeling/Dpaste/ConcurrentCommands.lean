import Dpaste.CommandScripts
import Dpaste.ConcurrentReading

/-!
Any number of runs of the program at the same time, with any command lines, standard inputs
and configuration files that name the same service.
-/

namespace Dpaste.ConcurrentCommands

open Dpaste.EffectTraces
open Dpaste.InteractivePrograms
open Dpaste.ConcurrentParties
open Dpaste.LabelledRuns
open Dpaste.LibraryInterfaces
open Dpaste.CommandLine
open Dpaste.LocationCodes
open Dpaste.BinOperations
open Dpaste.PasteAndGet
open Dpaste.MainProgram
open Dpaste.CommandModes
open Dpaste.StreamPastes
open Dpaste.TransportStores
open Dpaste.SecludedParts
open Dpaste.ClientScripts
open Dpaste.SharedTransports
open Dpaste.CommandScripts
open Dpaste.ConcurrentClients
open Dpaste.ConcurrentReading

/-- A run of the program that uses the transports for this host and this port. -/
abbrev Process (host port : Text) := { x : Invocation // x.Uses host port }

variable {host port : Text}

def command (x : Process host port) : Command (Output × Nat) := mainScript x.1

/-- The text of the location code and the password, after the prefix, at the end of a line. -/
def uriLine (code pwd : Text) : Text := DPASTE_URI_PREFIX ++ code ++ pwd ++ ['\n']

/-- The bytes of a packet of the first 64 kB of the input, where the options, the node and
the engine let `main` get to a paste. -/
structure Pastes (x : Invocation) (code pwd : Text) (bytes : Blob) : Prop where
  proper : Proper x.opts
  mode : (lastCode x.opts).getD [] = []
  starts : x.start.Succeeds
  packet : Pasteable x.lib x.conf x.storage (x.stdin.take MAX_VALUE_SIZE) x.params code pwd bytes

/-- What `main` prints and returns for what a get brings. -/
def answered (r : Bool × Blob) : Output × Nat :=
  (.content (if r.1 then r.2 else []), if r.1 then 0 else 1)

section Contracts

variable {K : Type} [DecidableEq K] (key : Text → K)

omit [DecidableEq K] in
/-- A command hands over nothing but the packet of its input, and only if it is a paste. -/
theorem command_asks (x : Process host port) :
    Asks (fun q => ∀ code v, Call.Hands code v q → ∃ pwd, Pastes x.1 code pwd v)
      (fun _ => True) (command x) := by
  unfold command
  by_cases hproper : Proper x.1.opts
  · rw [mainScript_of_proper hproper]
    refine Asks.bind ((startScript_asks x.2).mono (fun _ hq => absurd hq id) fun _ hr => hr) ?_
      fun _ _ => trivial
    rintro conf (⟨hstart, hconf⟩ | ⟨-, e, herror⟩)
    · obtain rfl := Except.ok.inj hconf
      by_cases hmode : (lastCode x.1.opts).getD [] = []
      · rw [if_pos hmode]
        refine Asks.bind (((paste_asks _ _ _ _ _).rename MainEvent.inner).mono ?_ fun _ hx => hx)
          (fun _ _ => trivial) fun _ _ => trivial
        intro q hq code v hhands
        obtain ⟨pwd, hpasteable⟩ := hq code v hhands
        rw [dataFromStream_eq] at hpasteable
        exact ⟨pwd, hproper, hmode, hstart, hpasteable⟩
      · rw [if_neg hmode]
        exact Asks.bind (((get_asks _ _ _).rename MainEvent.inner).mono
          (fun q hq code v hhands => absurd hhands (hq code v)) fun _ hx => hx)
          (fun _ _ => trivial) fun _ _ => trivial
    · cases herror
  · obtain ⟨out, rc, hscript, -⟩ := mainScript_of_not_proper hproper
    rw [hscript]
    trivial

/-- The contract of a command. With the exit code 0, the packet of a printed URI is stored
under its location code. What is printed for a code is made from a value that is stored under
the location code, or from nothing. -/
structure Post (x : Process host port) (r : Except Exn (Output × Nat)) (stop : Stores K) :
    Prop where
  pasted : ∀ line, r = .ok (.uri line, 0) →
    ∃ code pwd bytes, Pastes x.1 code pwd bytes ∧ line = uriLine code pwd ∧
      stop.Holds (key code) bytes
  got : ∀ content rc, r = .ok (.content content, rc) →
    ∃ code raw result, codeFromDpasteUri ((lastCode x.1.opts).getD []) = .ok code ∧
      (raw = [] ∨ stop.Holds (key (code.take codeOffset)) raw) ∧
      (afterLookups (secluded x.1.lib) code (decide (.noDecrypt ∈ x.1.opts)) raw ()).result =
        .ok result ∧ (.content content, rc) = answered result

end Contracts

section Runs

variable {ι K : Type} [DecidableEq ι] [DecidableEq K] {key : Text → K}

abbrev Commands (host port : Text) (ι ν : Type) :=
  System ι (Process host port) MainEvent Exn Call.Reply (Output × Nat) ν

abbrev CommandTrace (host port : Text) (ι K : Type) :=
  List (Label ι (Process host port) MainEvent Exn Call.Reply (Output × Nat) (Option (K × Blob)))

variable {s₁ s₂ : Commands host port ι (Stores K)} {ls₁ ls₂ : CommandTrace host port ι K}
  {i j : ι} {x y : Process host port} {uri uri' : Text}

/-- Whatever is handed to a transport comes from another user, or it is the packet of the
input of a process whose options ask for a paste. -/
theorem handed_by_paste (h : Run (Step command (transports key)) s₁ ls₁ s₂)
    (hidle : ∀ i, s₁.parties i = .idle) {k : K} {v : Blob} (hhanded : Handed key ls₁ k v) :
    .drifts (some (k, v)) ∈ ls₁ ∨
      ∃ i x code pwd, .begins i x ∈ ls₁ ∧ Pastes x.1 code pwd v ∧ key code = k := by
  rcases hhanded.cases with hdrift | ⟨i, code, q, answer, hhands, hkey, hmem⟩
  · exact .inl hdrift
  · obtain ⟨x, hbegins, hx⟩ := run_asks command_asks (hidle i) h hmem
    obtain ⟨pwd, hpastes⟩ := hx code v hhands
    exact .inr ⟨i, x, code, pwd, hbegins, hpastes, hkey⟩

/-- A process hands over what it does for the run that it has begun last, and the options of
this run ask for a paste. -/
theorem pastes_of_hands {first after : CommandTrace host port ι K} {q : Call}
    {answer : q.Reply} {code : Text} {v : Blob} (hidle : s₁.parties i = .idle)
    (h : Run (Step command (transports key)) s₁ (first ++ .asks i q answer :: after) s₂)
    (hhands : Call.Hands code v q) :
    ∃ before x during pwd, first = before ++ .begins i x :: during ∧
      (∀ y, .begins i y ∉ during) ∧ Pastes x.1 code pwd v := by
  obtain ⟨before, x, during, hfirst, hlast, hx⟩ := run_asks_last command_asks hidle h
  obtain ⟨pwd, hpastes⟩ := hx code v hhands
  exact ⟨before, x, during, pwd, hfirst, hlast, hpastes⟩

end Runs

end Dpaste.ConcurrentCommands
