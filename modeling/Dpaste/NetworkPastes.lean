import Dpaste.NetworkTransports

/-!
Pastes and gets of any number of processes on the network, in every order of their steps.
-/

namespace Dpaste.NetworkPastes

open Dpaste.InteractivePrograms
open Dpaste.ConcurrentParties
open Dpaste.LabelledRuns
open Dpaste.LibraryInterfaces
open Dpaste.CipherParameters
open Dpaste.CipherSelection
open Dpaste.LocationCodes
open Dpaste.BinOperations
open Dpaste.PasteAndGet
open Dpaste.HttpService
open Dpaste.SecludedParts
open Dpaste.ClientScripts
open Dpaste.SharedTransports
open Dpaste.PlainRoundTrip
open Dpaste.ConcurrentClients
open Dpaste.ConcurrentReading
open Dpaste.NetworkTransports

abbrev Clients (ι : Type) := System ι Task Event Exn Call.Reply Returned Servers

variable {ι : Type} [DecidableEq ι] {http : HttpLibraries Unit}

/-- Runs on a network that may lose what it stores, and on one that does not. -/
abbrev NetworkRuns (http : HttpLibraries Unit) (s : Clients ι) (ls : Trace ι Text)
    (s' : Clients ι) : Prop :=
  Run (Step program (network http False)) s ls s'

theorem runs_of_network (hhttp : Documented http) {s s' : Clients ι} {ls : Trace ι Text}
    (h : NetworkRuns http s ls s') : Runs http.infoHash (s.map visible) ls (s'.map visible) :=
  (network_refines hhttp False).run h

section Sample

def aesPaste : Task :=
  .paste (sampleLibraries 0) [] ⟨Scheme.NONE.toInt, false, false⟩ [0x61] (some (.aes ⟨[]⟩))

def aesGet : Task := .get (sampleLibraries 1) "dpaste:0000002A0000002A".toList false

end Sample

section Results

variable {s s' s₁ s₂ : Clients ι} {ls ls₁ ls₂ : Trace ι Text} {i j : ι} {lib rlib : Libraries}
  {conf : StringMap} {storage : Storage} {data : Blob} {params : Option Parameters}
  {uri uri' : Text} {noDecrypt : Bool}

/-- The service or the DHT is given the value to store, and the party is told that it is
taken. -/
inductive Taken (http : HttpLibraries Unit) (i : ι) (code : Text) (bytes : Blob) (n : Servers) :
    Label ι Task Event Exn Call.Reply Returned (Option (Text × Blob)) → Servers → Prop
  | service : Taken http i code bytes n (.asks i (.httpPut code bytes) true)
      (n.putService (http.infoHash code) (Node.pastedValue bytes))
  | dht : Taken http i code bytes n (.asks i (.nodePaste code bytes) true)
      (n.putDht (http.infoHash code) (Node.pastedValue bytes))

/-- Of the calls of a paste that succeeds there is one at which the packet is taken. -/
theorem taken_of_delivers {before during after : Trace ι Text} {code : Text} {bytes : Blob}
    (h : NetworkRuns http s (before ++ (during ++ after)) s')
    (hdelivers : Delivers code bytes (turns i during)) :
    ∃ earlier l later m m', during = earlier ++ l :: later ∧
      NetworkRuns http s (before ++ earlier) m ∧ Step program (network http False) m l m' ∧
      Taken http i code bytes m.net l m'.net := by
  have hsplit {l : Label ι Task Event Exn Call.Reply Returned (Option (Text × Blob))}
      (hl : l ∈ during) : ∃ earlier later m m', during = earlier ++ l :: later ∧
        NetworkRuns http s (before ++ earlier) m ∧ Step program (network http False) m l m' := by
    obtain ⟨earlier, later, rfl⟩ := List.append_of_mem hl
    have hrun : NetworkRuns http s (before ++ earlier ++ l :: (later ++ after)) s' := by
      simpa using h
    obtain ⟨m, m', hfirst, hstep, _⟩ := hrun.step_inv
    exact ⟨earlier, later, m, m', rfl, hfirst, hstep⟩
  obtain ⟨draws, _, hservice | hdht⟩ := hdelivers
  · have hmem : ⟨.httpPut code bytes, true⟩ ∈ turns i during := by simp [hservice]
    obtain ⟨earlier, later, m, m', hduring, hrun, hstep⟩ := hsplit (asks_of_mem_turns hmem)
    refine ⟨earlier, _, later, m, m', hduring, hrun, hstep, ?_⟩
    rw [Carried.httpPut_inv hstep.asks_inv.2]
    exact .service
  · have hmem : ⟨.nodePaste code bytes, true⟩ ∈ turns i during := by simp [hdht]
    obtain ⟨earlier, later, m, m', hduring, hrun, hstep⟩ := hsplit (asks_of_mem_turns hmem)
    refine ⟨earlier, _, later, m, m', hduring, hrun, hstep, ?_⟩
    rw [Carried.nodePaste_inv hstep.asks_inv.2]
    exact .dht

/-- A paste returns a URI only after the service has taken its packet, or has refused it and
the DHT has taken it, as a value of the program's user type under the hash of the location
code. The paste has made no other call but its draws. -/
theorem paste_acknowledged (h : NetworkRuns http s ls s') (hidle : s.parties i = .idle)
    (hpaste : .ends i (.paste lib conf storage data params) (.ok (.uri uri)) ∈ ls)
    (hne : uri ≠ []) :
    ∃ code pwd bytes before during after,
      Pasteable lib conf storage data params code pwd bytes ∧
      uri = DPASTE_URI_PREFIX ++ code ++ pwd ∧
      ls = before ++ .begins i (.paste lib conf storage data params) :: (during ++
        .ends i (.paste lib conf storage data params) (.ok (.uri uri)) :: after) ∧
      Delivers code bytes (turns i during) ∧
      ∃ earlier l later m m', during = earlier ++ l :: later ∧
        NetworkRuns http s
          (before ++ .begins i (.paste lib conf storage data params) :: earlier) m ∧
        Step program (network http False) m l m' ∧ Taken http i code bytes m.net l m'.net := by
  obtain ⟨before, during, after, rfl, hleads⟩ := run_leads hidle h hpaste
  obtain ⟨uri', first, last, hturns, hpasted, rfl, huri⟩ := Leads.bind_ok hleads
  obtain rfl := Returned.uri.inj (Except.ok.inj huri)
  obtain ⟨code, pwd, bytes, hpasteable, rfl, hdelivers⟩ := paste_leads lib conf storage data
    params hpasted hne
  rw [← List.append_nil first, ← hturns] at hdelivers
  refine ⟨code, pwd, bytes, before, during, after, hpasteable, rfl, rfl, hdelivers, ?_⟩
  rw [List.append_cons] at h
  obtain ⟨earlier, l, later, m, m', hduring, hrun, htaken⟩ := taken_of_delivers h hdelivers
  rw [← List.append_cons] at hrun
  exact ⟨earlier, l, later, m, m', hduring, hrun, htaken⟩

theorem paste_acknowledged_sample :
    ∃ code pwd bytes before during after,
      Pasteable (sampleLibraries 0) [] ⟨Scheme.NONE.toInt, false, false⟩ [0x61]
        (some (.aes ⟨[]⟩)) code pwd bytes ∧
      "dpaste:0000002A0000002A".toList = DPASTE_URI_PREFIX ++ code ++ pwd ∧
      sampleLabels program false aesPaste .empty =
        before ++ .begins false aesPaste :: (during ++ .ends false aesPaste
          (.ok (.uri "dpaste:0000002A0000002A".toList)) :: after) ∧
      Delivers code bytes (turns false during) := by
  obtain ⟨code, pwd, bytes, before, during, after, hpasteable, huri, hlabels, hdelivers, _⟩ :=
    paste_acknowledged (sample_run program False false aesPaste (s := System.resting .empty) rfl)
      rfl (ends_mem_sample program false aesPaste .empty) (List.cons_ne_nil _ _)
  exact ⟨code, pwd, bytes, before, during, after, hpasteable, huri, hlabels, hdelivers⟩

/-- Nothing comes from nowhere: what a get brings is made from nothing, from a value of the
program's user type that somebody else stored under the hash of the location code, or from
the packet of a paste that has begun, under a location code with this hash. -/
theorem content_comes_from_paste (hhttp : Documented http)
    (h : NetworkRuns http (System.resting .empty) ls s') {found : Bool} {content : Blob}
    (hget : .ends j (.get rlib uri noDecrypt) (.ok (.content found content)) ∈ ls) :
    ∃ code raw, codeFromDpasteUri uri = .ok code ∧
      (afterLookups (secluded rlib) code noDecrypt raw ()).result = .ok (found, content) ∧
      (raw = [] ∨ .drifts (some (http.infoHash (code.take codeOffset), raw)) ∈ ls ∨
        ∃ i lib conf storage data params code' pwd,
          .begins i (.paste lib conf storage data params) ∈ ls ∧
            Pasteable lib conf storage data params code' pwd raw ∧
            http.infoHash code' = http.infoHash (code.take codeOffset)) :=
  content_of_pasted (runs_of_network hhttp h) hget

/-- The get finds what the paste before it has stored. -/
theorem content_comes_from_paste_sample :
    ∃ code raw, codeFromDpasteUri "dpaste:0000002A0000002A".toList = .ok code ∧
      (afterLookups (secluded (sampleLibraries 1)) code false raw ()).result =
        .ok (true, [0x61]) ∧
      (raw = [] ∨
        .drifts (some (sampleHttp.infoHash (code.take codeOffset), raw)) ∈
          sampleTrace program aesPaste aesGet ∨
        ∃ i lib conf storage data params code' pwd,
          .begins i (.paste lib conf storage data params) ∈
              sampleTrace program aesPaste aesGet ∧
            Pasteable lib conf storage data params code' pwd raw ∧
            sampleHttp.infoHash code' = sampleHttp.infoHash (code.take codeOffset)) :=
  content_comes_from_paste documented_sampleHttp
    (sampleTrace_run program False aesPaste aesGet) (second_ends rfl)

/-- Where only readable pastes without encryption are stored, a get of a code without a
password brings exactly the data of one of these pastes, or nothing. -/
theorem get_brings_some_paste (hhttp : Documented http)
    (h : NetworkRuns http (System.resting .empty) ls s') {found : Bool} {content : Blob}
    {code : Text} (hget : .ends j (.get rlib uri noDecrypt) (.ok (.content found content)) ∈ ls)
    (hcode : codeFromDpasteUri uri = .ok code) (hlen : code.length ≠ AES.PIN_WITH_PASS_LEN)
    (hothers : ∀ change, .drifts (some change) ∉ ls)
    (hplain : ∀ i lib conf storage data params,
      .begins i (.paste lib conf storage data params) ∈ ls →
        Unencrypted storage params ∧ Readable lib rlib storage data noDecrypt params) :
    found = true ∧ (content = [] ∨ ∃ i lib conf storage params code' pwd bytes,
      .begins i (.paste lib conf storage content params) ∈ ls ∧
        Pasteable lib conf storage content params code' pwd bytes ∧
        http.infoHash code' = http.infoHash (code.take codeOffset)) :=
  data_of_some_paste (runs_of_network hhttp h) hget hcode hlen hothers hplain

def plainPaste : Task :=
  .paste (sampleLibraries 0) [] ⟨Scheme.NONE.toInt, false, false⟩ [0x61] none

def plainGet : Task := .get (sampleLibraries 1) "0000002A".toList false

theorem get_brings_some_paste_sample :
    ∃ found content, .ends true plainGet (.ok (.content found content)) ∈
        sampleTrace program plainPaste plainGet ∧
      found = true ∧ (content = [] ∨ ∃ i lib conf storage params code' pwd bytes,
        .begins i (.paste lib conf storage content params) ∈
            sampleTrace program plainPaste plainGet ∧
          Pasteable lib conf storage content params code' pwd bytes ∧
          sampleHttp.infoHash code' =
            sampleHttp.infoHash ("0000002A".toList.take codeOffset)) := by
  have hget : .ends true plainGet (.ok (.content true [0x61])) ∈
      sampleTrace program plainPaste plainGet := second_ends rfl
  refine ⟨true, [0x61], hget, get_brings_some_paste documented_sampleHttp
    (sampleTrace_run program False plainPaste plainGet) hget rfl (by decide) ?_ ?_⟩
  · intro change h
    rcases mem_sampleTrace h with h | h | ⟨_, _, h⟩ <;> cases h
  · intro i lib conf storage data params h
    rcases mem_sampleTrace h with h | h | ⟨_, _, h⟩
    · cases h
      exact ⟨rfl, rfl, .inl (by decide), fun _ _ _ => rfl⟩
    · cases h
    · cases h

end Results

end Dpaste.NetworkPastes
