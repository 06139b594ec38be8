import Dpaste.LabelledRuns
import Dpaste.PinGenerator
import Dpaste.PlainRoundTrip

/-!
Sequences of pastes and gets by one process, on transports that are empty at the
start. Pastes with different location codes never shadow each other, but all pastes
of a process get the same location code.
-/

namespace Dpaste.PasteSequences

open Dpaste.LibraryInterfaces
open Dpaste.CipherParameters
open Dpaste.GpgCipher
open Dpaste.CipherSelection
open Dpaste.LocationCodes
open Dpaste.PacketEncoding
open Dpaste.BinOperations
open Dpaste.PacketPreparation
open Dpaste.PasteAndGet
open Dpaste.AppendOnlyStores
open Dpaste.TransportStores
open Dpaste.PlainRoundTrip
open Dpaste.PinGenerator
open Dpaste.LabelledRuns

inductive Op
  | paste (storage : Storage) (data : Blob) (params : Option Parameters)
  | get (uri : Text) (noDecrypt : Bool)

structure Pasted where
  uri : Text
  storage : Storage
  data : Blob
  params : Option Parameters

/-- The world, the pastes that have returned a URI, and the trace of a process. -/
structure Session (π : Type) where
  world : World π
  pasted : List Pasted
  events : List Event

def Session.initial {π : Type} (pins : π) : Session π := ⟨World.initial pins, [], []⟩

section Processes

variable {π : Type} (env : Env (World π)) (conf : StringMap)

def added (storage : Storage) (data : Blob) (params : Option Parameters) :
    Except Exn Text → List Pasted
  | .ok uri => if uri = [] then [] else [⟨uri, storage, data, params⟩]
  | .error _ => []

theorem length_added (storage : Storage) (data : Blob) (params : Option Parameters)
    (result : Except Exn Text) :
    (added storage data params result).length = uriCount result := by
  cases result with
  | error e => rfl
  | ok uri => by_cases huri : uri = [] <;> simp [added, uriCount, huri]

def perform (s : Session π) : Op → Session π
  | .paste storage data params =>
      let o := paste env conf storage data params s.world
      ⟨o.state, s.pasted ++ added storage data params o.result, s.events ++ o.events⟩
  | .get uri noDecrypt =>
      let o := get env uri noDecrypt s.world
      ⟨o.state, s.pasted, s.events ++ o.events⟩

def Process (s : Session π) (op : Op) (s' : Session π) : Prop := perform env conf s op = s'

end Processes

def locationCode (uri : Text) : Text := (uri.drop DPASTE_URI_PREFIX.length).take codeOffset

/-- A paste without encryption and signature, of data that is no PGP message. -/
def Plain (lib : Libraries) (x : Pasted) : Prop :=
  Unencrypted x.storage x.params ∧
    (∀ gp, x.params = some (.gpg gp) → gp.sign = false) ∧
    isGPGencrypted lib x.data = false

/-- No paste shadows another: their location codes are distinct, and each plain paste
can be read back. -/
def NoShadow {π : Type} (env : Env (World π)) (s : Session π) : Prop :=
  (s.pasted.map fun x => locationCode x.uri).Nodup ∧
    ∀ x ∈ s.pasted, Plain env.toLibraries x → ∀ noDecrypt,
      (get env x.uri noDecrypt s.world).result = .ok (true, x.data)

theorem locationCode_uri (pin : UInt32) (pwd : Text) :
    locationCode (DPASTE_URI_PREFIX ++ pinText pin ++ pwd) = pinText pin := by
  rw [locationCode, List.append_assoc, List.drop_left, take_pinText_append]

theorem packet_of_plain {σ : Type} {env : Env σ} {conf : StringMap} {storage : Storage}
    {data : Blob} {params : Option Parameters} {s : σ} {p : Packet} {pwd : Text}
    (hparams : Unencrypted storage params)
    (hsign : ∀ gp, params = some (.gpg gp) → gp.sign = false)
    (h : (prepareData env conf storage data params s).result = .ok (p, pwd)) :
    p = { data := data } ∧ pwd = [] := by
  rcases params with _ | gp | a
  · rw [prepareData_null env hparams, Except.ok.injEq, Prod.mk.injEq] at h
    exact ⟨h.1.symm, h.2.symm⟩
  · obtain ⟨_, g, _, _, _, _, hpwd, hpacket, _⟩ := gpgPacket_of_prepareData env h
    have hno : signs g gp = false := by simp [signs, hsign gp rfl]
    cases hpacket with
    | encrypted hrecipients | refused hrecipients => exact absurd hparams hrecipients
    | signed _ hyes => exact absurd (hno.symm.trans hyes) (by decide)
    | unsigned | plain => exact ⟨rfl, hpwd⟩
  · exact absurd hparams id

section Journals

variable {π : Type}

/-- The packet `bytes` under `code` is the one of the paste `x`. -/
def Carries (lib : Libraries) (x : Pasted) (code : Text) (bytes : Blob) : Prop :=
  ∃ (pin : UInt32) (p : Packet) (pwd : Text), code = pinText pin ∧
    x.uri = DPASTE_URI_PREFIX ++ code ++ pwd ∧
    p.serialize = .ok bytes ∧ (Plain lib x → p = { data := x.data } ∧ pwd = [])

/-- The stores hold exactly the packets of the pastes. -/
def Journal (lib : Libraries) (s : Session π) : Prop :=
  ∃ packets : List (Text × Blob), Record packets s.world.http s.world.dht ∧
    List.Forall₂ (fun x packet => Carries lib x packet.1 packet.2) s.pasted packets

variable (lib : Libraries) (draw : π → UInt32 × π) (t : Transports) (conf : StringMap)

theorem journal_initial (pins : π) : Journal lib (Session.initial pins) :=
  ⟨[], record_nil, .nil⟩

theorem journal_perform {s : Session π} (op : Op) (h : Journal lib s) :
    Journal lib (perform (storeEnv lib draw t) conf s op) := by
  obtain ⟨packets, hrecord, hcarries⟩ := h
  cases op with
  | get uri noDecrypt =>
      obtain ⟨hstores, _⟩ := get_stores lib draw t uri noDecrypt s.world
      obtain ⟨hhttp, hdht⟩ := Prod.mk.inj hstores
      refine ⟨packets, ?_, hcarries⟩
      simp only [perform, hhttp, hdht]
      exact hrecord
  | paste storage data params =>
      rcases paste_stores lib draw t conf storage data params s.world with
        ⟨p, pwd, bytes, hprep, hok, hstores⟩ | ⟨hnone, hstores⟩
      · refine ⟨packets ++ [(pinText (draw s.world.pins).1, bytes)], ?_, ?_⟩
        · rcases hstores with hstores | hstores
          · obtain ⟨hhttp, hdht⟩ := Prod.mk.inj hstores
            simp only [perform, hhttp, hdht]
            exact hrecord.deposit_left _ _
          · obtain ⟨hhttp, hdht⟩ := Prod.mk.inj hstores
            simp only [perform, hhttp, hdht]
            exact hrecord.deposit_right _ _
        · simp only [perform, hok, added, if_neg (uri_ne_nil _ _)]
          refine List.rel_append hcarries (.cons ?_ .nil)
          exact ⟨_, p, pwd, rfl, rfl, hprep.bytes, fun hplain =>
            packet_of_plain hplain.1 hplain.2.1 hprep.packet⟩
      · obtain ⟨hhttp, hdht⟩ := Prod.mk.inj hstores
        have hadded : added storage data params
            (paste (storeEnv lib draw t) conf storage data params s.world).result = [] := by
          unfold added
          split
          next uri hok => exact if_pos (hnone uri hok)
          next => rfl
        refine ⟨packets, ?_, ?_⟩
        · simp only [perform, hhttp, hdht]
          exact hrecord
        · simp only [perform, hadded, List.append_nil]
          exact hcarries

theorem codes_of_carries {pasted : List Pasted} {packets : List (Text × Blob)}
    (h : List.Forall₂ (fun x packet => Carries lib x packet.1 packet.2) pasted packets) :
    pasted.map (fun x => locationCode x.uri) = packets.map Prod.fst := by
  induction h with
  | nil => rfl
  | cons hcarries _ ih =>
      obtain ⟨pin, _, pwd, hcode, huri, _⟩ := hcarries
      rw [List.map_cons, List.map_cons, ih, huri, hcode, locationCode_uri]

theorem exists_packet {pasted : List Pasted} {packets : List (Text × Blob)}
    (h : List.Forall₂ (fun x packet => Carries lib x packet.1 packet.2) pasted packets)
    {x : Pasted} (hx : x ∈ pasted) :
    ∃ code bytes, (code, bytes) ∈ packets ∧ Carries lib x code bytes := by
  induction h with
  | nil => exact absurd hx List.not_mem_nil
  | @cons _ packet _ _ hcarries _ ih =>
      rcases List.mem_cons.mp hx with rfl | hx
      · exact ⟨packet.1, packet.2, List.mem_cons_self, hcarries⟩
      · obtain ⟨code, bytes, hmem, hcarries⟩ := ih hx
        exact ⟨code, bytes, List.mem_cons_of_mem _ hmem, hcarries⟩

/-- If the location codes are distinct, every plain paste can be read back. This holds
for any generator. -/
theorem noShadow_of_nodup {s : Session π} (h : Journal lib s)
    (hnodup : (s.pasted.map fun x => locationCode x.uri).Nodup) :
    NoShadow (storeEnv lib draw t) s := by
  obtain ⟨packets, hrecord, hcarries⟩ := h
  refine ⟨hnodup, ?_⟩
  intro x hx hplain noDecrypt
  rw [codes_of_carries lib hcarries] at hnodup
  obtain ⟨code, bytes, hmem, pin, p, pwd, rfl, huri, hbytes, hpacket⟩ :=
    exists_packet lib hcarries hx
  obtain ⟨rfl, rfl⟩ := hpacket hplain
  obtain ⟨events, hopen⟩ := openPacket_unencrypted (storeEnv lib draw t)
    (pinText pin ++ []) [] noDecrypt (p := { data := x.data })
    (by simp [AES.PIN_WITH_PASS_LEN]) (.inl hplain.2.2) (.inl rfl)
  have hnames : Names x.uri (pinText pin ++ []) := .inl (by rw [huri, List.append_assoc])
  exact (get_pasted_of_opened lib draw t isHex_nil hnames hbytes
    (hrecord.holdOnly hnodup hmem) hopen).1

end Journals

section Seeding

variable {G : Generator} {seed : G.Seed} (lib : Libraries) (t : Transports)
  (conf : StringMap)

/-- What holds between the operations of a process: the generator is not initialized,
and every paste got the first pin of the seeded generator as location code. Each of
them was taken by one transport. -/
structure OneCode (seed : G.Seed) (s : Session (Statics G)) : Prop where
  fresh : Fresh seed s.world.pins
  codes : ∀ x ∈ s.pasted, locationCode x.uri = pinText (G.next (G.seed seed)).1
  taken : s.events.countP Event.accepts = s.pasted.length

theorem oneCode_initial (seed : G.Seed) :
    OneCode seed (Session.initial (Statics.initial G seed)) :=
  ⟨fresh_initial seed, fun _ hx => absurd hx List.not_mem_nil, rfl⟩

theorem fresh_paste {storage : Storage} {data : Blob} {params : Option Parameters}
    {w : World (Statics G)} (h : Fresh seed w.pins) :
    Fresh seed (paste (storeEnv lib drawPin t) conf storage data params w).state.pins := by
  have hdraw (s : Statics G) : ((drawPin s).2.initialized, (drawPin s).2.seed) =
      (s.initialized, s.seed) := by
    unfold drawPin
    dsimp only
    split <;> rfl
  have hkept := (confined_paste (storeEnv lib drawPin t)
    (f := fun w => (w.pins.initialized, w.pins.seed)) (fun w => hdraw w.pins)
    (fun _ _ _ => rfl) (fun _ _ _ => rfl) conf storage data params w).1
  obtain ⟨hinitialized, hseed⟩ := Prod.mk.inj hkept
  exact ⟨hinitialized.trans h.1, hseed.trans h.2⟩

theorem oneCode_perform {s : Session (Statics G)} (op : Op) (h : OneCode seed s) :
    OneCode seed (perform (storeEnv lib drawPin t) conf s op) := by
  cases op with
  | get uri noDecrypt =>
      refine ⟨?_, h.codes, ?_⟩
      · simp only [perform, (get_stores lib drawPin t uri noDecrypt s.world).2]
        exact h.fresh
      · have hnone := countP_accepts_eq_zero (confined_get (storeEnv lib drawPin t)
          (f := fun _ => ()) (fun _ _ => rfl) (fun _ _ => rfl) uri noDecrypt s.world).2
        simp only [perform, List.countP_append, hnone, h.taken, Nat.add_zero]
  | paste storage data params =>
      refine ⟨fresh_paste lib t conf h.fresh, ?_, ?_⟩
      · intro x hx
        rcases List.mem_append.mp hx with hx | hx
        · exact h.codes x hx
        · unfold added at hx
          split at hx
          next uri hok =>
              split at hx
              · exact absurd hx List.not_mem_nil
              next huri =>
                  obtain rfl := List.mem_singleton.mp hx
                  obtain ⟨p, pwd, bytes, _, rfl, _⟩ := prepared_of_uri hok huri
                  rw [locationCode_uri]
                  exact congrArg pinText (drawPin_of_fresh h.fresh).1
          next => exact absurd hx List.not_mem_nil
      · have hcount := countP_accepts_paste (storeEnv lib drawPin t) conf storage data
          params s.world
        simp only [perform, List.countP_append, List.length_append, h.taken, hcount,
          length_added]

theorem pasted_grows {π : Type} {env : Env (World π)} {s s' : Session π} {ops : List Op}
    (h : Run (Process env conf) s ops s') : s.pasted <+: s'.pasted := by
  refine h.invariant (I := fun s' => s.pasted <+: s'.pasted) (List.prefix_refl _) ?_
  rintro m op _ hm rfl
  cases op with
  | get uri noDecrypt => exact hm
  | paste storage data params => exact hm.trans (List.prefix_append _ _)

/-- Whatever a process pastes and gets, no paste shadows another at any point of the
run if and only if the transports take at most one packet: all pastes of the process get
the same location code. -/
theorem noShadow_iff (G : Generator) (seed : G.Seed) (lib : Libraries) (t : Transports)
    (conf : StringMap) (ops : List Op) (s : Session (Statics G))
    (h : Run (Process (storeEnv lib drawPin t) conf)
      (Session.initial (Statics.initial G seed)) ops s) :
    (∀ ops' s', ops' <+: ops → Run (Process (storeEnv lib drawPin t) conf)
        (Session.initial (Statics.initial G seed)) ops' s' →
        NoShadow (storeEnv lib drawPin t) s') ↔
      s.events.countP Event.accepts ≤ 1 := by
  have honeCode {ops' : List Op} {s' : Session (Statics G)}
      (h' : Run (Process (storeEnv lib drawPin t) conf)
        (Session.initial (Statics.initial G seed)) ops' s') : OneCode seed s' := by
    refine h'.invariant (oneCode_initial seed) ?_
    rintro m op _ hm rfl
    exact oneCode_perform lib t conf op hm
  have hcodes {s' : Session (Statics G)} (h' : OneCode seed s') :
      (s'.pasted.map fun x => locationCode x.uri) =
        List.replicate s'.pasted.length (pinText (G.next (G.seed seed)).1) := by
    rw [List.eq_replicate_iff]
    refine ⟨by simp, ?_⟩
    intro code hcode
    obtain ⟨x, hx, rfl⟩ := List.mem_map.mp hcode
    exact h'.codes x hx
  rw [(honeCode h).taken]
  constructor
  · intro hshadow
    have hnodup := (hshadow ops s (List.prefix_refl _) h).1
    rwa [hcodes (honeCode h), List.nodup_replicate] at hnodup
  · rintro hone ops' s' ⟨rest, rfl⟩ h'
    have hjournal : Journal lib s' := by
      refine h'.invariant (journal_initial lib _) ?_
      rintro m op _ hm rfl
      exact journal_perform lib drawPin t conf op hm
    refine noShadow_of_nodup lib drawPin t hjournal ?_
    obtain ⟨m, hfirst, hrest⟩ := h.append_inv
    obtain rfl : m = s' :=
      hfirst.deterministic (fun h₁ h₂ => h₁.symm.trans h₂) h'
    rw [hcodes (honeCode h'), List.nodup_replicate]
    exact (pasted_grows conf hrest).length_le.trans hone

def sampleSession (ops : List Op) : Session (Statics counter) :=
  ops.foldl (perform (storeEnv (sampleLibraries 0) drawPin sampleTransports) [])
    (Session.initial (Statics.initial counter (42 : UInt32)))

def pasteByte (byte : UInt8) : Op := .paste ⟨Scheme.NONE.toInt, false, false⟩ [byte] none

theorem noShadow_iff_sample :
    NoShadow (storeEnv (sampleLibraries 0) drawPin sampleTransports)
      (sampleSession [pasteByte 0x61, .get "0000002A".toList false]) := by
  have hrun : Run (Process (storeEnv (sampleLibraries 0) drawPin sampleTransports) [])
      (Session.initial (Statics.initial counter (42 : UInt32)))
      [pasteByte 0x61, .get "0000002A".toList false]
      (sampleSession [pasteByte 0x61, .get "0000002A".toList false]) :=
    (Run.nil.snoc rfl).snoc rfl
  exact (noShadow_iff counter (42 : UInt32) (sampleLibraries 0) sampleTransports []
    [pasteByte 0x61, .get "0000002A".toList false]
    (sampleSession [pasteByte 0x61, .get "0000002A".toList false]) hrun).mpr (by decide)
    _ _ (List.prefix_refl _) hrun

/-- The pins of the generator are distinct, and still the second paste of the process is
stored under the code of the first one and cannot be read. -/
theorem noShadow_counterexample :
    Run (Process (storeEnv (sampleLibraries 0) drawPin sampleTransports) [])
        (Session.initial (Statics.initial counter (42 : UInt32)))
        [pasteByte 0x61, pasteByte 0x62] (sampleSession [pasteByte 0x61, pasteByte 0x62]) ∧
      (outputs (G := counter) 2 (42 : UInt32)).Nodup ∧
      (sampleSession [pasteByte 0x61, pasteByte 0x62]).pasted.map (·.uri) =
        ["dpaste:0000002A".toList, "dpaste:0000002A".toList] ∧
      (get (storeEnv (sampleLibraries 0) drawPin sampleTransports)
          "dpaste:0000002A".toList false
          (sampleSession [pasteByte 0x61, pasteByte 0x62]).world).result =
        .ok (true, [0x61]) ∧
      ¬NoShadow (storeEnv (sampleLibraries 0) drawPin sampleTransports)
        (sampleSession [pasteByte 0x61, pasteByte 0x62]) := by
  refine ⟨(Run.nil.snoc rfl).snoc rfl, by decide, rfl, rfl, ?_⟩
  intro h
  have hcodes : ¬["0000002A".toList, "0000002A".toList].Nodup := by decide
  exact hcodes h.1

end Seeding

end Dpaste.PasteSequences
