import Dpaste.AppendOnlyStores
import Dpaste.PasteAndGet

/-!
A world in which both transports keep what they accept. Which calls they accept,
and which of the values under a code they answer with, is arbitrary at each call.
-/

namespace Dpaste.TransportStores

open Dpaste.EffectTraces
open Dpaste.LibraryInterfaces
open Dpaste.CipherParameters
open Dpaste.LocationCodes
open Dpaste.PacketEncoding
open Dpaste.BinOperations
open Dpaste.PasteAndGet
open Dpaste.AppendOnlyStores

/-- The state of the pin generator, the number of calls to the transports so far,
and what the HTTP service and the DHT store. -/
structure World (π : Type) where
  pins : π
  calls : Nat
  http : Store Text Blob
  dht : Store Text Blob

/-- The choices of the transports at the `n`-th call. -/
structure Transports where
  httpAccepts : Nat → Text → Blob → Bool
  nodeAccepts : Nat → Text → Blob → Bool
  httpAnswer : Nat → Answer Blob
  nodeAnswer : Nat → Answer Blob

variable {π : Type}

/-- The environment of a process with the libraries `lib` and the generator
`draw`. An HTTP get answers one value, a get of the node one or all values. -/
def storeEnv (lib : Libraries) (draw : π → UInt32 × π) (t : Transports) :
    Env (World π) where
  toLibraries := lib
  draw w := ((draw w.pins).1, { w with pins := (draw w.pins).2 })
  httpGet code w :=
    (.ok (((t.httpAnswer w.calls).pick (w.http code)).headD []),
      { w with calls := w.calls + 1 })
  httpPut code blob w :=
    let accepted := t.httpAccepts w.calls code blob
    (accepted, { w with
      calls := w.calls + 1
      http := if accepted then deposit w.http code blob else w.http })
  nodeGet code w :=
    ((t.nodeAnswer w.calls).pick (w.dht code), { w with calls := w.calls + 1 })
  nodePaste code blob w :=
    let accepted := t.nodeAccepts w.calls code blob
    (accepted, { w with
      calls := w.calls + 1
      dht := if accepted then deposit w.dht code blob else w.dht })

def sampleTransports : Transports where
  httpAccepts _ _ _ := true
  nodeAccepts _ _ _ := true
  httpAnswer _ := .all
  nodeAnswer _ := .all

def countUp (n : UInt32) : UInt32 × UInt32 := (n, n + 1)

def sampleEnv (salt : UInt8) : Env (World UInt32) :=
  storeEnv (sampleLibraries salt) countUp sampleTransports

def World.initial (pins : π) : World π := ⟨pins, 0, fun _ => [], fun _ => []⟩

def World.stores (w : World π) : Store Text Blob × Store Text Blob := (w.http, w.dht)

section Writing

variable (lib : Libraries) (draw : π → UInt32 × π) (t : Transports)

theorem fetch_result {code : Text} {bytes : Blob} {w : World π} (hbytes : bytes ≠ [])
    (h : HoldOnly w.http w.dht code bytes) :
    (fetch (storeEnv lib draw t) code w).result = .ok bytes := by
  obtain ⟨honly, hmem⟩ := h
  by_cases hhttp : w.http code = []
  · have hnode : w.dht code ≠ [] := by
      intro hdht
      simp [hhttp, hdht] at hmem
    have hhead := (t.nodeAnswer (w.calls + 1)).head_pick hnode fun v hv =>
      honly v (List.mem_append_right _ hv)
    obtain ⟨v, rest, hpick⟩ := List.exists_cons_of_ne_nil
      ((t.nodeAnswer (w.calls + 1)).nonempty hnode)
    rw [hpick, List.head?_cons, Option.some.injEq] at hhead
    simp [fetch, BinOperations.httpGet, BinOperations.nodeGet, storeEnv, hhttp, hpick, hhead]
  · have hhead := (t.httpAnswer w.calls).head_pick hhttp fun v hv =>
      honly v (List.mem_append_left _ hv)
    obtain ⟨v, rest, hpick⟩ := List.exists_cons_of_ne_nil
      ((t.httpAnswer w.calls).nonempty hhttp)
    rw [hpick, List.head?_cons, Option.some.injEq] at hhead
    simp [fetch, BinOperations.httpGet, storeEnv, hpick, hhead, hbytes]

theorem publish_stores (code : Text) (bytes : Blob) (w : World π) :
    let o := publish (storeEnv lib draw t) code bytes w
    o.state.pins = w.pins ∧
      (o.result = .ok true ∧ (o.state.stores = (deposit w.http code bytes, w.dht) ∨
          o.state.stores = (w.http, deposit w.dht code bytes)) ∨
        o.result = .ok false ∧ o.state.stores = w.stores) := by
  simp only [publish_apply, storeEnv]
  cases hhttp : t.httpAccepts w.calls code bytes with
  | true => simp [World.stores]
  | false => cases t.nodeAccepts (w.calls + 1) code bytes <;> simp [World.stores]

theorem prepareData_stores (conf : StringMap) (storage : Storage) (data : Blob)
    (params : Option Parameters) (w : World π) :
    (prepareData (storeEnv lib draw t) conf storage data params w).state.stores =
      w.stores :=
  (PacketPreparation.confined_prepareData (storeEnv lib draw t) (f := World.stores)
    (fun _ => rfl) conf storage data params w).1

/-- The step of the stores in a paste: a returned URI names the packet that was
added under its location code, and without a URI nothing was added. -/
theorem paste_stores (conf : StringMap) (storage : Storage) (data : Blob)
    (params : Option Parameters) (w : World π) :
    let env := storeEnv lib draw t
    let code := pinText (draw w.pins).1
    let o := paste env conf storage data params w
    (∃ p pwd bytes, Prepared env conf storage data params w p pwd bytes ∧
        o.result = .ok (DPASTE_URI_PREFIX ++ code ++ pwd) ∧
        (o.state.stores = (deposit w.http code bytes, w.dht) ∨
          o.state.stores = (w.http, deposit w.dht code bytes))) ∨
      (∀ uri, o.result = .ok uri → uri = []) ∧ o.state.stores = w.stores := by
  intro env code o
  have hprep := prepareData_stores lib draw t conf storage data params (env.draw w).2
  rcases paste_cases env conf storage data params w with
    ⟨p, pwd, bytes, h⟩ | ⟨⟨e, herror⟩, hstate, _⟩
  · obtain ⟨_, ⟨hresult, hstores⟩ | ⟨hresult, hstores⟩⟩ := publish_stores lib draw
      t code bytes (prepareData env conf storage data params (env.draw w).2).state
    · obtain ⟨huri, hstate⟩ := paste_of_published h rfl hresult
      obtain ⟨hhttp, hdht⟩ := Prod.mk.inj hprep
      rw [hhttp, hdht] at hstores
      have hsame := congrArg World.stores hstate
      exact .inl ⟨p, pwd, bytes, h, huri, hstores.imp hsame.trans hsame.trans⟩
    · obtain ⟨huri, hstate⟩ := paste_of_published h rfl hresult
      refine .inr ⟨fun uri hok => ?_, ?_⟩
      · exact (Except.ok.inj (huri.symm.trans hok)).symm
      · exact (congrArg World.stores hstate).trans (hstores.trans hprep)
  · refine .inr ⟨fun uri huri => ?_, ?_⟩
    · simp [o, herror] at huri
    · rw [hstate]
      exact hprep

theorem get_stores (uri : Text) (noDecrypt : Bool) (w : World π) :
    (get (storeEnv lib draw t) uri noDecrypt w).state.stores = w.stores ∧
      (get (storeEnv lib draw t) uri noDecrypt w).state.pins = w.pins :=
  ⟨(confined_get (storeEnv lib draw t) (f := World.stores) (fun _ _ => rfl)
      (fun _ _ => rfl) uri noDecrypt w).1,
    (confined_get (storeEnv lib draw t) (f := World.pins) (fun _ _ => rfl)
      (fun _ _ => rfl) uri noDecrypt w).1⟩

end Writing

theorem holdOnly_of_deposit {code : Text} {bytes : Blob} {w : World π}
    {stores : Store Text Blob × Store Text Blob} (hhttp : w.http code = [])
    (hdht : w.dht code = [])
    (h : stores = (deposit w.http code bytes, w.dht) ∨
      stores = (w.http, deposit w.dht code bytes)) :
    HoldOnly stores.1 stores.2 code bytes := by
  rcases h with rfl | rfl <;> simp [HoldOnly, hhttp, hdht]

/-- Under a location code that was not used before, the packet of a returned URI is alone. -/
theorem stored_of_uri {lib : Libraries} {draw : π → UInt32 × π} {t : Transports}
    {conf : StringMap} {storage : Storage} {data : Blob} {params : Option Parameters}
    {w : World π} {uri : Text} (hhttp : w.http (pinText (draw w.pins).1) = [])
    (hdht : w.dht (pinText (draw w.pins).1) = [])
    (hresult : (paste (storeEnv lib draw t) conf storage data params w).result = .ok uri)
    (huri : uri ≠ []) :
    let code := pinText (draw w.pins).1
    let o := paste (storeEnv lib draw t) conf storage data params w
    ∃ p pwd bytes, Prepared (storeEnv lib draw t) conf storage data params w p pwd bytes ∧
      uri = DPASTE_URI_PREFIX ++ code ++ pwd ∧ HoldOnly o.state.http o.state.dht code bytes := by
  intro code o
  rcases paste_stores lib draw t conf storage data params w with
    ⟨p, pwd, bytes, h, hok, hstores⟩ | ⟨hnone, _⟩
  · exact ⟨p, pwd, bytes, h, Except.ok.inj (hresult.symm.trans hok),
      holdOnly_of_deposit hhttp hdht hstores⟩
  · exact absurd (hnone uri hresult) huri

/-- A URI as `paste` returns it, with or without its prefix. -/
def Names (uri code : Text) : Prop := uri = DPASTE_URI_PREFIX ++ code ∨ uri = code

theorem codeFromDpasteUri_of_names {uri code : Text} (h : Names uri code)
    (hhex : IsHex code) : codeFromDpasteUri uri = .ok code := by
  rcases h with rfl | rfl
  · exact codeFromDpasteUri_append code
  · exact codeFromDpasteUri_of_isHex hhex

section Reading

variable (lib : Libraries) (draw : π → UInt32 × π) (t : Transports) (noDecrypt : Bool)
  {pin : UInt32} {pwd uri : Text} {p : Packet} {bytes : Blob} {w : World π}

/-- A get of a URI whose packet is alone under its location code looks this packet
up and opens it. -/
theorem get_pasted (hpwd : IsHex pwd) (huri : Names uri (pinText pin ++ pwd))
    (hserialize : p.serialize = .ok bytes)
    (hhold : HoldOnly w.http w.dht (pinText pin) bytes) :
    ∃ w' lookups, (∀ e ∈ lookups, e.IsLookup) ∧
      get (storeEnv lib draw t) uri noDecrypt w =
        let opened := handle (do
            let data ← openPacket (storeEnv lib draw t) (pinText pin ++ pwd) pwd noDecrypt p
            pure (true, data))
          (catchClauses (storeEnv lib draw t) bytes) w'
        ⟨opened.state, lookups ++ opened.events, opened.result⟩ := by
  have hbytes := serialize_ne_nil hserialize
  have hget := get_of_packet (storeEnv lib draw t) noDecrypt
    (codeFromDpasteUri_of_names huri (isHex_append (isHex_pinText pin) hpwd))
    (codeOffset_le_pinText_append pin pwd)
    (by rw [take_pinText_append]; exact fetch_result lib draw t hbytes hhold) hbytes
    (deserialize_serialize hserialize {})
  rw [drop_pinText_append] at hget
  exact ⟨_, _, (confined_fetch (storeEnv lib draw t) (f := fun _ => ()) (fun _ _ => rfl)
    (fun _ _ => rfl) _ w).2, hget⟩

theorem get_pasted_of_opened {noDecrypt : Bool} {data : Blob} {events : List Event}
    (hpwd : IsHex pwd) (huri : Names uri (pinText pin ++ pwd))
    (hserialize : p.serialize = .ok bytes)
    (hhold : HoldOnly w.http w.dht (pinText pin) bytes)
    (hopen : ∀ s, openPacket (storeEnv lib draw t) (pinText pin ++ pwd) pwd noDecrypt p s =
      ⟨s, events, .ok data⟩) :
    (get (storeEnv lib draw t) uri noDecrypt w).result = .ok (true, data) ∧
      ∀ e ∈ events, e ∈ (get (storeEnv lib draw t) uri noDecrypt w).events := by
  obtain ⟨w', lookups, _, hget⟩ := get_pasted lib draw t noDecrypt hpwd huri hserialize
    hhold
  rw [hget]
  simp only [handle, bind_apply, hopen, Outcome.andThen_ok, pure_apply, List.append_nil,
    List.mem_append, true_and]
  exact fun e he => .inr he

end Reading

end Dpaste.TransportStores
