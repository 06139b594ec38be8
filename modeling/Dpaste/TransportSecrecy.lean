import Dpaste.ClientScripts
import Dpaste.TransportStores

/-!
What the transports can tell about a paste and a get: the password of a URI, the keys of the
user and the data in clear are not in what they see.
-/

namespace Dpaste.TransportSecrecy

open Dpaste.EffectTraces
open Dpaste.InteractivePrograms
open Dpaste.LibraryInterfaces
open Dpaste.CipherParameters
open Dpaste.CipherSelection
open Dpaste.LocationCodes
open Dpaste.PacketEncoding
open Dpaste.BinOperations
open Dpaste.PacketPreparation
open Dpaste.PasteAndGet
open Dpaste.TransportStores
open Dpaste.ClientScripts

section Getting

variable {lib : Libraries} {uri code : Text} {noDecrypt : Bool}

theorem talk_getScript (hcode : codeFromDpasteUri uri = .ok code) :
    (getScript lib uri noDecrypt).talk =
      if codeOffset ≤ code.length then (fetchScript (code.take codeOffset)).talk
      else .stop (.ok ()) := by
  unfold getScript
  rw [hcode, Script.stop_ok_bind]
  by_cases hlen : codeOffset ≤ code.length
  · have hsubstr : substr code codeOffset = .ok (code.drop codeOffset) := if_pos hlen
    rw [hsubstr, Script.stop_ok_bind, if_pos hlen]
    exact Script.talk_bind_silent _ fun data => Script.talk_ofProg _
  · have hsubstr : substr code codeOffset = .error .outOfRange := if_neg hlen
    rw [hsubstr, if_neg hlen]
    rfl

theorem length_of_take {code code' : Text} (h : code.take codeOffset = code'.take codeOffset) :
    codeOffset ≤ code.length ↔ codeOffset ≤ code'.length := by
  have hlength := congrArg List.length h
  simp only [List.length_take] at hlength
  omega

theorem state_get {σ : Type} (env : Env σ) (s : σ) (hcode : codeFromDpasteUri uri = .ok code) :
    (get env uri noDecrypt s).state =
      if codeOffset ≤ code.length then (fetch env (code.take codeOffset) s).state else s := by
  have htalk : (getScript env.toLibraries uri noDecrypt).talk = _ := talk_getScript hcode
  rw [← run_getScript, ← run_fetchScript]
  by_cases hlen : codeOffset ≤ code.length
  · rw [if_pos hlen] at htalk ⊢
    exact Script.run_state_eq (answer env) htalk s
  · rw [if_neg hlen] at htalk ⊢
    have hstop : (getScript env.toLibraries uri noDecrypt).talk =
        (Script.stop (.ok ()) : Client Unit).talk := htalk
    exact Script.run_state_eq (answer env) hstop s

theorem fetch_congr {σ : Type} {env env' : Env σ} (hhttp : env.httpGet = env'.httpGet)
    (hnode : env.nodeGet = env'.nodeGet) (lcode : Text) : fetch env lcode = fetch env' lcode := by
  unfold fetch BinOperations.httpGet BinOperations.nodeGet
  rw [hhttp, hnode]

/-- Whatever the transports remember of the calls they get, a get looks to them like any
other one with the same location code: they cannot tell the password that follows in the
URI, the flag, or the keys of the user. -/
theorem get_reveals_location {σ : Type} (env env' : Env σ) (uri uri' code code' : Text)
    (noDecrypt noDecrypt' : Bool) (s : σ) (hhttp : env.httpGet = env'.httpGet)
    (hnode : env.nodeGet = env'.nodeGet) (hcode : codeFromDpasteUri uri = .ok code)
    (hcode' : codeFromDpasteUri uri' = .ok code')
    (hsame : code.take codeOffset = code'.take codeOffset) :
    (get env uri noDecrypt s).state = (get env' uri' noDecrypt' s).state := by
  rw [state_get env s hcode, state_get env' s hcode', fetch_congr hhttp hnode, hsame]
  exact if_congr (length_of_take hsame) rfl rfl

theorem get_reveals_location_sample :
    (get (sampleEnv 0) "dpaste:0000002A0000002A".toList false (World.initial 42)).state =
      (get (sampleEnv 1) "0000002A".toList true (World.initial 42)).state :=
  get_reveals_location (sampleEnv 0) (sampleEnv 1) _ _ "0000002A0000002A".toList
    "0000002A".toList false true (World.initial 42) rfl rfl rfl rfl rfl

end Getting

section Pasting

variable {σ : Type} {env env' : Env σ} {conf : StringMap} {storage : Storage} {data c : Blob}
  {a : AESParameters} {s s₁ s₂ : σ} {pin pwd : UInt32}

theorem publish_congr (hhttp : env.httpPut = env'.httpPut)
    (hnode : env.nodePaste = env'.nodePaste) (code : Text) (bytes : Blob) :
    publish env code bytes = publish env' code bytes := by
  unfold publish BinOperations.httpPut BinOperations.nodePaste
  rw [hhttp, hnode]

theorem prepareData_encrypts (conf : StringMap) (storage : Storage) (a : AESParameters)
    (hpwd : env.draw s₁ = (pwd, s₂)) (hne : c ≠ [])
    (hc : env.aesEncrypt data (pinText pwd) = .ok c) :
    prepareData env conf storage data (some (.aes a)) s₁ =
      ⟨s₂, [.newCipher .AES, .message AES.encryptingText, .aesEncrypt data (pinText pwd)],
        .ok ({ data := c }, pinText pwd)⟩ := by
  rw [prepareData_aes, hpwd]
  simp [hc, hne, Except.map]

/-- What an AES paste does to the transports: it publishes the packet of the cipher text, if
the packet can be written. -/
theorem state_paste_aes (hpin : env.draw s = (pin, s₁)) (hpwd : env.draw s₁ = (pwd, s₂))
    (hne : c ≠ []) (hc : env.aesEncrypt data (pinText pwd) = .ok c) :
    (paste env conf storage data (some (.aes a)) s).state =
      match ({ data := c } : Packet).serialize with
      | .ok bytes => (publish env (pinText pin) bytes s₂).state
      | .error _ => s₂ := by
  have hprep := prepareData_encrypts conf storage a hpwd hne hc
  cases hbytes : ({ data := c } : Packet).serialize with
  | ok bytes =>
      have hprepared : Prepared env conf storage data (some (.aes a)) s { data := c }
          (pinText pwd) bytes := ⟨by rw [hpin, hprep], hbytes⟩
      obtain ⟨success, hsuccess, -⟩ := publish_result env (pinText pin) bytes s₂ [] (by simp)
      refine (paste_of_published hprepared ?_ hsuccess).2
      rw [hpin, hprep]
  | error e =>
      rcases paste_cases env conf storage data (some (.aes a)) s with
        ⟨p, pwd', bytes, h⟩ | ⟨-, hstate, -⟩
      · have hpacket := h.packet
        rw [hpin, hprep] at hpacket
        obtain ⟨rfl, -⟩ := Prod.mk.inj (Except.ok.inj hpacket)
        cases h.bytes.symm.trans hbytes
      · rw [hstate, hpin, hprep]

/-- Whatever the transports remember of the calls they get, an AES paste looks to them like
any other one with the same location code and the same cipher text: they cannot tell the
data, the password or the configuration apart. -/
theorem paste_reveals_cipher (env env' : Env σ) (conf conf' : StringMap)
    (storage storage' : Storage) (data data' : Blob) (a a' : AESParameters)
    (s s' s₁ s₁' s₂ : σ) (pin pwd pwd' : UInt32) (c : Blob) (hhttp : env.httpPut = env'.httpPut)
    (hnode : env.nodePaste = env'.nodePaste) (hpin : env.draw s = (pin, s₁))
    (hpwd : env.draw s₁ = (pwd, s₂)) (hpin' : env'.draw s' = (pin, s₁'))
    (hpwd' : env'.draw s₁' = (pwd', s₂)) (hne : c ≠ [])
    (hc : env.aesEncrypt data (pinText pwd) = .ok c)
    (hc' : env'.aesEncrypt data' (pinText pwd') = .ok c) :
    (paste env conf storage data (some (.aes a)) s).state =
      (paste env' conf' storage' data' (some (.aes a')) s').state := by
  rw [state_paste_aes hpin hpwd hne hc, state_paste_aes hpin' hpwd' hne hc']
  cases ({ data := c } : Packet).serialize with
  | ok bytes => exact congrArg Outcome.state (congrFun (publish_congr hhttp hnode _ _) s₂)
  | error e => rfl

/-- An AES that adds the last character of the password to each byte. -/
def padLibraries : Libraries :=
  let pad (password : Text) : Blob → Blob :=
    List.map (· ^^^ UInt8.ofNat (password.getLastD '0').toNat)
  { sampleLibraries 0 with
    aesEncrypt := fun text password => .ok (0x00 :: pad password text)
    aesDecrypt := fun c password => .ok (pad password c.tail) }

/-- A process that draws the given pins. -/
def padEnv : Env (World (List UInt32)) :=
  storeEnv padLibraries (fun pins => (pins.headD 0, pins.tail)) sampleTransports

/-- Different bytes under different passwords, with one cipher text. -/
theorem paste_reveals_cipher_sample :
    (paste padEnv [] ⟨0, false, false⟩ [0x61] (some (.aes ⟨[]⟩)) (World.initial [42, 43])).state =
      (paste padEnv [(pgpKeyId, "A0".toList)] ⟨1, true, true⟩ [0x60]
        (some (.aes ⟨"B1".toList⟩)) (World.initial [42, 44])).state :=
  paste_reveals_cipher padEnv padEnv _ _ _ _ _ _ _ _ (World.initial [42, 43])
    (World.initial [42, 44]) (World.initial [43]) (World.initial [44]) (World.initial []) 42 43 44
    [0x00, 0x23] rfl rfl rfl rfl rfl rfl (by decide) rfl rfl

end Pasting

end Dpaste.TransportSecrecy
