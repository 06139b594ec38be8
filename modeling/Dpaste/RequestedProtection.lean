import Dpaste.CommandLine
import Dpaste.TransportStores

/-!
What the command line asks for and what is published: encryption and signatures.
-/

namespace Dpaste.RequestedProtection

open Dpaste.EffectTraces
open Dpaste.LibraryInterfaces
open Dpaste.MessagePackRoundTrip
open Dpaste.CipherParameters
open Dpaste.GpgCipher
open Dpaste.CipherSelection
open Dpaste.LocationCodes
open Dpaste.PacketEncoding
open Dpaste.BinOperations
open Dpaste.PacketPreparation
open Dpaste.PasteAndGet
open Dpaste.TransportStores
open Dpaste.CommandLine

variable {σ : Type} {env : Env σ} {conf : StringMap} {storage : Storage} {data : Blob}
  {pa : ParsedArgs}

section Encryption

def recipientsOf (gp : GPGParameters) (keyid : Text) : List Text :=
  if gp.selfRecipient then gp.recipients ++ [keyid] else gp.recipients

theorem allRecipients_eq {g : GPG} {gp : GPGParameters} (hrecipients : gp.recipients ≠ [])
    (hsigner : g.signerKey ≠ []) :
    g.allRecipients gp = recipientsOf gp g.signerKey := by
  cases hself : gp.selfRecipient <;>
  simp [GPG.allRecipients, recipientsOf, hrecipients, hsigner, hself]

/-- The data is what the engine returns for the recipients of the command line, and for the
configured key if it is a recipient too. The configured key signs, if a signature is asked for.
The NUL bytes are those that the program appends. -/
def CarriesGpgText (lib : Libraries) (conf : StringMap) (pa : ParsedArgs) (data : Blob)
    (p : Packet) (events : List Event) : Prop :=
  let gp : GPGParameters := .ofRecipients pa.recipients pa.selfRecipient pa.sign
  ∃ keyid keys, conf.lookup pgpKeyId = some keyid ∧
    (if keyid = [] then pa.recipients else recipientsOf gp keyid).mapM (getKey lib) =
      .ok keys ∧
    if pa.sign = true ∧ keyid ≠ [] then
      ∃ key, lib.gpgme.key keyid = .ok key ∧
        .gpgSignAndEncrypt [key] keys (data ++ [0]) ∈ events ∧
        p.data = (lib.gpgme.signAndEncrypt [key] keys (data ++ [0])).2 ++ [0]
    else
      .gpgEncrypt keys (data ++ [0]) ∈ events ∧
        p.data = (lib.gpgme.encrypt keys (data ++ [0])).2 ++ [0]

/-- The packet carries the cipher text of the chosen cipher. The events are those of the
preparation. -/
def CarriesCipherText (env : Env σ) (conf : StringMap) (pa : ParsedArgs) (data : Blob)
    (pwd : Text) (p : Packet) (events : List Event) : Prop :=
  if pa.aesEncrypt then
    .aesEncrypt data pwd ∈ events ∧ env.aesEncrypt data pwd = .ok p.data ∧ p.data ≠ []
  else CarriesGpgText env.toLibraries conf pa data p events

def RefusesSigner (lib : Libraries) (conf : StringMap) : Prop :=
  ∃ keyid key, conf.lookup pgpKeyId = some keyid ∧ keyid ≠ [] ∧
    lib.gpgme.key keyid = .ok key ∧ lib.gpgme.addSigningKey key = false

/-- When a requested encryption takes place: the AES cipher text is not empty, or there are
recipients and the signing key, if one is needed, is accepted. -/
def Encrypts (env : Env σ) (conf : StringMap) (pa : ParsedArgs) (data : Blob)
    (pwd : Text) : Prop :=
  if pa.aesEncrypt then env.aesEncrypt data pwd ≠ .ok []
  else pa.recipients ≠ [] ∧ ¬(pa.sign = true ∧ RefusesSigner env.toLibraries conf)

/-- The key ring of the cipher is empty exactly when the configured signer was refused,
if there is one. -/
theorem signingKeys_eq_nil_iff {g : GPG} {keyid : Text}
    (hkeyid : conf.lookup pgpKeyId = some keyid) (hsome : keyid ≠ [])
    (hkeys : keyid = [] ∧ g.signingKeys = [] ∨
      ∃ key, keyid ≠ [] ∧ env.gpgme.key keyid = .ok key ∧
        g.signingKeys = if env.gpgme.addSigningKey key then [key] else []) :
    g.signingKeys = [] ↔ RefusesSigner env.toLibraries conf := by
  obtain ⟨key, _, hkey, hring⟩ := hkeys.resolve_left fun h => hsome h.1
  constructor
  · intro hempty
    refine ⟨keyid, key, hkeyid, hsome, hkey, ?_⟩
    cases hadd : env.gpgme.addSigningKey key with
    | true => simp [hring, hadd] at hempty
    | false => rfl
  · rintro ⟨keyid', key', hkeyid', _, hkey', hadd⟩
    obtain rfl : keyid = keyid' := Option.some.inj (hkeyid.symm.trans hkeyid')
    obtain rfl : key = key' := Except.ok.inj (hkey.symm.trans hkey')
    simp [hring, hadd]

theorem signs_eq_true {g : GPG} {gp : GPGParameters} :
    signs g gp = true ↔ gp.sign = true ∧ g.signerKey ≠ [] := by
  simp [signs]

/-- An encryption by the cipher of the configured key is one for the recipients of the
command line. -/
theorem carriesGpgText_of_engineCall {lib : Libraries} {g : GPG} {keyid : Text}
    {keys : List Key} (hkeyid : conf.lookup pgpKeyId = some keyid) (hsigner : g.signerKey = keyid)
    (hring : keyid = [] ∧ g.signingKeys = [] ∨
      ∃ key, keyid ≠ [] ∧ lib.gpgme.key keyid = .ok key ∧
        g.signingKeys = if lib.gpgme.addSigningKey key then [key] else []) :
    let gp : GPGParameters := .ofRecipients pa.recipients pa.selfRecipient pa.sign
    pa.recipients ≠ [] → (signs g gp = true → g.signingKeys ≠ []) →
      (g.allRecipients gp).mapM (getKey lib) = .ok keys →
      CarriesGpgText lib conf pa data
        { data := (g.engineAnswer lib keys (data ++ [0]) (signs g gp)).2 ++ [0] }
        [.newCipher .GPG, .message (GPG.encryptingText (signs g gp)),
          g.engineCall keys (data ++ [0]) (signs g gp)] := by
  intro gp hrecipients hsign hkeys
  subst hsigner
  have hall : g.allRecipients gp =
      if g.signerKey = [] then pa.recipients else recipientsOf gp g.signerKey := by
    split
    next hnone => simp [GPG.allRecipients, hnone, gp, GPGParameters.ofRecipients]
    next hsome => exact allRecipients_eq hrecipients hsome
  refine ⟨g.signerKey, keys, hkeyid, hall ▸ hkeys, ?_⟩
  split
  next hboth =>
      have hsigns : signs g gp = true := signs_eq_true.mpr hboth
      obtain ⟨key, _, hkey, hone⟩ := hring.resolve_left fun h => hboth.2 h.1
      -- a refused key would leave the ring empty
      have hkey_ring : g.signingKeys = [key] := by
        have hne := hsign hsigns
        cases hadd : lib.gpgme.addSigningKey key with
        | true => simpa [hadd] using hone
        | false => exact absurd (by simpa [hadd] using hone) hne
      refine ⟨key, hkey, ?_, ?_⟩
      · simp [GPG.engineCall, hsigns, hkey_ring]
      · simp [GPG.engineAnswer, hsigns, hkey_ring]
  next hnot =>
      have hsigns : signs g gp = false := Bool.eq_false_iff.mpr (hnot ∘ signs_eq_true.mp)
      constructor
      · simp [GPG.engineCall, hsigns]
      · simp [GPG.engineAnswer, hsigns]

theorem CarriesGpgText.exists_call {lib : Libraries} {p : Packet} {events : List Event}
    (h : CarriesGpgText lib conf pa data p events) :
    ∃ keys, .gpgEncrypt keys (data ++ [0]) ∈ events ∨
      ∃ key, .gpgSignAndEncrypt [key] keys (data ++ [0]) ∈ events := by
  obtain ⟨_, keys, _, _, hcall⟩ := h
  split at hcall
  · obtain ⟨key, _, hmem, _⟩ := hcall
    exact ⟨keys, .inr ⟨key, hmem⟩⟩
  · exact ⟨keys, .inl hcall.1⟩

/-- A prepared GPG packet carries a cipher text exactly when there was something to
encrypt for and the signing key was there. Otherwise it carries the plain input. -/
theorem carriesCipherText_gpg_iff {s : σ} {p : Packet} {pwd : Text}
    (haes : pa.aesEncrypt = false) (hgpg : pa.gpgEncrypt = true)
    (h : (prepareData env conf storage data (paramsFromArgs storage pa) s).result =
      .ok (p, pwd)) :
    (CarriesCipherText env conf pa data pwd p
        (prepareData env conf storage data (paramsFromArgs storage pa) s).events ↔
      Encrypts env conf pa data (pinText (env.draw s).1)) ∧
    (¬Encrypts env conf pa data (pinText (env.draw s).1) → p.data = data) := by
  rw [paramsFromArgs_gpg haes hgpg] at h ⊢
  obtain ⟨keyid, g, events, hkeyid, hsigner, hkeys, _, hpacket, hevents⟩ :=
    gpgPacket_of_prepareData env h
  simp only [CarriesCipherText, Encrypts, haes, Bool.false_eq_true, if_false, hevents]
  have hplain (hno : ∀ e ∈ Event.newCipher .GPG :: events, ∀ keys text signers,
      e ≠ .gpgEncrypt keys text ∧ e ≠ .gpgSignAndEncrypt signers keys text) :
      ¬CarriesGpgText env.toLibraries conf pa data p (.newCipher .GPG :: events) := by
    intro hcarries
    obtain ⟨keys, hmem | ⟨key, hmem⟩⟩ := hcarries.exists_call
    · exact (hno _ hmem keys _ []).1 rfl
    · exact (hno _ hmem keys _ [key]).2 rfl
  cases hpacket with
  | @encrypted keys hrecipients hsign hmap =>
      have hencrypts : pa.recipients ≠ [] ∧
          ¬(pa.sign = true ∧ RefusesSigner env.toLibraries conf) := by
        refine ⟨hrecipients, ?_⟩
        rintro ⟨hsigned, hrefused⟩
        obtain ⟨keyid', _, hkeyid', hsome, _⟩ := id hrefused
        obtain rfl : keyid = keyid' := Option.some.inj (hkeyid.symm.trans hkeyid')
        have hring := (signingKeys_eq_nil_iff hkeyid hsome hkeys).mpr hrefused
        exact hsign (signs_eq_true.mpr ⟨hsigned, hsigner ▸ hsome⟩) hring
      have hcarries : CarriesGpgText env.toLibraries conf pa data _ (.newCipher .GPG :: _) :=
        carriesGpgText_of_engineCall hkeyid hsigner hkeys hrecipients hsign hmap
      exact ⟨iff_of_true hcarries hencrypts, absurd hencrypts⟩
  | refused hrecipients hsign hring =>
      obtain ⟨hsigned, hsome⟩ := signs_eq_true.mp hsign
      refine ⟨iff_of_false (hplain (by simp)) ?_, fun _ => rfl⟩
      rintro ⟨_, hno⟩
      exact hno ⟨hsigned, (signingKeys_eq_nil_iff hkeyid (hsigner ▸ hsome) hkeys).mp hring⟩
  | signed hrecipients | unsigned hrecipients | plain hrecipients =>
      exact ⟨iff_of_false (hplain (by simp)) fun h => h.1 hrecipients, fun _ => rfl⟩

theorem carriesCipherText_aes_iff {s : σ} {p : Packet} {pwd : Text}
    (haes : pa.aesEncrypt = true)
    (h : (prepareData env conf storage data (paramsFromArgs storage pa) s).result =
      .ok (p, pwd)) :
    (CarriesCipherText env conf pa data pwd p
        (prepareData env conf storage data (paramsFromArgs storage pa) s).events ↔
      Encrypts env conf pa data (pinText (env.draw s).1)) ∧
    (¬Encrypts env conf pa data (pinText (env.draw s).1) → p.data = data) := by
  rw [paramsFromArgs_aes haes] at h ⊢
  obtain ⟨rfl, c, hc, rfl⟩ := prepareData_aes_eq_ok env h
  simp only [CarriesCipherText, Encrypts, haes, if_true, hc]
  by_cases hempty : c = []
  · simp [hempty]
  · simp [hempty, prepareData_aes]

/-- Asked-for encryption. Every packet that a paste with `aes_encrypt` or `gpg_encrypt`
hands to a transport carries the cipher text if and only if the encryption takes place, and
else the plain input. An AES password is the one that follows the location code in the URI,
which is returned if a transport takes the packet. -/
theorem requested_encryption (env : Env σ) (conf : StringMap) (storage : Storage)
    (data : Blob) (pa : ParsedArgs) (s : σ)
    (hasked : pa.aesEncrypt = true ∨ pa.gpgEncrypt = true) {e : Event}
    (he : e ∈ (paste env conf storage data (paramsFromArgs storage pa) s).events)
    (hpub : e.IsPublication) :
    let o := paste env conf storage data (paramsFromArgs storage pa) s
    let code := pinText (env.draw s).1
    ∃ p pwd bytes success,
      Prepared env conf storage data (paramsFromArgs storage pa) s p pwd bytes ∧
      Hands code bytes e ∧
      o.result = .ok (if success then DPASTE_URI_PREFIX ++ code ++ pwd else []) ∧
      (success = true ↔ Accepted code bytes o.events) ∧
      (CarriesCipherText env conf pa data pwd p
          (prepareData env conf storage data (paramsFromArgs storage pa)
            (env.draw s).2).events ↔
        Encrypts env conf pa data (pinText (env.draw (env.draw s).2).1)) ∧
      (¬Encrypts env conf pa data (pinText (env.draw (env.draw s).2).1) →
        p.data = data) := by
  intro o code
  obtain ⟨p, pwd, bytes, h, hhands⟩ := prepared_of_publication he hpub
  obtain ⟨success, hresult, haccepted, _⟩ := paste_prepared_result h
  refine ⟨p, pwd, bytes, success, h, hhands, hresult, haccepted, ?_⟩
  cases haes : pa.aesEncrypt with
  | true => exact carriesCipherText_aes_iff haes h.packet
  | false =>
      have hgpg : pa.gpgEncrypt = true := hasked.resolve_left (by simp [haes])
      exact carriesCipherText_gpg_iff haes hgpg h.packet

def pasteSample (pa : ParsedArgs) (keyid : Text) : Outcome (World UInt32) Event Exn Text :=
  paste (sampleEnv 0) [(pgpKeyId, keyid)] ⟨0, false, false⟩ [0x64, 0x0A]
    (paramsFromArgs ⟨0, false, false⟩ pa) (World.initial 42)

theorem requested_encryption_sample :
    ∃ p, CarriesCipherText (sampleEnv 0) [(pgpKeyId, [])] { aesEncrypt := true } [0x64, 0x0A]
      "0000002B".toList p
      (prepareData (sampleEnv 0) [(pgpKeyId, [])] ⟨0, false, false⟩ [0x64, 0x0A]
        (paramsFromArgs ⟨0, false, false⟩ { aesEncrypt := true })
        (World.initial 43)).events := by
  have hevents : (pasteSample { aesEncrypt := true } []).events =
      [.newCipher .AES, .message AES.encryptingText,
        .aesEncrypt [0x64, 0x0A] "0000002B".toList, .message pastingText,
        .httpPut "0000002A".toList
          (encode (packetObject { data := [0x00, 0x64, 0x0A] })) true] := rfl
  have huri : (pasteSample { aesEncrypt := true } []).result =
      .ok "dpaste:0000002A0000002B".toList := rfl
  have hput : .httpPut "0000002A".toList
      (encode (packetObject { data := [0x00, 0x64, 0x0A] })) true ∈
        (pasteSample { aesEncrypt := true } []).events := by
    rw [hevents]
    exact .tail _ (.tail _ (.tail _ (.tail _ (.head _))))
  obtain ⟨p, pwd, bytes, success, _, _, hresult, _, hcarries, _⟩ := requested_encryption
    (sampleEnv 0) [(pgpKeyId, [])] ⟨0, false, false⟩ [0x64, 0x0A] { aesEncrypt := true }
    (World.initial 42) (.inl rfl) hput trivial
  have hpwd : pwd = "0000002B".toList := by
    have hsame := Except.ok.inj (huri.symm.trans hresult)
    cases success with
    | false => cases hsame
    | true =>
        have hpasted : "dpaste:0000002A".toList ++ "0000002B".toList =
          "dpaste:0000002A".toList ++ pwd := hsame
        exact (List.append_cancel_left hpasted).symm
  subst hpwd
  refine ⟨p, hcarries.mpr ?_⟩
  intro hempty
  cases hempty

/-- With `--gpg-encrypt` and no recipient the plain input is published. -/
theorem requested_encryption_counterexample :
    ∃ bytes, ({ data := [0x64, 0x0A] } : Packet).serialize = .ok bytes ∧
      (pasteSample { gpgEncrypt := true } "A1B2".toList).result =
        .ok "dpaste:0000002A".toList ∧
      (pasteSample { gpgEncrypt := true } "A1B2".toList).events =
        [.newCipher .GPG, .message pastingText,
          .httpPut "0000002A".toList bytes true] :=
  ⟨_, rfl, rfl, rfl⟩

end Encryption

section Signatures

/-- The packet is signed once with the key: inside the cipher text, if there are recipients,
or else beside the data. `signed` lists the signing calls. -/
def SignedOnce (lib : Libraries) (gp : GPGParameters) (keyid : Text) (key : Key)
    (data : Blob) (p : Packet) (signed : List Event) : Prop :=
  if gp.recipients = [] then
    p.data = data ∧ p.signature = (lib.gpgme.sign [key] data).2 ∧ p.signature ≠ [] ∧
      signed = [.gpgSign [key] data]
  else
    ∃ keys, (recipientsOf gp keyid).mapM (getKey lib) = .ok keys ∧
      p.data = (lib.gpgme.signAndEncrypt [key] keys (data ++ [0])).2 ++ [0] ∧
      p.signature = [] ∧ signed = [.gpgSignAndEncrypt [key] keys (data ++ [0])]

theorem signedOnce_of_gpgPacket {lib : Libraries} {g : GPG} {gp : GPGParameters} {key : Key}
    {p : Packet} {events : List Event} (hsign : gp.sign = true) (hsigner : g.signerKey ≠ [])
    (hring : g.signingKeys = [key])
    (hmessage : ∀ keys text, (lib.gpgme.sign keys text).1.error = none →
      (lib.gpgme.sign keys text).2 ≠ [])
    (h : GpgPacket lib g gp data p events) :
    SignedOnce lib gp g.signerKey key data p (events.filter Event.signs) := by
  have hsigns : signs g gp = true := signs_eq_true.mpr ⟨hsign, hsigner⟩
  have hsome : g.signingKeys ≠ [] := by simp [hring]
  cases h with
  | @encrypted keys hrecipients _ hmap =>
      rw [allRecipients_eq hrecipients hsigner] at hmap
      rw [SignedOnce, if_neg hrecipients]
      refine ⟨keys, hmap, ?_, rfl, ?_⟩
      · simp [GPG.engineAnswer, hsigns, hring]
      · simp [GPG.engineCall, hsigns, hring, Event.signs]
  | refused _ _ hempty => exact absurd hempty hsome
  | signed hrecipients _ _ hok =>
      rw [SignedOnce, if_pos hrecipients, hring]
      refine ⟨rfl, rfl, ?_, by simp [Event.signs]⟩
      rw [hring] at hok
      exact hmessage [key] data hok
  | unsigned _ _ hempty => exact absurd hempty hsome
  | plain _ hno => exact absurd (hno.symm.trans hsigns) (by decide)

theorem unsigned_of_gpgPacket {lib : Libraries} {g : GPG} {gp : GPGParameters} {p : Packet}
    {events : List Event} (hsigner : g.signerKey = [])
    (h : GpgPacket lib g gp data p events) :
    p.signature = [] ∧ events.filter Event.signs = [] := by
  have hsigns : signs g gp = false := by simp [signs, hsigner]
  cases h with
  | encrypted _ _ _ => exact ⟨rfl, by simp [GPG.engineCall, hsigns, Event.signs]⟩
  | refused _ hyes _ => exact absurd (hsigns.symm.trans hyes) (by decide)
  | signed _ hyes _ _ => exact absurd (hsigns.symm.trans hyes) (by decide)
  | unsigned _ hyes _ => exact absurd (hsigns.symm.trans hyes) (by decide)
  | plain _ _ => exact ⟨rfl, rfl⟩

/-- Asked-for signatures. A paste with signing parameters that returns a URI has published a
packet that is signed exactly once, with the configured key. Signing needs a configured key:
with the empty default nothing is signed. -/
theorem requested_signature (env : Env σ) (conf : StringMap) (storage : Storage)
    (data : Blob) (pa : ParsedArgs) (s : σ) {gp : GPGParameters} {keyid uri : Text}
    (hparams : paramsFromArgs storage pa = some (.gpg gp)) (hsign : gp.sign = true)
    (hkeyid : conf.lookup pgpKeyId = some keyid)
    (hadd : ∀ key, env.gpgme.key keyid = .ok key → env.gpgme.addSigningKey key = true)
    (hmessage : ∀ keys text, (env.gpgme.sign keys text).1.error = none →
      (env.gpgme.sign keys text).2 ≠ [])
    (hresult : (paste env conf storage data (paramsFromArgs storage pa) s).result = .ok uri)
    (huri : uri ≠ []) :
    let events := (paste env conf storage data (paramsFromArgs storage pa) s).events
    ∃ p pwd bytes,
      Prepared env conf storage data (paramsFromArgs storage pa) s p pwd bytes ∧
      Accepted (pinText (env.draw s).1) bytes events ∧
      (keyid ≠ [] → ∃ key, env.gpgme.key keyid = .ok key ∧
        SignedOnce env.toLibraries gp keyid key data p (events.filter Event.signs)) ∧
      (keyid = [] → p.signature = [] ∧ events.filter Event.signs = []) := by
  intro events
  obtain ⟨p, pwd, bytes, h, _, haccepted⟩ := prepared_of_uri hresult huri
  refine ⟨p, pwd, bytes, h, haccepted, ?_⟩
  have hpacket := h.packet
  rw [hparams] at hpacket
  obtain ⟨keyid', g, calls, hkeyid', hsigner, hkeys, _, hgpg, hcalls⟩ :=
    gpgPacket_of_prepareData env hpacket
  obtain rfl : keyid = keyid' := Option.some.inj (hkeyid.symm.trans hkeyid')
  have hfilter : events.filter Event.signs = calls.filter Event.signs := by
    change (paste env conf storage data (paramsFromArgs storage pa) s).events.filter _ = _
    rw [signs_of_prepared h, hparams, hcalls]
    rfl
  rw [hfilter]
  subst hsigner
  constructor
  · intro hsome
    obtain ⟨key, _, hkey, hring⟩ := hkeys.resolve_left fun h => hsome h.1
    rw [hadd key hkey, if_pos rfl] at hring
    exact ⟨key, hkey, signedOnce_of_gpgPacket hsign hsome hring hmessage hgpg⟩
  · intro hnone
    exact unsigned_of_gpgPacket hnone hgpg

def signAndEncryptArgs : ParsedArgs where
  gpgEncrypt := true
  sign := true
  selfRecipient := true
  recipients := ["C3D4".toList]

theorem requested_signature_sample :
    ∃ p, SignedOnce (sampleLibraries 0) (.ofRecipients ["C3D4".toList] true true)
      "A1B2".toList ⟨"A1B2".toList⟩ [0x64, 0x0A] p
      ((pasteSample signAndEncryptArgs "A1B2".toList).events.filter Event.signs) := by
  have huri : (pasteSample signAndEncryptArgs "A1B2".toList).result =
      .ok "dpaste:0000002A".toList := rfl
  have hkeyid : [(pgpKeyId, "A1B2".toList)].lookup pgpKeyId = some "A1B2".toList := rfl
  obtain ⟨p, _, _, _, _, hsigned, _⟩ := requested_signature
    (sampleEnv 0) [(pgpKeyId, "A1B2".toList)] ⟨0, false, false⟩ [0x64, 0x0A]
    signAndEncryptArgs (World.initial 42) rfl rfl hkeyid (fun _ _ => rfl)
    (fun _ _ _ => List.cons_ne_nil _ _) huri (by decide)
  obtain ⟨key, hkey, honce⟩ := hsigned (by decide)
  obtain rfl : (⟨"A1B2".toList⟩ : Key) = key := Except.ok.inj hkey
  exact ⟨p, honce⟩

/-- Without a configured key `--sign` publishes the data unsigned. -/
theorem requested_signature_counterexample :
    ∃ bytes, ({ data := [0x64, 0x0A], signature := [] } : Packet).serialize = .ok bytes ∧
      (pasteSample { sign := true } []).result = .ok "dpaste:0000002A".toList ∧
      (pasteSample { sign := true } []).events =
        [.newCipher .GPG, .message pastingText,
          .httpPut "0000002A".toList bytes true] :=
  ⟨_, rfl, rfl, rfl⟩

end Signatures

end Dpaste.RequestedProtection
