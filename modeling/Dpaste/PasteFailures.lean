import Dpaste.PasteAndGet

/-!
When the preparation of a packet fails, and what a paste does then.
-/

namespace Dpaste.PasteFailures

open Dpaste.EffectTraces
open Dpaste.LibraryInterfaces
open Dpaste.CipherParameters
open Dpaste.GpgCipher
open Dpaste.CipherSelection
open Dpaste.LocationCodes
open Dpaste.PacketEncoding
open Dpaste.BinOperations
open Dpaste.PacketPreparation
open Dpaste.PasteAndGet

variable {σ : Type} {env : Env σ} {lib : Libraries} {conf : StringMap} {storage : Storage}
  {data : Blob} {params : Option Parameters} {s : σ}

section Ciphers

theorem getKey_eq_error {keyId : Text} :
    (∃ e, getKey lib keyId = .error e) ↔ ∃ err, lib.gpgme.key keyId = .error err := by
  cases h : lib.gpgme.key keyId <;> simp [getKey, h]

theorem getKeys_eq_error {recipients : List Text} :
    (∃ e, recipients.mapM (getKey lib) = .error e) ↔
      ∃ r ∈ recipients, ∃ err, lib.gpgme.key r = .error err := by
  induction recipients with
  | nil => simp [pure, Except.pure]
  | cons r recipients ih =>
      rw [List.exists_mem_cons_iff, ← ih, ← getKey_eq_error]
      cases hr : getKey lib r with
      | error e => simp [List.mapM_cons, hr, bind, Except.bind]
      | ok key =>
          cases hkeys : recipients.mapM (getKey lib) <;>
          simp [List.mapM_cons, hr, hkeys, bind, Except.bind, pure, Except.pure]

/-- What can go wrong in `GPG::encrypt` once it has not refused to sign. -/
inductive EncryptionFails (lib : Libraries) (g : GPG) (recipients : List Text)
    (plainText : Blob) (sign : Bool) : Prop
  | recipient {r : Text} {err : GpgError} (hmem : r ∈ recipients)
      (hkey : lib.gpgme.key r = .error err)
  | encryption {keys : List Key} {err : GpgError}
      (hkeys : recipients.mapM (getKey lib) = .ok keys)
      (herror : (g.engineAnswer lib keys plainText sign).1.2.error = some err)
  | signature {keys : List Key} {err : GpgError}
      (hkeys : recipients.mapM (getKey lib) = .ok keys)
      (hnull : (g.engineAnswer lib keys plainText sign).1.1.isNull = false)
      (herror : (g.engineAnswer lib keys plainText sign).1.1.error = some err)

theorem throwErrors_eq_error {g : GPG} {recipients : List Text}
    {signRes encRes : OperationResult} :
    (∃ e, g.throwErrors recipients signRes encRes = .error e) ↔
      (∃ err, encRes.error = some err) ∨
        signRes.isNull = false ∧ ∃ err, signRes.error = some err := by
  unfold GPG.throwErrors
  cases encRes.error <;> cases signRes.isNull <;> cases signRes.error <;> simp

theorem encrypt_fails {g : GPG} {recipients : List Text} {plainText : Blob} {sign : Bool} :
    Fails (g.encrypt lib recipients plainText sign) s ↔
      (sign = true → g.signingKeys ≠ []) ∧
        EncryptionFails lib g recipients (plainText ++ [0]) sign := by
  by_cases hrefused : sign = true ∧ g.signingKeys = []
  · simp [GPG.encrypt, hrefused]
  · have hcall : (sign && g.signingKeys.isEmpty) = false := by simpa using hrefused
    rw [and_iff_right (by simpa using hrefused)]
    simp only [GPG.encrypt, hcall, Bool.false_eq_true, if_false, fails_bind, fails_ofExcept,
      ofExcept_result, not_fails_emit, not_fails_pure, emit_apply, throwErrors_eq_error,
      and_false, exists_false, or_false, false_or, getKeys_eq_error]
    constructor
    · rintro (⟨r, hmem, err, hkey⟩ | ⟨keys, hkeys, _, _, ⟨err, herror⟩ | ⟨hnull, err, herror⟩⟩)
      · exact .recipient hmem hkey
      · exact .encryption hkeys herror
      · exact .signature hkeys hnull herror
    · rintro (⟨hmem, hkey⟩ | ⟨hkeys, herror⟩ | ⟨hkeys, hnull, herror⟩)
      · exact .inl ⟨_, hmem, _, hkey⟩
      · exact .inr ⟨_, hkeys, ⟨⟩, trivial, .inl ⟨_, herror⟩⟩
      · exact .inr ⟨_, hkeys, ⟨⟩, trivial, .inr ⟨hnull, _, herror⟩⟩

theorem sign_fails {g : GPG} {plainText : Blob} :
    Fails (g.sign lib plainText) s ↔
      g.signingKeys ≠ [] ∧
        ∃ err, (lib.gpgme.sign g.signingKeys plainText).1.error = some err := by
  by_cases hkeys : g.signingKeys = []
  · simp [GPG.sign, hkeys]
  · cases herror : (lib.gpgme.sign g.signingKeys plainText).1.error <;>
    simp [GPG.sign, hkeys, fails_bind, herror]

theorem processPlainText_fails {g : GPG} {gp : GPGParameters} :
    Fails (g.processPlainText lib data (some (.gpg gp))) s ↔
      gp.recipients ≠ [] ∧ (signs g gp = true → g.signingKeys ≠ []) ∧
        EncryptionFails lib g (g.allRecipients gp) (data ++ [0]) (signs g gp) := by
  by_cases hrecipients : gp.recipients = []
  · simp [GPG.processPlainText_of_no_recipients lib hrecipients, hrecipients]
  · rw [← encrypt_fails (s := s), and_iff_right hrecipients, Fails, Fails,
      GPG.processPlainText_of_recipients lib hrecipients]
    change (∃ e, Except.map _ (g.encrypt lib (g.allRecipients gp) data (signs g gp) s).result =
      .error e) ↔ _
    cases (g.encrypt lib (g.allRecipients gp) data (signs g gp) s).result <;>
    simp [Except.map]

/-- The object that `GPG::GPG` builds for a key, if it does not raise. -/
def signerGPG (lib : Libraries) (keyid : Text) : GPG where
  signingKeys :=
    if keyid = [] then []
    else
      match lib.gpgme.key keyid with
      | .ok key => if lib.gpgme.addSigningKey key then [key] else []
      | .error _ => []
  signerKey := keyid

theorem construct_fails {keyid : Text} :
    Fails (GPG.construct lib keyid) s ↔
      keyid ≠ [] ∧ ∃ err, lib.gpgme.key keyid = .error err := by
  by_cases hkeyid : keyid = []
  · simp [GPG.construct, hkeyid]
  · simp [GPG.construct, hkeyid, fails_bind, getKey_eq_error]

theorem construct_eq_signerGPG {keyid : Text} {g : GPG}
    (h : (GPG.construct lib keyid s).result = .ok g) : g = signerGPG lib keyid := by
  obtain ⟨signingKeys, signerKey⟩ := g
  obtain ⟨rfl, ⟨rfl, rfl⟩ | ⟨key, hkeyid, hkey, rfl⟩⟩ := GPG.construct_result_eq_ok lib h
  · rfl
  · simp [signerGPG, hkeyid, hkey]

end Ciphers

section Preparation

/-- A step of the preparation fails: the encryption with AES, the lookup of the configured
key, the construction of the GPG object, its encryption or its signature. -/
inductive StepFails (env : Env σ) (conf : StringMap) (storage : Storage) (data : Blob)
    (s : σ) : Option Parameters → Prop
  | aesUnset {e : Exn} (hscheme : storage.scheme = Scheme.AES.toInt)
      (herror : env.aesEncrypt data [] = .error e) : StepFails env conf storage data s none
  | aes {a : AESParameters} {e : Exn}
      (herror : env.aesEncrypt data (pinText (env.draw s).1) = .error e) :
      StepFails env conf storage data s (some (.aes a))
  | keyid {gp : GPGParameters} (hconf : conf.lookup pgpKeyId = none) :
      StepFails env conf storage data s (some (.gpg gp))
  | signer {gp : GPGParameters} {keyid : Text} {err : GpgError}
      (hconf : conf.lookup pgpKeyId = some keyid) (hkeyid : keyid ≠ [])
      (hkey : env.gpgme.key keyid = .error err) :
      StepFails env conf storage data s (some (.gpg gp))
  | encryption {gp : GPGParameters} {keyid : Text}
      (hconf : conf.lookup pgpKeyId = some keyid) (hrecipients : gp.recipients ≠ [])
      (hsign : signs (signerGPG env.toLibraries keyid) gp = true →
        (signerGPG env.toLibraries keyid).signingKeys ≠ [])
      (hfails : EncryptionFails env.toLibraries (signerGPG env.toLibraries keyid)
        ((signerGPG env.toLibraries keyid).allRecipients gp) (data ++ [0])
        (signs (signerGPG env.toLibraries keyid) gp)) :
      StepFails env conf storage data s (some (.gpg gp))
  | signing {gp : GPGParameters} {keyid : Text} {err : GpgError}
      (hconf : conf.lookup pgpKeyId = some keyid) (hrecipients : gp.recipients = [])
      (hsign : signs (signerGPG env.toLibraries keyid) gp = true)
      (hkeys : (signerGPG env.toLibraries keyid).signingKeys ≠ [])
      (herror : (env.gpgme.sign (signerGPG env.toLibraries keyid).signingKeys data).1.error =
        some err) :
      StepFails env conf storage data s (some (.gpg gp))

/-- The packet of a cipher text fails only in the signature that an empty one calls for. -/
theorem signWhenEmpty_fails (env : Env σ) (g : GPG) (data c : Blob) (toSign : Bool) :
    Fails (if c.isEmpty then
        if toSign then do
          message signingText
          let g ← asGPG (.gpg g)
          let res ← g.sign env.toLibraries data
          pure ({ data := data, signature := res.1 } : Packet)
        else pure { data := data }
      else pure { data := c }) s ↔
      c = [] ∧ toSign = true ∧ Fails (g.sign env.toLibraries data) s := by
  cases c with
  | cons b c => simp
  | nil =>
      cases toSign with
      | false => simp
      | true => simp [fails_bind, message, asGPG]

theorem buildPacket_gpg_fails {g : GPG} {gp : GPGParameters} {keyid : Text}
    (hkeyid : g.signerKey = keyid) :
    Fails (buildPacket env (some (.gpg g)) data (gpgLocals storage gp keyid)) s ↔
      Fails (g.processPlainText env.toLibraries data (some (.gpg gp))) s ∨
        gp.recipients = [] ∧ signs g gp = true ∧ Fails (g.sign env.toLibraries data) s := by
  have htoSign : (gpgLocals storage gp keyid).toSign = signs g gp := by
    rw [signs, hkeyid]
    rfl
  have hsparams : (gpgLocals storage gp keyid).sparams = some (.gpg gp) := rfl
  simp only [buildPacket, Cipher.processPlainText, htoSign, hsparams]
  rw [fails_bind]
  refine or_congr Iff.rfl ?_
  constructor
  · rintro ⟨c, hc, hfails⟩
    obtain ⟨rfl, hsign, hfails⟩ := (signWhenEmpty_fails env g data c _).mp hfails
    rcases processPlainText_eq_ok hc with ⟨hrecipients, _⟩ | ⟨_, _, hkeys, _⟩ |
      ⟨_, _, keys, _, hanswer, _⟩
    · exact ⟨hrecipients, hsign, sign_fails.mpr (sign_fails.mp hfails)⟩
    · exact absurd hkeys (sign_fails.mp hfails).1
    · simp at hanswer
  · rintro ⟨hrecipients, hsign, hfails⟩
    refine ⟨[], ?_, ?_⟩
    · rw [GPG.processPlainText_of_no_recipients env.toLibraries hrecipients]
      rfl
    · exact (signWhenEmpty_fails env g data [] _).mpr
        ⟨rfl, hsign, sign_fails.mpr (sign_fails.mp hfails)⟩

theorem prepareData_of_keyid {gp : GPGParameters} {keyid : Text}
    (hconf : conf.lookup pgpKeyId = some keyid) :
    Fails (prepareData env conf storage data (some (.gpg gp))) s ↔
      Fails (GPG.construct env.toLibraries keyid) s ∨
        Fails (buildPacket env (some (.gpg (signerGPG env.toLibraries keyid))) data
          (gpgLocals storage gp keyid)) s := by
  have hread : readParameters env conf storage (some (.gpg gp)) s =
      ⟨s, [], .ok (gpgLocals storage gp keyid)⟩ := by
    simp [readParameters, mapAt, hconf]
  have hget : Cipher.getFromScheme (σ := σ) env.toLibraries
        (gpgLocals storage gp keyid).scheme (gpgLocals storage gp keyid).initParams =
      Cipher.make (do pure (.gpg (← GPG.construct env.toLibraries keyid))) := rfl
  simp only [prepareData]
  rw [fails_bind_of_ok (congrArg Outcome.result hread), hread]
  simp only [hget]
  cases hg : (GPG.construct env.toLibraries keyid s).result with
  | error e =>
      refine iff_of_true ?_ (.inl ⟨e, hg⟩)
      exact fails_bind.mpr (.inl ⟨e, congrArg Outcome.result (Cipher.make_gpg_of_error _ hg)⟩)
  | ok g =>
      obtain rfl := construct_eq_signerGPG hg
      have hmake := Cipher.make_gpg_of_ok env.toLibraries hg
      rw [fails_bind_of_ok (congrArg Outcome.result hmake), hmake]
      rw [or_iff_right (not_fails_of_ok hg), fails_bind]
      simp

theorem prepareData_gpg_fails {gp : GPGParameters} :
    Fails (prepareData env conf storage data (some (.gpg gp))) s ↔
      StepFails env conf storage data s (some (.gpg gp)) := by
  cases hconf : conf.lookup pgpKeyId with
  | none =>
      refine iff_of_true ?_ (.keyid hconf)
      simp [prepareData, readParameters, mapAt, hconf, fails_bind]
  | some keyid =>
      have hkeyid : (signerGPG env.toLibraries keyid).signerKey = keyid := rfl
      rw [prepareData_of_keyid hconf, construct_fails, buildPacket_gpg_fails hkeyid,
        processPlainText_fails, sign_fails]
      constructor
      · rintro (⟨hkeyid, err, hkey⟩ | ⟨hrecipients, hsign, hfails⟩ |
          ⟨hrecipients, hsign, hkeys, err, herror⟩)
        · exact .signer hconf hkeyid hkey
        · exact .encryption hconf hrecipients hsign hfails
        · exact .signing hconf hrecipients hsign hkeys herror
      · intro h
        cases h with
        | keyid hnone => rw [hconf] at hnone; cases hnone
        | signer hconf' hkeyid hkey =>
            obtain rfl := Option.some.inj (hconf.symm.trans hconf')
            exact .inl ⟨hkeyid, _, hkey⟩
        | encryption hconf' hrecipients hsign hfails =>
            obtain rfl := Option.some.inj (hconf.symm.trans hconf')
            exact .inr (.inl ⟨hrecipients, hsign, hfails⟩)
        | signing hconf' hrecipients hsign hkeys herror =>
            obtain rfl := Option.some.inj (hconf.symm.trans hconf')
            exact .inr (.inr ⟨hrecipients, hsign, hkeys, _, herror⟩)

theorem prepareData_null_fails :
    Fails (prepareData env conf storage data none) s ↔
      StepFails env conf storage data s none := by
  by_cases haes : storage.scheme = Scheme.AES.toInt
  · have hcipher : Fails (prepareData env conf storage data none) s ↔
        ∃ e, env.aesEncrypt data [] = .error e := by
      have hread : readParameters env conf storage none s =
          ⟨s, [], .ok ⟨storage.scheme, false, none, [], none⟩⟩ := rfl
      have hmake : Cipher.getFromScheme env.toLibraries Scheme.AES.toInt none s =
          ⟨s, [.newCipher .AES], .ok (some .aes)⟩ := rfl
      simp only [prepareData]
      rw [fails_bind_of_ok (congrArg Outcome.result hread), hread]
      simp only [haes]
      rw [fails_bind_of_ok (congrArg Outcome.result hmake), hmake]
      simp [fails_bind, buildPacket, Cipher.processPlainText, AES.processPlainText, message,
        AES.getPassword, ← apply_ite]
    rw [hcipher]
    constructor
    · rintro ⟨e, h⟩
      exact .aesUnset haes h
    · rintro ⟨_, h⟩
      exact ⟨_, h⟩
  · refine iff_of_false ?_ ?_
    · by_cases hgpg : storage.scheme = Scheme.GPG.toInt
      · simp [prepareData, readParameters, Cipher.getFromScheme, hgpg, Scheme.toInt,
          Cipher.make, GPG.construct_nil, buildPacket, Cipher.processPlainText,
          GPG.processPlainText, fails_bind]
      · simp [prepareData, readParameters, Cipher.getFromScheme, hgpg, haes, buildPacket,
          fails_bind]
    · rintro ⟨h, _⟩
      exact haes h

theorem prepareData_fails :
    Fails (prepareData env conf storage data params) s ↔
      StepFails env conf storage data s params := by
  rcases params with _ | gp | a
  · exact prepareData_null_fails
  · exact prepareData_gpg_fails
  · unfold Fails
    rw [prepareData_aes]
    constructor
    · rintro ⟨e, h⟩
      cases hc : env.aesEncrypt data (pinText (env.draw s).1) with
      | error e => exact .aes hc
      | ok c => simp [hc, Except.map] at h
    · intro h
      cases h with
      | aes herror => exact ⟨_, by simp [herror, Except.map]; rfl⟩

end Preparation

section Pasting

theorem paste_of_step_failure
    (h : StepFails env conf storage data (env.draw s).2 params) :
    Fails (paste env conf storage data params) s ∧
      ∀ e ∈ (paste env conf storage data params s).events, ¬e.IsPublication := by
  rcases paste_cases env conf storage data params s with
    ⟨p, pwd, bytes, hprepared⟩ | ⟨hfails, _, hnone⟩
  · exact absurd (prepareData_fails.mpr h) (not_fails_of_ok hprepared.packet)
  · exact ⟨hfails, hnone⟩

theorem paste_of_refused {p : Packet} {pwd : Text} {bytes : Blob}
    (h : Prepared env conf storage data params s p pwd bytes)
    (hrefused : ∀ e ∈ (paste env conf storage data params s).events, e.accepts = false) :
    (paste env conf storage data params s).result = .ok [] := by
  obtain ⟨success, hresult, _⟩ := paste_prepared_result h
  have hcount := countP_accepts_paste env conf storage data params s
  have hzero : (paste env conf storage data params s).events.countP Event.accepts = 0 :=
    List.countP_eq_zero.mpr fun e he => Bool.eq_false_iff.mp (hrefused e he)
  rw [hzero, hresult] at hcount
  cases success with
  | false => exact hresult
  | true => simp [uriCount] at hcount

/-- What the documentation of `Bin::paste` wants from a paste that goes wrong: the empty
string. Nothing reaches a transport when the packet cannot be prepared. -/
def FailsCleanly (env : Env σ) (conf : StringMap) (storage : Storage) (data : Blob)
    (params : Option Parameters) (s : σ) : Prop :=
  (Fails (prepareData env conf storage data params) (env.draw s).2 →
    (paste env conf storage data params s).result = .ok [] ∧
      ∀ e ∈ (paste env conf storage data params s).events, ¬e.IsPublication) ∧
  ∀ p pwd bytes, Prepared env conf storage data params s p pwd bytes →
    (∀ e ∈ (paste env conf storage data params s).events, e.accepts = false) →
      (paste env conf storage data params s).result = .ok []

/-- A paste goes wrong cleanly unless a step of the preparation fails: `Bin::paste` has no
handler for the exception. -/
theorem failsCleanly_iff (env : Env σ) (conf : StringMap) (storage : Storage) (data : Blob)
    (params : Option Parameters) (s : σ) :
    FailsCleanly env conf storage data params s ↔
      ¬StepFails env conf storage data (env.draw s).2 params := by
  constructor
  · rintro ⟨hclean, _⟩ hstep
    have hresult := (hclean (prepareData_fails.mpr hstep)).1
    exact not_fails_of_ok hresult (paste_of_step_failure hstep).1
  · intro hstep
    constructor
    · intro hfails
      exact absurd (prepareData_fails.mp hfails) hstep
    · intro p pwd bytes h
      exact paste_of_refused h

/-- A process whose key ring is empty. -/
def keylessEnv : Env Unit where
  gpgme := { sampleGpgME with key := fun _ => .error ⟨9⟩ }
  aesEncrypt := (sampleLibraries 0).aesEncrypt
  aesDecrypt := (sampleLibraries 0).aesDecrypt
  draw s := (42, s)
  httpGet _ s := (.ok [], s)
  httpPut _ _ s := (true, s)
  nodeGet _ s := ([], s)
  nodePaste _ _ s := (true, s)

/-- The recipient of a paste has no key. -/
theorem failsCleanly_counterexample :
    Fails (prepareData keylessEnv [(pgpKeyId, [])] ⟨0, false, false⟩ [0x64, 0x0A]
        (some (.gpg (.ofRecipients ["A1B2".toList] false false)))) () ∧
      (paste keylessEnv [(pgpKeyId, [])] ⟨0, false, false⟩ [0x64, 0x0A]
        (some (.gpg (.ofRecipients ["A1B2".toList] false false))) ()).result =
          .error (.gpgme ⟨9⟩ "Failed to retrieve key with ID A1B2".toList) :=
  ⟨⟨_, rfl⟩, rfl⟩

end Pasting

end Dpaste.PasteFailures
