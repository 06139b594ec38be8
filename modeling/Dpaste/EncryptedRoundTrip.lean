import Dpaste.TransportStores

/-!
Encrypted pastes. An AES paste comes back exactly when its cipher text is not
taken for a PGP message. A GPG paste comes back with a NUL byte at its end.
-/

namespace Dpaste.EncryptedRoundTrip

open Dpaste.EffectTraces
open Dpaste.LibraryInterfaces
open Dpaste.CipherParameters
open Dpaste.GpgCipher
open Dpaste.CipherSelection
open Dpaste.LocationCodes
open Dpaste.PacketEncoding
open Dpaste.BinOperations
open Dpaste.PacketPreparation
open Dpaste.PasteAndGet
open Dpaste.AppendOnlyStores
open Dpaste.TransportStores

variable {σ π ρ : Type} {conf : StringMap} {storage : Storage} {data : Blob}

/-- A world in which the transports answer for one code as they do in another. -/
def Agree (code : Text) (w : World π) (w' : World ρ) : Prop :=
  w'.http code = w.http code ∧ w'.dht code = w.dht code

theorem HoldOnly.agree {code : Text} {bytes : Blob} {w : World π} {w' : World ρ}
    (h : HoldOnly w.http w.dht code bytes) (hagree : Agree code w w') :
    HoldOnly w'.http w'.dht code bytes := by
  rw [HoldOnly, hagree.1, hagree.2]
  exact h

section AES

theorem packet_of_aes (env : Env σ) {a : AESParameters} {s : σ} {p : Packet}
    {pwd : Text} (hencrypt : ∀ text password c, env.aesEncrypt text password = .ok c → c ≠ [])
    (h : (prepareData env conf storage data (some (.aes a)) s).result = .ok (p, pwd)) :
    pwd = pinText (env.draw s).1 ∧ env.aesEncrypt data pwd = .ok p.data := by
  obtain ⟨hpwd, c, hc, rfl⟩ := prepareData_aes_eq_ok env h
  rw [if_neg (hencrypt _ _ c hc)]
  exact ⟨hpwd, hc⟩

/-- A packet that looks like a PGP message never reaches the AES cipher. -/
theorem confined_openPacket_pgp (env : Env σ) (code pwd : Text) {p : Packet}
    (h : isGPGencrypted env.toLibraries p.data = true) :
    Confined (fun _ => ()) (fun e => e ≠ .newCipher .AES)
      (openPacket env code pwd false p) := by
  intro s
  refine ⟨rfl, ?_⟩
  intro e he
  rw [openPacket_pgp env h] at he
  rcases List.mem_cons.mp he with rfl | he
  · simp
  · have hgpg := (GPG.confined_processCipherText env.toLibraries (fun _ => ()) ⟨[], []⟩
      p.data none s).2 e he
    rintro rfl
    exact hgpg

/-- An AES paste comes back, by the AES cipher under the password of its URI, if
and only if its cipher text is not taken for a PGP message. -/
theorem paste_get_aes (lib rlib : Libraries) (draw : π → UInt32 × π)
    (rdraw : ρ → UInt32 × ρ) (t rt : Transports) (conf : StringMap) (storage : Storage)
    (data : Blob) (a : AESParameters) (w : World π) (hdata : data ≠ [])
    (hhttp : w.http (pinText (draw w.pins).1) = [])
    (hdht : w.dht (pinText (draw w.pins).1) = [])
    (hencrypt : ∀ text password c, lib.aesEncrypt text password = .ok c → c ≠ [])
    (hdecrypt : ∀ text password c, text ≠ [] → lib.aesEncrypt text password = .ok c →
      rlib.aesDecrypt c password = .ok text) :
    let code := pinText (draw w.pins).1
    let pwd := pinText (draw (draw w.pins).2).1
    let o := paste (storeEnv lib draw t) conf storage data (some (.aes a)) w
    ∀ uri, o.result = .ok uri → uri ≠ [] →
      uri = DPASTE_URI_PREFIX ++ code ++ pwd ∧
      ∃ c, lib.aesEncrypt data pwd = .ok c ∧
        ∀ w' : World ρ, Agree code o.state w' →
          let g := get (storeEnv rlib rdraw rt) uri false w'
          (.newCipher .AES ∈ g.events ∧ .aesDecrypt c pwd ∈ g.events ∧
              g.result = .ok (true, data)) ↔
            isGPGencrypted rlib c = false := by
  intro code pwd o uri hresult huri
  obtain ⟨p, pwd', bytes, h, hpasted, hstored⟩ := stored_of_uri hhttp hdht hresult huri
  obtain ⟨rfl, hc⟩ := packet_of_aes (storeEnv lib draw t) hencrypt h.packet
  have hpasted : uri = DPASTE_URI_PREFIX ++ code ++ pwd := hpasted
  refine ⟨hpasted, p.data, hc, ?_⟩
  intro w' hagree
  have hold : HoldOnly w'.http w'.dht code bytes :=
    HoldOnly.agree (w := o.state) hstored hagree
  have hnames : Names uri (code ++ pwd) := .inl (by rw [hpasted, List.append_assoc])
  have hlen : (code ++ pwd).length = AES.PIN_WITH_PASS_LEN := by
    simp [code, pwd, AES.PIN_WITH_PASS_LEN]
  constructor
  · rintro ⟨haes, _⟩
    by_contra hpgp
    obtain ⟨s, lookups, hlookups, hget⟩ := get_pasted rlib rdraw rt false
      (isHex_pinText _) hnames h.bytes hold
    have hpgp : isGPGencrypted rlib p.data = true := by simpa using hpgp
    have hconfined := Confined.handle (catchClauses (storeEnv rlib rdraw rt) bytes)
      (Confined.bind (confined_openPacket_pgp (storeEnv rlib rdraw rt) (code ++ pwd) pwd
        hpgp) fun data => Confined.pure (true, data))
      (fun _ _ hclause =>
        confined_catchClauses (storeEnv rlib rdraw rt) (by simp) hclause) s
    rw [hget] at haes
    rcases List.mem_append.mp haes with hmem | hmem
    · exact hlookups _ hmem
    · exact hconfined.2 _ hmem rfl
  · intro hplain
    have hback : (storeEnv rlib rdraw rt).aesDecrypt p.data pwd = .ok data :=
      hdecrypt data _ p.data hdata hc
    have hopen (s : World ρ) : openPacket (storeEnv rlib rdraw rt) (code ++ pwd) pwd false
        p s = ⟨s, [.newCipher .AES, .message AES.decryptingText,
          .aesDecrypt p.data pwd], .ok data⟩ := by
      rw [openPacket_aes (storeEnv rlib rdraw rt) hplain hlen s, hback]
    obtain ⟨hresult, hevents⟩ := get_pasted_of_opened rlib rdraw rt (isHex_pinText _)
      hnames h.bytes hold hopen
    exact ⟨hevents _ (by simp), hevents _ (by simp), hresult⟩

/-- An AES whose cipher texts are as long as the real ones: the salt of the key, of 16 bytes,
and a nonce of 12 bytes stand before the data, and a tag of 16 bytes behind it. GpgME finds
no message to decrypt. -/
def saltedLibraries (salt : Blob) : Libraries :=
  { sampleLibraries 0 with
    gpgme := { sampleGpgME with
      decryptAndVerify := fun _ => (({ isNull := false, error := some ⟨58⟩ }, ⟨none, []⟩), [])
      what := fun _ _ => "No data".toList }
    aesEncrypt := fun text _ =>
      .ok (salt ++ List.replicate 12 0x00 ++ text ++ List.replicate 16 0x00)
    aesDecrypt := fun c _ => .ok ((c.drop 28).take (c.length - 44)) }

def saltedEnv (salt : Blob) : Env (World UInt32) :=
  storeEnv (saltedLibraries salt) countUp sampleTransports

theorem saltedLibraries_round_trip {salt text c : Blob} {password : Text} (hsalt : salt.length = 16)
    (h : (saltedLibraries salt).aesEncrypt text password = .ok c) :
    c ≠ [] ∧ (saltedLibraries salt).aesDecrypt c password = .ok text := by
  obtain rfl : salt ++ List.replicate 12 0x00 ++ text ++ List.replicate 16 0x00 = c :=
    Except.ok.inj h
  refine ⟨by simp, congrArg Except.ok ?_⟩
  have hstart : (salt ++ List.replicate 12 (0x00 : UInt8)).length = 28 := by simp [hsalt]
  have hlength : (salt ++ List.replicate 12 0x00 ++ text ++
      List.replicate 16 (0x00 : UInt8)).length - 44 = text.length := by
    simp [hsalt]
    omega
  rw [hlength, List.append_assoc, ← hstart, List.drop_left, List.take_left]

def aesSample (salt : Blob) : Outcome (World UInt32) Event Exn Text :=
  paste (saltedEnv salt) [] ⟨0, false, false⟩ [0x64, 0x0A] (some (.aes ⟨[]⟩))
    (World.initial 42)

theorem paste_get_aes_sample :
    (get (saltedEnv (List.replicate 16 0x00)) "dpaste:0000002A0000002B".toList false
        (aesSample (List.replicate 16 0x00)).state).result =
      .ok (true, [0x64, 0x0A]) := by
  obtain ⟨_, c, hc, h⟩ := paste_get_aes (saltedLibraries (List.replicate 16 0x00))
    (saltedLibraries (List.replicate 16 0x00)) countUp countUp sampleTransports sampleTransports
    [] ⟨0, false, false⟩ [0x64, 0x0A] ⟨[]⟩ (World.initial 42) (by decide) rfl rfl
    (fun _ _ _ h => (saltedLibraries_round_trip (by decide) h).1)
    (fun _ _ _ _ h => (saltedLibraries_round_trip (by decide) h).2)
    "dpaste:0000002A0000002B".toList rfl (by decide)
  have hplain : isGPGencrypted (saltedLibraries (List.replicate 16 0x00)) c = false := by
    rw [← Except.ok.inj hc]
    rfl
  exact ((h _ ⟨rfl, rfl⟩).mpr hplain).2.2

/-- The random bytes at the start of a cipher text of 46 bytes, as the header of an OpenPGP
packet: a session key for a public key, version 3, in the 43 bytes that follow. -/
def pgpSalt : Blob := [0x85, 0x00, 0x2B, 0x03] ++ List.replicate 12 0x00

/-- A cipher text that begins like a PGP message is given to the GPG cipher, and
the paste does not come back. -/
theorem paste_get_aes_counterexample :
    (aesSample pgpSalt).result = .ok "dpaste:0000002A0000002B".toList ∧
      .aesEncrypt [0x64, 0x0A] "0000002B".toList ∈ (aesSample pgpSalt).events ∧
      (get (saltedEnv pgpSalt) "dpaste:0000002A0000002B".toList false
          (aesSample pgpSalt).state).events =
        [.httpGet "0000002A".toList, .newCipher .GPG, .message GPG.decryptingText,
          .gpgDecryptAndVerify ([0x85, 0x00, 0x2B, 0x03] ++ List.replicate 24 0x00 ++
            [0x64, 0x0A] ++ List.replicate 16 0x00), .message "No data".toList] ∧
      (get (saltedEnv pgpSalt) "dpaste:0000002A0000002B".toList false
          (aesSample pgpSalt).state).result =
        .ok (false, []) := by
  refine ⟨rfl, ?_, rfl, rfl⟩
  exact .tail _ (.tail _ (.head _))

end AES

section GPG

/-- The libraries identify a message, with a NUL byte after it, as PGP-encrypted and
decrypt it to a text. -/
def Opens (lib : Libraries) (armored text : Blob) : Prop :=
  isGPGencrypted lib (armored ++ [0]) = true ∧
    ∃ decRes verifRes, lib.gpgme.decryptAndVerify (armored ++ [0]) =
        ((decRes, verifRes), text) ∧
      decRes.error = none ∧ verifRes.error = none

/-- The libraries of a holder of a key open what was encrypted for this key, and
find exactly the encrypted bytes. -/
structure Holder (lib rlib : Libraries) (key : Key) : Prop where
  encrypt : ∀ keys text, key ∈ keys → (lib.gpgme.encrypt keys text).1.error = none →
    Opens rlib (lib.gpgme.encrypt keys text).2 text
  signAndEncrypt : ∀ signers keys text, key ∈ keys →
    (lib.gpgme.signAndEncrypt signers keys text).1.2.error = none →
    ((lib.gpgme.signAndEncrypt signers keys text).1.1.isNull = false →
      (lib.gpgme.signAndEncrypt signers keys text).1.1.error = none) →
    Opens rlib (lib.gpgme.signAndEncrypt signers keys text).2 text

theorem mem_of_mapM_getKey {lib : Libraries} {recipients : List Text} {keys : List Key}
    {r : Text} {key : Key} (hkeys : recipients.mapM (getKey lib) = .ok keys)
    (hr : r ∈ recipients) (hkey : lib.gpgme.key r = .ok key) : key ∈ keys := by
  induction recipients generalizing keys with
  | nil => simp at hr
  | cons first rest ih =>
      rw [List.mapM_cons] at hkeys
      cases hfirst : getKey lib first with
      | error e => simp [hfirst, bind, Except.bind] at hkeys
      | ok k =>
          cases hrest : rest.mapM (getKey lib) with
          | error e => simp [hfirst, hrest, bind, Except.bind] at hkeys
          | ok ks =>
              simp only [hfirst, hrest, bind, Except.bind, pure, Except.pure,
                Except.ok.injEq] at hkeys
              subst hkeys
              rcases List.mem_cons.mp hr with rfl | hr
              · simp only [getKey, hkey, Except.ok.injEq] at hfirst
                simp [hfirst]
              · exact List.mem_cons_of_mem _ (ih hrest hr)

theorem mem_allRecipients {g : GPG} {gp : GPGParameters} {r : Text}
    (hr : r ∈ gp.recipients) : r ∈ g.allRecipients gp := by
  unfold GPG.allRecipients
  split
  · exact List.mem_append_left _ hr
  · exact hr

theorem engineAnswer_error {g : GPG} {lib : Libraries} {recipients : List Text}
    {plainText : Blob} {sign : Bool} {s : σ} {res : Blob × OperationResult × OperationResult}
    {keys : List Key} (h : (g.encrypt lib recipients plainText sign s).result = .ok res)
    (hkeys : recipients.mapM (getKey lib) = .ok keys)
    (hsign : sign = true → g.signingKeys ≠ []) :
    let results := (g.engineAnswer lib keys (plainText ++ [0]) sign).1
    results.2.error = none ∧ (results.1.isNull = false → results.1.error = none) := by
  intro results
  have hnot : (sign && g.signingKeys.isEmpty) = false := by
    cases sign with
    | false => rfl
    | true => simpa using hsign rfl
  cases hthrow : g.throwErrors recipients results.1 results.2 with
  | error e => simp [GPG.encrypt, hnot, hkeys, results, hthrow] at h
  | ok u =>
      cases hencrypt : results.2.error with
      | some err => simp [GPG.throwErrors, hencrypt] at hthrow
      | none =>
          refine ⟨rfl, ?_⟩
          intro hnull
          cases hsignature : results.1.error with
          | none => rfl
          | some err => simp [GPG.throwErrors, hencrypt, hnull, hsignature] at hthrow

/-- A cipher text that is not empty is a message that a holder of a recipient's key
opens to the plain text with a NUL byte at its end. -/
theorem opens_of_processPlainText {lib rlib : Libraries} {g : GPG} {gp : GPGParameters}
    {plainText c : Blob} {s : σ} {r : Text} {key : Key}
    (h : (g.processPlainText lib plainText (some (.gpg gp)) s).result = .ok c)
    (hc : c ≠ []) (hr : r ∈ gp.recipients) (hkey : lib.gpgme.key r = .ok key)
    (hholder : Holder lib rlib key) :
    ∃ armored, c = armored ++ [0] ∧ Opens rlib armored (plainText ++ [0]) := by
  rw [GPG.processPlainText_of_recipients lib (List.ne_nil_of_mem hr)] at h
  simp only at h
  generalize (gp.sign && !g.signerKey.isEmpty) = toSign at h
  cases hres : (g.encrypt lib (g.allRecipients gp) plainText toSign s).result with
  | error e => simp [hres, Except.map] at h
  | ok res =>
      simp only [hres, Except.map, Except.ok.injEq] at h
      rcases GPG.encrypt_result_eq_ok lib hres with
        ⟨_, _, hempty, _⟩ | ⟨hsign, keys, hkeys, hanswer, _⟩
      · exact absurd (h.symm.trans hempty) hc
      · refine ⟨_, h.symm.trans hanswer, ?_⟩
        have hmem := mem_of_mapM_getKey hkeys (mem_allRecipients (g := g) hr) hkey
        obtain ⟨hencrypt, hsignature⟩ := engineAnswer_error hres hkeys hsign
        cases toSign with
        | false => exact hholder.encrypt keys _ hmem hencrypt
        | true => exact hholder.signAndEncrypt _ keys _ hmem hencrypt hsignature

theorem processCipherText_of_opens {lib : Libraries} {armored text : Blob}
    (h : Opens lib armored text) :
    ∃ events, ∀ (g : GPG) (s : σ),
      g.processCipherText lib (armored ++ [0]) none s = ⟨s, events, .ok text⟩ := by
  obtain ⟨_, decRes, verifRes, hdecrypt, hdec, hverif⟩ := h
  refine ⟨[.message GPG.decryptingText, .gpgDecryptAndVerify (armored ++ [0]),
    .message GPG.successText] ++ comments verifRes, fun g s => ?_⟩
  simp [processCipherText_apply, hdecrypt, hdec, hverif]

theorem packet_of_gpg (env : Env σ) {gp : GPGParameters} {s : σ} {p : Packet}
    {pwd keyid : Text} {g : GPG} {c : Blob} (hkeyid : conf.lookup pgpKeyId = some keyid)
    (hg : (GPG.construct env.toLibraries keyid s).result = .ok g)
    (hc : (g.processPlainText env.toLibraries data (some (.gpg gp)) s).result = .ok c)
    (hne : c ≠ [])
    (h : (prepareData env conf storage data (some (.gpg gp)) s).result = .ok (p, pwd)) :
    p.data = c ∧ pwd = [] := by
  obtain ⟨keyid', g', hkeyid', hg', hpwd, hbuild, _⟩ := prepareData_gpg_eq_ok env h
  obtain rfl : keyid = keyid' := Option.some.inj (hkeyid.symm.trans hkeyid')
  obtain rfl : g = g' := Except.ok.inj (hg.symm.trans hg')
  obtain ⟨c', hc', hpacket⟩ := buildPacket_gpg_eq_ok env hbuild
  obtain rfl : c = c' := Except.ok.inj (hc.symm.trans hc')
  rcases hpacket with ⟨_, rfl, _⟩ | ⟨hempty, _⟩ | ⟨hempty, _⟩
  · exact ⟨rfl, hpwd⟩
  · exact absurd hempty hne
  · exact absurd hempty hne

/-- A GPG encryption never comes back exactly: whenever there is a cipher text, the
holder of a recipient's key decrypts it to the plain text and one more NUL byte, and
this is also what a get of the paste returns. -/
theorem paste_get_gpg (lib rlib : Libraries) (draw : π → UInt32 × π)
    (rdraw : ρ → UInt32 × ρ) (t rt : Transports) (conf : StringMap) (storage : Storage)
    (data : Blob) (gp : GPGParameters) (w : World π) {keyid r : Text} {key : Key}
    (hkeyid : conf.lookup pgpKeyId = some keyid) (hr : r ∈ gp.recipients)
    (hkey : lib.gpgme.key r = .ok key) (hholder : Holder lib rlib key)
    (hhttp : w.http (pinText (draw w.pins).1) = [])
    (hdht : w.dht (pinText (draw w.pins).1) = []) :
    let env := storeEnv lib draw t
    let s := (env.draw w).2
    let o := paste env conf storage data (some (.gpg gp)) w
    ∀ g c, (GPG.construct lib keyid s).result = .ok g →
      (g.processPlainText lib data (some (.gpg gp)) s).result = .ok c → c ≠ [] →
      (∀ (g' : GPG) (s' : World ρ),
        (g'.processCipherText rlib c none s').result = .ok (data ++ [0]) ∧
          (g'.processCipherText rlib c none s').result ≠ .ok data) ∧
      ∀ uri, o.result = .ok uri → uri ≠ [] →
        ∀ w' : World ρ, Agree (pinText (draw w.pins).1) o.state w' →
          (get (storeEnv rlib rdraw rt) uri false w').result = .ok (true, data ++ [0]) ∧
            (get (storeEnv rlib rdraw rt) uri false w').result ≠ .ok (true, data) := by
  intro env s o g c hg hc hne
  have hlonger : data ++ [0] ≠ data := by simp
  obtain ⟨armored, rfl, hopens⟩ := opens_of_processPlainText hc hne hr hkey hholder
  obtain ⟨events, hprocess⟩ := processCipherText_of_opens (σ := World ρ) hopens
  constructor
  · intro g' s'
    rw [hprocess g' s']
    exact ⟨rfl, fun h => hlonger (Except.ok.inj h)⟩
  · intro uri hresult huri w' hagree
    obtain ⟨p, pwd, bytes, h, hpasted, hstored⟩ := stored_of_uri hhttp hdht hresult huri
    obtain ⟨hdata, rfl⟩ := packet_of_gpg (storeEnv lib draw t) hkeyid hg hc hne h.packet
    have hold : HoldOnly w'.http w'.dht (pinText (draw w.pins).1) bytes :=
      HoldOnly.agree (w := o.state) hstored hagree
    have hnames : Names uri (pinText (draw w.pins).1 ++ []) :=
      .inl (by rw [hpasted, List.append_assoc])
    have hopen (s : World ρ) : openPacket (storeEnv rlib rdraw rt)
        (pinText (draw w.pins).1 ++ []) [] false p s =
          ⟨s, .newCipher .GPG :: events, .ok (data ++ [0])⟩ := by
      have hprocess : (⟨[], []⟩ : GPG).processCipherText
          (storeEnv rlib rdraw rt).toLibraries p.data none s =
            ⟨s, events, .ok (data ++ [0])⟩ := by
        rw [hdata]
        exact hprocess ⟨[], []⟩ s
      rw [openPacket_pgp (storeEnv rlib rdraw rt) (by rw [hdata]; exact hopens.1), hprocess]
    have hget := (get_pasted_of_opened rlib rdraw rt isHex_nil hnames h.bytes hold
      hopen).1
    refine ⟨hget, ?_⟩
    intro h
    exact hlonger (congrArg Prod.snd (Except.ok.inj (hget.symm.trans h)))

theorem sampleLibraries_holder (salt : UInt8) (key : Key) :
    Holder (sampleLibraries salt) (sampleLibraries salt) key := by
  have hopens (text : Blob) : Opens (sampleLibraries salt) (0x85 :: text) text :=
    ⟨rfl, { isNull := false }, ⟨none, []⟩, by simp [sampleLibraries, sampleGpgME], rfl, rfl⟩
  exact ⟨fun _ text _ _ => hopens text, fun _ _ text _ _ _ => hopens text⟩

def gpgSample : Outcome (World UInt32) Event Exn Text :=
  paste (sampleEnv 0)
    [(pgpKeyId, "A1B2".toList)] ⟨0, false, false⟩ [0x64, 0x0A]
    (some (.gpg (.ofRecipients ["C3D4".toList] true true))) (World.initial 42)

theorem paste_get_gpg_sample :
    (get (sampleEnv 0) "dpaste:0000002A".toList false gpgSample.state).result =
      .ok (true, [0x64, 0x0A, 0x00]) :=
  ((paste_get_gpg (sampleLibraries 0) (sampleLibraries 0) countUp countUp sampleTransports
    sampleTransports [(pgpKeyId, "A1B2".toList)] ⟨0, false, false⟩ [0x64, 0x0A]
    (.ofRecipients ["C3D4".toList] true true) (World.initial 42) rfl
    (List.mem_singleton.mpr rfl) rfl (sampleLibraries_holder 0 _) rfl rfl
    ⟨[⟨"A1B2".toList⟩], "A1B2".toList⟩ [0x85, 0x64, 0x0A, 0x00, 0x00] rfl rfl
    (List.cons_ne_nil _ _)).2 "dpaste:0000002A".toList rfl (by decide) _ ⟨rfl, rfl⟩).1

/-- Two bytes are pasted for a recipient, and three come back. -/
theorem paste_get_gpg_counterexample :
    gpgSample.result = .ok "dpaste:0000002A".toList ∧
      (get (sampleEnv 0) "dpaste:0000002A".toList false gpgSample.state).result =
        .ok (true, [0x64, 0x0A, 0x00]) ∧
      (.ok (true, [0x64, 0x0A, 0x00]) : Except Exn (Bool × Blob)) ≠
        .ok (true, [0x64, 0x0A]) := by
  refine ⟨rfl, rfl, ?_⟩
  intro h
  cases h

end GPG

end Dpaste.EncryptedRoundTrip
