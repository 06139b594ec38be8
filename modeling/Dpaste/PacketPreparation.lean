import Dpaste.BinOperations

/-!
What `prepare_data` does for each kind of parameters: its calls, and the packet
and the password that it returns.
-/

namespace Dpaste.PacketPreparation

open Dpaste.EffectTraces
open Dpaste.LibraryInterfaces
open Dpaste.CipherParameters
open Dpaste.GpgCipher
open Dpaste.CipherSelection
open Dpaste.LocationCodes
open Dpaste.PacketEncoding
open Dpaste.BinOperations

variable {σ : Type} (env : Env σ) {conf : StringMap} {storage : Storage}
  {data : Blob}

theorem prepareData_null (h : storage.scheme = Scheme.NONE.toInt) (s : σ) :
    prepareData env conf storage data none s =
      ⟨s, [.newCipher .NONE], .ok ({ data := data }, [])⟩ := by
  simp [prepareData, readParameters, Cipher.getFromScheme, h, Scheme.toInt,
    buildPacket]

/-- With AES parameters the cipher text under a fresh password is the data of
the packet, unless it is empty. -/
theorem prepareData_aes (a : AESParameters) (s : σ) :
    prepareData env conf storage data (some (.aes a)) s =
      let pwd := pinText (env.draw s).1
      ⟨(env.draw s).2,
        [.newCipher .AES, .message AES.encryptingText, .aesEncrypt data pwd],
        (env.aesEncrypt data pwd).map fun c =>
          (if c = [] then { data := data } else { data := c }, pwd)⟩ := by
  cases h : env.aesEncrypt data (pinText (env.draw s).1) with
  | error e =>
      simp [prepareData, readParameters, randomPin, aesLocals, Cipher.getFromScheme,
        Cipher.make, Cipher.scheme, buildPacket, Cipher.processPlainText,
        AES.processPlainText, AES.getPassword, message, h, Except.map]
  | ok c =>
      by_cases hc : c = [] <;>
      simp [prepareData, readParameters, randomPin, aesLocals, Cipher.getFromScheme,
        Cipher.make, Cipher.scheme, buildPacket, Cipher.processPlainText,
        AES.processPlainText, AES.getPassword, message, h, hc, Except.map]

theorem prepareData_aes_eq_ok {a : AESParameters} {s : σ} {p : Packet} {pwd : Text}
    (h : (prepareData env conf storage data (some (.aes a)) s).result = .ok (p, pwd)) :
    pwd = pinText (env.draw s).1 ∧
      ∃ c, env.aesEncrypt data pwd = .ok c ∧
        p = if c = [] then { data := data } else { data := c } := by
  rw [prepareData_aes] at h
  change Except.map _ (env.aesEncrypt data (pinText (env.draw s).1)) = _ at h
  cases hc : env.aesEncrypt data (pinText (env.draw s).1) with
  | error e => simp [hc, Except.map] at h
  | ok c =>
      simp only [hc, Except.map, Except.ok.injEq, Prod.mk.injEq] at h
      obtain ⟨rfl, rfl⟩ := h
      exact ⟨rfl, c, hc, rfl⟩

/-- With GPG parameters the packet is built by the cipher of the configured key. -/
theorem prepareData_gpg_eq_ok {gp : GPGParameters} {s : σ} {r : Packet × Text}
    (h : (prepareData env conf storage data (some (.gpg gp)) s).result = .ok r) :
    ∃ keyid g, conf.lookup pgpKeyId = some keyid ∧
      (GPG.construct env.toLibraries keyid s).result = .ok g ∧ r.2 = [] ∧
      (buildPacket env (some (.gpg g)) data (gpgLocals storage gp keyid) s).result =
        .ok r.1 ∧
      (prepareData env conf storage data (some (.gpg gp)) s).events =
        .newCipher .GPG ::
          (buildPacket env (some (.gpg g)) data (gpgLocals storage gp keyid) s).events := by
  cases hkey : conf.lookup pgpKeyId with
  | none => simp [prepareData, readParameters, mapAt, hkey] at h
  | some keyid =>
      have hread : readParameters env conf storage (some (.gpg gp)) s =
          ⟨s, [], .ok (gpgLocals storage gp keyid)⟩ := by
        simp [readParameters, mapAt, hkey]
      have hget : Cipher.getFromScheme (σ := σ) env.toLibraries
            (gpgLocals storage gp keyid).scheme (gpgLocals storage gp keyid).initParams =
          Cipher.make (do pure (.gpg (← GPG.construct env.toLibraries keyid))) := rfl
      simp only [prepareData, bind_apply, hread, Outcome.andThen_ok, hget] at h ⊢
      cases hg : (GPG.construct env.toLibraries keyid s).result with
      | error e => simp [Cipher.make_gpg_of_error _ hg] at h
      | ok g =>
          simp only [Cipher.make_gpg_of_ok _ hg, Outcome.andThen_ok, bind_apply] at h ⊢
          obtain ⟨p, hp, hr⟩ := Outcome.andThen_result_eq_ok.mp h
          simp only [pure_apply, Except.ok.injEq] at hr
          subst hr
          refine ⟨keyid, g, rfl, hg, rfl, hp, ?_⟩
          simp [Outcome.andThen_of_ok hp]

/-- The packet of a GPG cipher: a cipher text that is not empty, or else the
plain data with a signature when one is asked for. -/
theorem buildPacket_gpg_eq_ok {g : GPG} {l : Locals} {s : σ} {p : Packet}
    (h : (buildPacket env (some (.gpg g)) data l s).result = .ok p) :
    ∃ c, (g.processPlainText env.toLibraries data l.sparams s).result = .ok c ∧
      ((c ≠ [] ∧ p = { data := c } ∧
          (buildPacket env (some (.gpg g)) data l s).events =
            (g.processPlainText env.toLibraries data l.sparams s).events) ∨
        (c = [] ∧ l.toSign = false ∧ p = { data := data } ∧
          (buildPacket env (some (.gpg g)) data l s).events =
            (g.processPlainText env.toLibraries data l.sparams s).events) ∨
        c = [] ∧ l.toSign = true ∧
          ∃ res, (g.sign env.toLibraries data s).result = .ok res ∧
            p = { data := data, signature := res.1 } ∧
            (buildPacket env (some (.gpg g)) data l s).events =
              (g.processPlainText env.toLibraries data l.sparams s).events ++
                .message signingText :: (g.sign env.toLibraries data s).events) := by
  have hstate := (GPG.confined_processPlainText env.toLibraries id g data
    l.sparams).state_eq s
  simp only [buildPacket, bind_apply, Cipher.processPlainText] at h ⊢
  obtain ⟨c, hc, hp⟩ := Outcome.andThen_result_eq_ok.mp h
  rw [hstate] at hp
  refine ⟨c, hc, ?_⟩
  rw [Outcome.andThen_of_ok hc, hstate]
  by_cases hempty : c = []
  · cases hsign : l.toSign with
    | false =>
        simp only [hempty, hsign, List.isEmpty_nil, if_true, Bool.false_eq_true,
          if_false, pure_apply, Except.ok.injEq] at hp ⊢
        exact .inr (.inl ⟨trivial, trivial, hp.symm, by simp⟩)
    | true =>
        simp only [hempty, hsign, List.isEmpty_nil, if_true, bind_apply, message,
          emit_apply, Outcome.andThen_ok, asGPG, pure_apply] at hp ⊢
        obtain ⟨res, hres, hp⟩ := Outcome.andThen_result_eq_ok.mp hp
        simp only [pure_apply, Except.ok.injEq] at hp
        refine .inr (.inr ⟨trivial, trivial, res, hres, hp.symm, ?_⟩)
        simp [Outcome.andThen_of_ok hres]
  · have hfull : c.isEmpty = false := by simpa using hempty
    simp only [hfull, Bool.false_eq_true, if_false, pure_apply, Except.ok.injEq] at hp ⊢
    exact .inl ⟨hempty, hp.symm, by simp⟩

/-- Whether the cipher signs: the parameters ask for it and a key is configured. -/
def signs (g : GPG) (gp : GPGParameters) : Bool := gp.sign && !g.signerKey.isEmpty

theorem processPlainText_eq_ok {lib : Libraries} {g : GPG} {gp : GPGParameters} {s : σ}
    {c : Blob} (h : (g.processPlainText lib data (some (.gpg gp)) s).result = .ok c) :
    let events := (g.processPlainText lib data (some (.gpg gp)) s).events
    (gp.recipients = [] ∧ c = [] ∧ events = []) ∨
      (gp.recipients ≠ [] ∧ signs g gp = true ∧ g.signingKeys = [] ∧ c = [] ∧
        events = [.message (GPG.encryptingText true)]) ∨
      (gp.recipients ≠ [] ∧ (signs g gp = true → g.signingKeys ≠ []) ∧
        ∃ keys, (g.allRecipients gp).mapM (getKey lib) = .ok keys ∧
          c = (g.engineAnswer lib keys (data ++ [0]) (signs g gp)).2 ++ [0] ∧
          events = [.message (GPG.encryptingText (signs g gp)),
            g.engineCall keys (data ++ [0]) (signs g gp)]) := by
  by_cases hrecipients : gp.recipients = []
  · rw [GPG.processPlainText_of_no_recipients lib hrecipients] at h ⊢
    exact .inl ⟨hrecipients, (Except.ok.inj h).symm, rfl⟩
  · rw [GPG.processPlainText_of_recipients lib hrecipients] at h ⊢
    change Except.map _ (g.encrypt lib (g.allRecipients gp) data (signs g gp) s).result = _
      at h
    cases hres : (g.encrypt lib (g.allRecipients gp) data (signs g gp) s).result with
    | error e => simp [hres, Except.map] at h
    | ok res =>
        rw [hres] at h
        obtain rfl : res.1 = c := Except.ok.inj h
        refine .inr ?_
        rcases GPG.encrypt_result_eq_ok lib hres with
          ⟨hsign, hkeys, hempty, hevents⟩ | ⟨hsign, keys, hkeys, hanswer, hevents⟩
        · refine .inl ⟨hrecipients, hsign, hkeys, hempty, ?_⟩
          change .message (GPG.encryptingText (signs g gp)) ::
            (g.encrypt lib (g.allRecipients gp) data (signs g gp) s).events = _
          rw [hevents, hsign]
        · refine .inr ⟨hrecipients, hsign, keys, hkeys, hanswer, ?_⟩
          change .message (GPG.encryptingText (signs g gp)) ::
            (g.encrypt lib (g.allRecipients gp) data (signs g gp) s).events = _
          rw [hevents]

/-- What GPG parameters lead to: the packet and the calls after the construction of
the cipher. -/
inductive GpgPacket (lib : Libraries) (g : GPG) (gp : GPGParameters) (data : Blob) :
    Packet → List Event → Prop
  | encrypted {keys : List Key} (hrecipients : gp.recipients ≠ [])
      (hsign : signs g gp = true → g.signingKeys ≠ [])
      (hkeys : (g.allRecipients gp).mapM (getKey lib) = .ok keys) :
      GpgPacket lib g gp data
        { data := (g.engineAnswer lib keys (data ++ [0]) (signs g gp)).2 ++ [0] }
        [.message (GPG.encryptingText (signs g gp)),
          g.engineCall keys (data ++ [0]) (signs g gp)]
  | refused (hrecipients : gp.recipients ≠ []) (hsign : signs g gp = true)
      (hkeys : g.signingKeys = []) :
      GpgPacket lib g gp data { data := data }
        [.message (GPG.encryptingText true), .message signingText]
  | signed (hrecipients : gp.recipients = []) (hsign : signs g gp = true)
      (hkeys : g.signingKeys ≠ [])
      (hok : (lib.gpgme.sign g.signingKeys data).1.error = none) :
      GpgPacket lib g gp data
        { data := data, signature := (lib.gpgme.sign g.signingKeys data).2 }
        [.message signingText, .gpgSign g.signingKeys data]
  | unsigned (hrecipients : gp.recipients = []) (hsign : signs g gp = true)
      (hkeys : g.signingKeys = []) :
      GpgPacket lib g gp data { data := data } [.message signingText]
  | plain (hrecipients : gp.recipients = []) (hsign : signs g gp = false) :
      GpgPacket lib g gp data { data := data } []

/-- `prepare_data` and the cipher decide alike on the signature, because the cipher's key
is the configured one. -/
theorem gpgPacket_of_buildPacket {g : GPG} {gp : GPGParameters} {keyid : Text} {s : σ}
    {p : Packet} (hkeyid : g.signerKey = keyid)
    (h : (buildPacket env (some (.gpg g)) data (gpgLocals storage gp keyid) s).result =
      .ok p) :
    GpgPacket env.toLibraries g gp data p
      (buildPacket env (some (.gpg g)) data (gpgLocals storage gp keyid) s).events := by
  have htoSign : (gpgLocals storage gp keyid).toSign = signs g gp := by
    rw [signs, hkeyid]
    rfl
  obtain ⟨c, hc, hcases⟩ := buildPacket_gpg_eq_ok env h
  change (g.processPlainText env.toLibraries data (some (.gpg gp)) s).result = _ at hc
  rw [htoSign] at hcases
  rcases processPlainText_eq_ok hc with ⟨hrecipients, hempty, hplain⟩ |
    ⟨hrecipients, hsign, hkeys, hempty, hplain⟩ |
    ⟨hrecipients, hsign, keys, hkeys, hanswer, hplain⟩
  · rcases hcases with ⟨hne, _⟩ | ⟨_, hno, rfl, hevents⟩ | ⟨_, hyes, res, hres, rfl, hevents⟩
    · exact absurd hempty hne
    · rw [hevents.trans hplain]
      exact .plain hrecipients hno
    · rcases GPG.sign_result_eq_ok env.toLibraries hres with
        ⟨hkeys, hnone, hsigned⟩ | ⟨hkeys, hok, hsignature, hsigned⟩
      · rw [hevents.trans (congrArg₂ _ hplain (congrArg _ hsigned)), hnone]
        exact .unsigned hrecipients hyes hkeys
      · rw [hevents.trans (congrArg₂ _ hplain (congrArg _ hsigned)), hsignature]
        exact .signed hrecipients hyes hkeys hok
  · rcases hcases with ⟨hne, _⟩ | ⟨_, hno, _⟩ | ⟨_, _, res, hres, rfl, hevents⟩
    · exact absurd hempty hne
    · exact absurd (hno.symm.trans hsign) (by decide)
    · rcases GPG.sign_result_eq_ok env.toLibraries hres with
        ⟨_, hnone, hsigned⟩ | ⟨hsome, _⟩
      · rw [hevents.trans (congrArg₂ _ hplain (congrArg _ hsigned)), hnone]
        exact .refused hrecipients hsign hkeys
      · exact absurd hkeys hsome
  · have hne : c ≠ [] := by simp [hanswer]
    rcases hcases with ⟨_, rfl, hevents⟩ | ⟨hempty, _⟩ | ⟨hempty, _⟩
    · rw [hevents.trans hplain, hanswer]
      exact .encrypted hrecipients hsign hkeys
    · exact absurd hempty hne
    · exact absurd hempty hne

theorem gpgPacket_of_prepareData {gp : GPGParameters} {s : σ} {p : Packet} {pwd : Text}
    (h : (prepareData env conf storage data (some (.gpg gp)) s).result = .ok (p, pwd)) :
    ∃ keyid g events, conf.lookup pgpKeyId = some keyid ∧ g.signerKey = keyid ∧
      (keyid = [] ∧ g.signingKeys = [] ∨
        ∃ key, keyid ≠ [] ∧ env.gpgme.key keyid = .ok key ∧
          g.signingKeys = if env.gpgme.addSigningKey key then [key] else []) ∧
      pwd = [] ∧ GpgPacket env.toLibraries g gp data p events ∧
      (prepareData env conf storage data (some (.gpg gp)) s).events =
        .newCipher .GPG :: events := by
  obtain ⟨keyid, g, hkeyid, hg, hpwd, hbuild, hevents⟩ := prepareData_gpg_eq_ok env h
  obtain ⟨hsigner, hkeys⟩ := GPG.construct_result_eq_ok env.toLibraries hg
  exact ⟨keyid, g, _, hkeyid, hsigner, hkeys, hpwd,
    gpgPacket_of_buildPacket env hsigner hbuild, hevents⟩

section Frames

variable {γ : Type} {f : σ → γ}

theorem confined_getFromScheme (lib : Libraries) (scheme : Int)
    (params : Option Parameters) :
    Confined f Event.IsLocal (Cipher.getFromScheme (σ := σ) lib scheme params) := by
  have hmake {c : Code σ Cipher} (hc : Confined f Event.IsLocal c) :
      Confined f Event.IsLocal (Cipher.make c) :=
    Confined.bind hc fun _ => Confined.bind (Confined.emit (Event.isLocal_newCipher _))
      fun _ => Confined.pure _
  have hgpg (signer : Text) : Confined f Event.IsLocal
      (do pure (Cipher.gpg (← GPG.construct (σ := σ) lib signer))) :=
    Confined.bind ((GPG.confined_construct lib f signer).mono fun _ => Event.FromGpg.isLocal)
      fun _ => Confined.pure _
  unfold Cipher.getFromScheme
  split
  · exact hmake (Confined.pure _)
  split
  · split
    · exact hmake (hgpg _)
    · exact hmake (hgpg _)
  · exact Confined.bind (Confined.emit (Event.isLocal_newCipher _)) fun _ => Confined.pure _

theorem confined_buildPacket (cipher : Option Cipher) (l : Locals) :
    Confined f Event.IsLocal (buildPacket env cipher data l) := by
  have hgpg {α : Type} {p : Code σ α} (hp : Confined f Event.FromGpg p) :
      Confined f Event.IsLocal p :=
    hp.mono fun _ => Event.FromGpg.isLocal
  unfold buildPacket
  split
  · exact Confined.pure _
  next c =>
      refine Confined.bind ?_ fun _ => ?_
      · cases c with
        | gpg g => exact hgpg (GPG.confined_processPlainText _ f g data _)
        | aes =>
            exact Confined.bind (Confined.emit (Event.isLocal_message _)) fun _ =>
              Confined.bind (Confined.emit ⟨id, id⟩) fun _ => Confined.ofExcept _
      · split
        · split
          · refine Confined.bind (Confined.emit (Event.isLocal_message _)) fun _ =>
              Confined.bind ?_ fun g => Confined.bind (hgpg (GPG.confined_sign _ f g data))
                fun _ => Confined.pure _
            cases c with
            | gpg g => exact Confined.pure g
            | aes => exact Confined.raise _
          · exact Confined.pure _
        · exact Confined.pure _

/-- Preparing a packet calls no transport, and changes the state only by the draw of a
password. -/
theorem confined_prepareData (hdraw : ∀ s, f (env.draw s).2 = f s)
    (conf : StringMap) (storage : Storage) (data : Blob) (params : Option Parameters) :
    Confined f Event.IsLocal (prepareData env conf storage data params) := by
  refine Confined.bind ?_ fun l => Confined.bind (confined_getFromScheme env.toLibraries _ _)
    fun cipher => Confined.bind (confined_buildPacket env cipher l) fun _ => Confined.pure _
  unfold readParameters
  split
  · exact Confined.pure _
  · refine Confined.bind ?_ fun _ => Confined.pure _
    unfold mapAt
    split
    · exact Confined.pure _
    · exact Confined.raise _
  · exact Confined.bind (Confined.bind (Confined.access hdraw) fun _ =>
      Confined.pure _) fun _ => Confined.pure _

theorem isLocal_of_mem_prepareData {params : Option Parameters} {s : σ} {e : Event}
    (he : e ∈ (prepareData env conf storage data params s).events) : e.IsLocal :=
  (confined_prepareData env (f := fun _ => ()) (fun _ => rfl) conf storage data params s).2 e he

end Frames

end Dpaste.PacketPreparation
