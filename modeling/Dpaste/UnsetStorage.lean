import Dpaste.CommandLine
import Dpaste.TransportStores

/-!
Which parts of uninitialised storage a packet depends on: two preparations from the same
command line are compared, whose storages hold different values.
-/

namespace Dpaste.UnsetStorage

open Dpaste.EffectTraces
open Dpaste.LibraryInterfaces
open Dpaste.CipherParameters
open Dpaste.GpgCipher
open Dpaste.CipherSelection
open Dpaste.BinOperations
open Dpaste.PacketPreparation
open Dpaste.TransportStores
open Dpaste.CommandLine

variable {σ : Type} (env : Env σ) {conf : StringMap} {data : Blob}

/-- Parameters that agree in the fields that a preparation reads: whether the signer is a
recipient too only matters when there are recipients. -/
structure SameUses (gp gp' : GPGParameters) : Prop where
  recipients : gp.recipients = gp'.recipients
  sign : gp.sign = gp'.sign
  selfRecipient : gp.recipients ≠ [] → gp.selfRecipient = gp'.selfRecipient

theorem SameUses.refl (gp : GPGParameters) : SameUses gp gp := ⟨rfl, rfl, fun _ => rfl⟩

theorem SameUses.allRecipients {gp gp' : GPGParameters} (h : SameUses gp gp') (g : GPG) :
    g.allRecipients gp = g.allRecipients gp' := by
  by_cases hrecipients : gp.recipients = []
  · rw [GPG.allRecipients_eq_nil.mpr hrecipients,
      GPG.allRecipients_eq_nil.mpr (h.recipients.symm.trans hrecipients)]
  · simp only [GPG.allRecipients, ← h.recipients, ← h.selfRecipient hrecipients]

theorem SameUses.buildPacket {gp gp' : GPGParameters} (h : SameUses gp gp')
    (storage storage' : Storage) (keyid : Text) (g : GPG) :
    buildPacket env (some (.gpg g)) data (gpgLocals storage gp keyid) =
      buildPacket env (some (.gpg g)) data (gpgLocals storage' gp' keyid) := by
  have hprocess : g.processPlainText (σ := σ) env.toLibraries data (some (.gpg gp)) =
      g.processPlainText env.toLibraries data (some (.gpg gp')) := by
    simp only [GPG.processPlainText, h.allRecipients g, h.sign]
  simp only [BinOperations.buildPacket, gpgLocals, Cipher.processPlainText, hprocess, h.sign]
  rfl

/-- With GPG parameters, neither the storage of `prepare_data` nor that of its key
parameters is read. -/
theorem prepareData_gpg_congr {gp gp' : GPGParameters} (h : SameUses gp gp')
    (storage storage' : Storage) (s : σ) :
    prepareData env conf storage data (some (.gpg gp)) s =
      prepareData env conf storage' data (some (.gpg gp')) s := by
  cases hkeyid : conf.lookup pgpKeyId with
  | none => simp [prepareData, readParameters, mapAt, hkeyid]
  | some keyid =>
      have hread (storage : Storage) (gp : GPGParameters) :
          readParameters env conf storage (some (.gpg gp)) s =
            ⟨s, [], .ok (gpgLocals storage gp keyid)⟩ := by
        simp [readParameters, mapAt, hkeyid]
      have hget (storage : Storage) (gp : GPGParameters) :
          Cipher.getFromScheme (σ := σ) env.toLibraries
            (gpgLocals storage gp keyid).scheme (gpgLocals storage gp keyid).initParams =
          Cipher.make (do pure (.gpg (← GPG.construct env.toLibraries keyid))) := rfl
      simp only [prepareData, bind_apply, hread, Outcome.andThen_ok, hget]
      cases hg : (GPG.construct env.toLibraries keyid s).result with
      | error e => simp [Cipher.make_gpg_of_error _ hg]
      | ok g =>
          simp only [Cipher.make_gpg_of_ok _ hg, Outcome.andThen_ok, bind_apply,
            h.buildPacket env storage storage' keyid g]
          rfl

theorem prepareData_null_differs (s : σ) :
    prepareData env conf ⟨Scheme.NONE.toInt, false, false⟩ data none s ≠
      prepareData env conf ⟨Scheme.AES.toInt, false, false⟩ data none s := by
  intro h
  rw [prepareData_null env rfl] at h
  have hevents := congrArg Outcome.events h
  cases hencrypt : env.aesEncrypt data [] with
  | error e =>
      simp [prepareData, readParameters, Cipher.getFromScheme, Cipher.make, Cipher.scheme]
        at hevents
  | ok c =>
      simp [prepareData, readParameters, Cipher.getFromScheme, Cipher.make, Cipher.scheme]
        at hevents

theorem prepareData_congr {pa : ParsedArgs} (hwants : pa.wantsCipher = true)
    (f g f' g' : Storage) (s : σ) :
    prepareData env conf f data (paramsFromArgs g pa) s =
      prepareData env conf f' data (paramsFromArgs g' pa) s := by
  cases haes : pa.aesEncrypt with
  | true => simp only [paramsFromArgs_aes haes, prepareData_aes]
  | false =>
      cases hgpg : pa.gpgEncrypt with
      | true =>
          simp only [paramsFromArgs_gpg haes hgpg]
          exact prepareData_gpg_congr env (.refl _) f f' s
      | false =>
          have hsign : pa.sign = true := by
            simpa [ParsedArgs.wantsCipher, haes, hgpg] using hwants
          -- the fields that differ are those of the unset parameters
          have huses : SameUses { GPGParameters.unset g with sign := true }
              { GPGParameters.unset g' with sign := true } :=
            ⟨rfl, rfl, fun hrecipients => absurd rfl hrecipients⟩
          simp only [paramsFromArgs_sign haes hgpg hsign]
          exact prepareData_gpg_congr env huses f f' s

/-- The packet, the password, the choice of the cipher and its calls are the same for every
content of uninitialised storage, if and only if some option of the command line asks for a
cipher. -/
theorem storage_irrelevant_iff (env : Env σ) (conf : StringMap) (data : Blob)
    (pa : ParsedArgs) (s : σ) :
    ((∀ f g f' g', prepareData env conf f data (paramsFromArgs g pa) s =
          prepareData env conf f' data (paramsFromArgs g' pa) s) ∧
        ((∀ g, paramsFromArgs g pa = none) → ∀ f,
          (prepareData env conf f data none s).result = .ok ({ data := data }, []))) ↔
      pa.wantsCipher = true := by
  constructor
  · rintro ⟨hsame, _⟩
    by_contra hno
    have hnull : paramsFromArgs ⟨0, false, false⟩ pa = none :=
      paramsFromArgs_eq_none_iff.mpr (by simpa using hno)
    have h := hsame ⟨Scheme.NONE.toInt, false, false⟩ ⟨0, false, false⟩
      ⟨Scheme.AES.toInt, false, false⟩ ⟨0, false, false⟩
    rw [hnull] at h
    exact prepareData_null_differs env s h
  · intro hwants
    constructor
    · intro f g f' g'
      exact prepareData_congr env hwants f g f' g' s
    · intro hnull
      have hno := paramsFromArgs_eq_none_iff.mp (hnull ⟨0, false, false⟩)
      exact absurd (hwants.symm.trans hno) (by decide)

/-- A plain paste with the local `scheme` once 0 and once 2. With 2 the data is encrypted
under the empty password, which no reader knows of. -/
theorem storage_irrelevant_counterexample :
    paramsFromArgs ⟨0, false, false⟩ {} = none ∧
      (prepareData (sampleEnv 0) [] ⟨0, false, false⟩ [0x64] none (World.initial 42)).result =
        .ok ({ data := [0x64] }, []) ∧
      (prepareData (sampleEnv 0) [] ⟨2, false, false⟩ [0x64] none (World.initial 42)).result =
        .ok ({ data := [0x00, 0x64] }, []) :=
  ⟨rfl, rfl, rfl⟩

end Dpaste.UnsetStorage
