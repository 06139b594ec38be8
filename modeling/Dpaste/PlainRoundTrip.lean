import Dpaste.TransportStores

/-!
Pastes without encryption come back byte for byte, over both transports.
-/

namespace Dpaste.PlainRoundTrip

open Dpaste.EffectTraces
open Dpaste.LibraryInterfaces
open Dpaste.CipherParameters
open Dpaste.GpgCipher
open Dpaste.CipherSelection
open Dpaste.LocationCodes
open Dpaste.PacketEncoding
open Dpaste.BinOperations
open Dpaste.PacketPreparation
open Dpaste.PasteAndGet
open Dpaste.AppendOnlyStores
open Dpaste.TransportStores

variable {σ π ρ : Type} {conf : StringMap} {storage : Storage} {data : Blob}
  {params : Option Parameters}

/-- No encryption is asked for: null parameters while `scheme` happens to be
`NONE`, or GPG parameters without recipients. -/
def Unencrypted (storage : Storage) : Option Parameters → Prop
  | none => storage.scheme = Scheme.NONE.toInt
  | some (.gpg gp) => gp.recipients = []
  | some (.aes _) => False

/-- The signature of a packet is missing, or it was made over its data. -/
def SignedBy (gpgme : GpgME) (p : Packet) : Prop :=
  p.signature = [] ∨
    ∃ keys, (gpgme.sign keys p.data).1.error = none ∧
      p.signature = (gpgme.sign keys p.data).2

theorem packet_of_unencrypted {env : Env σ} {s : σ} {p : Packet} {pwd : Text}
    (hparams : Unencrypted storage params)
    (h : (prepareData env conf storage data params s).result = .ok (p, pwd)) :
    p.data = data ∧ pwd = [] ∧ SignedBy env.gpgme p := by
  rcases params with _ | gp | a
  · rw [prepareData_null env hparams, Except.ok.injEq, Prod.mk.injEq] at h
    obtain ⟨rfl, rfl⟩ := h
    exact ⟨rfl, rfl, .inl rfl⟩
  · obtain ⟨_, g, _, _, _, _, hpwd, hpacket, _⟩ := gpgPacket_of_prepareData env h
    cases hpacket with
    | encrypted hrecipients | refused hrecipients => exact absurd hparams hrecipients
    | signed _ _ _ hok => exact ⟨rfl, hpwd, .inr ⟨g.signingKeys, hok, rfl⟩⟩
    | unsigned | plain => exact ⟨rfl, hpwd, .inl rfl⟩
  · exact absurd hparams id

/-- A packet without encryption opens to its data, unless its signature cannot be
verified. -/
theorem openPacket_unencrypted (env : Env σ) (code pwd : Text) (noDecrypt : Bool)
    {p : Packet} (hlen : code.length ≠ AES.PIN_WITH_PASS_LEN)
    (htype : isGPGencrypted env.toLibraries p.data = false ∨ noDecrypt = true)
    (hverify : p.signature = [] ∨
      (env.gpgme.verifyOpaqueSignature p.signature).1.error = none) :
    ∃ events, ∀ s,
      openPacket env code pwd noDecrypt p s = ⟨s, events, .ok p.data⟩ := by
  cases hpgp : isGPGencrypted env.toLibraries p.data with
  | true =>
      have hno : noDecrypt = true := htype.resolve_left (by simp [hpgp])
      subst hno
      exact ⟨_, openPacket_pgp_noDecrypt env hpgp⟩
  | false =>
      by_cases hsig : p.signature = []
      · exact ⟨_, openPacket_plain env hpgp hlen hsig⟩
      · have herror := hverify.resolve_left hsig
        refine ⟨[.newCipher .NONE, .newCipher .GPG, .message verifyingText,
          .gpgVerify p.signature] ++
            comments (env.gpgme.verifyOpaqueSignature p.signature).1, fun s => ?_⟩
        rw [openPacket_signed env hpgp hlen hsig]
        simp only [herror]

end Dpaste.PlainRoundTrip
