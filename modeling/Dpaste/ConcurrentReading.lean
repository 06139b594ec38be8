import Dpaste.ConcurrentClients
import Dpaste.PasteSequences

/-!
What the processes read of each other: every get of a URI brings the data of the paste that
returned it, or nothing.
-/

namespace Dpaste.ConcurrentReading

open Dpaste.EffectTraces
open Dpaste.ConcurrentParties
open Dpaste.LibraryInterfaces
open Dpaste.CipherParameters
open Dpaste.GpgCipher
open Dpaste.CipherSelection
open Dpaste.LocationCodes
open Dpaste.PacketEncoding
open Dpaste.BinOperations
open Dpaste.PasteAndGet
open Dpaste.TransportStores
open Dpaste.SecludedParts
open Dpaste.ClientScripts
open Dpaste.SharedTransports
open Dpaste.PlainRoundTrip
open Dpaste.PacketPreparation
open Dpaste.PasteSequences (locationCode locationCode_uri)
open Dpaste.ConcurrentClients

variable {ι K : Type} [DecidableEq ι] [DecidableEq K]

section Retrieval

variable {key : Text → K} {s₁ s₂ : Network ι K} {ls₁ ls₂ : Trace ι K} {i j : ι}
  {lib rlib : Libraries} {conf : StringMap} {storage : Storage} {data : Blob}
  {params : Option Parameters}
  {uri uri' : Text} {noDecrypt : Bool} {x : Except Exn Returned}

/-- A packet that opens gives its content, whatever the process is. -/
theorem afterLookups_of_opened {code pwd : Text} {p : Packet} {bytes content : Blob}
    (hbytes : p.serialize = .ok bytes)
    (hpwd : code.drop codeOffset = pwd)
    (hopen : (openPacket (secluded rlib) code pwd noDecrypt p ()).result = .ok content) :
    (afterLookups (secluded rlib) code noDecrypt bytes ()).result = .ok (true, content) := by
  have hempty : bytes.isEmpty = false := by simpa using serialize_ne_nil hbytes
  have hdecode : ((do
      let data ← decodeBlob (secluded rlib) code (code.drop codeOffset) noDecrypt bytes
      pure (true, data) : Code Unit (Bool × Blob)) ()).result = .ok (true, content) := by
    simp only [decodeBlob, deserialize_serialize hbytes {}, hpwd, bind_apply,
      Outcome.andThen_of_ok hopen, pure_apply]
  unfold afterLookups
  rw [hempty, if_neg Bool.false_ne_true, handle_of_ok hdecode, hdecode]

/-- The libraries of a reader undo what those of a writer do to this data: signatures are
verified without an error, and an AES cipher text is decrypted and not taken for PGP. -/
def Readable (lib rlib : Libraries) (storage : Storage) (data : Blob) (noDecrypt : Bool) :
    Option Parameters → Prop
  | some (.aes _) => noDecrypt = false ∧ ∀ password c, lib.aesEncrypt data password = .ok c →
      c ≠ [] ∧ isGPGencrypted rlib c = false ∧ rlib.aesDecrypt c password = .ok data
  | params => Unencrypted storage params ∧
      (isGPGencrypted rlib data = false ∨ noDecrypt = true) ∧
      ∀ keys text, (lib.gpgme.sign keys text).1.error = none →
        (rlib.gpgme.verifyOpaqueSignature (lib.gpgme.sign keys text).2).1.error = none

/-- The packet of a readable paste without encryption opens to the pasted data, under every
code that has not the length of one with a password. -/
theorem opens_unencrypted {code code' pwd : Text} {bytes : Blob}
    (hpasteable : Pasteable lib conf storage data params code' pwd bytes)
    (hparams : Unencrypted storage params)
    (hreadable : Readable lib rlib storage data noDecrypt params)
    (hlen : code.length ≠ AES.PIN_WITH_PASS_LEN) :
    (afterLookups (secluded rlib) code noDecrypt bytes ()).result = .ok (true, data) := by
  obtain ⟨_, p, ⟨pin, hpacket⟩, hbytes, _⟩ := hpasteable
  obtain ⟨rfl, _, hsigned⟩ := packet_of_unencrypted hparams hpacket
  have hopens : (isGPGencrypted rlib p.data = false ∨ noDecrypt = true) ∧
      ∀ keys text, (lib.gpgme.sign keys text).1.error = none →
        (rlib.gpgme.verifyOpaqueSignature (lib.gpgme.sign keys text).2).1.error = none := by
    rcases params with _ | gp | a
    · exact hreadable.2
    · exact hreadable.2
    · exact absurd hparams id
  obtain ⟨events, hopen⟩ := openPacket_unencrypted (secluded rlib) code (code.drop codeOffset)
    noDecrypt (p := p) hlen hopens.1
    (hsigned.imp_right (by
      rintro ⟨keys, hok, hsignature⟩
      rw [hsignature]
      exact hopens.2 keys p.data hok))
  exact afterLookups_of_opened hbytes rfl (congrArg Outcome.result (hopen ()))

/-- If nobody stores anything but readable pastes without encryption, a get of a code
without a password brings exactly the data of one of them, or nothing. -/
theorem data_of_some_paste (h : Runs key (System.resting .empty) ls₁ s₁) {found : Bool}
    {content : Blob} {code : Text}
    (hget : .ends j (.get rlib uri noDecrypt) (.ok (.content found content)) ∈ ls₁)
    (hcode : codeFromDpasteUri uri = .ok code) (hlen : code.length ≠ AES.PIN_WITH_PASS_LEN)
    (hothers : ∀ change, .drifts (some change) ∉ ls₁)
    (hplain : ∀ i lib conf storage data params,
      .begins i (.paste lib conf storage data params) ∈ ls₁ →
        Unencrypted storage params ∧ Readable lib rlib storage data noDecrypt params) :
    found = true ∧ (content = [] ∨ ∃ i lib conf storage params code' pwd bytes,
      .begins i (.paste lib conf storage content params) ∈ ls₁ ∧
        Pasteable lib conf storage content params code' pwd bytes ∧
        key code' = key (code.take codeOffset)) := by
  obtain ⟨code₁, raw, hcode₁, hresult, hraw⟩ := content_of_pasted h hget
  obtain rfl := Except.ok.inj (hcode.symm.trans hcode₁)
  rcases hraw with rfl | hdrift | ⟨i, lib, conf, storage, data, params, code', pwd, hbegins,
    hpasteable, hkey⟩
  · obtain ⟨rfl, rfl⟩ := Prod.mk.inj (Except.ok.inj hresult)
    exact ⟨rfl, .inl rfl⟩
  · exact absurd hdrift (hothers _)
  · obtain ⟨hparams, hreadable⟩ := hplain i lib conf storage data params hbegins
    rw [opens_unencrypted hpasteable hparams hreadable hlen] at hresult
    obtain ⟨rfl, rfl⟩ := Prod.mk.inj (Except.ok.inj hresult)
    refine ⟨rfl, .inr ?_⟩
    exact ⟨i, lib, conf, storage, params, code', pwd, raw, hbegins, hpasteable, hkey⟩

end Retrieval

end Dpaste.ConcurrentReading
