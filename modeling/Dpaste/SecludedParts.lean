import Dpaste.PasteAndGet

/-!
The parts of a paste and of a get that reach no transport and draw no pin. They do the same
on every state of the world, and depend on the libraries only.
-/

namespace Dpaste.SecludedParts

open Dpaste.EffectTraces
open Dpaste.LibraryInterfaces
open Dpaste.CipherParameters
open Dpaste.GpgCipher
open Dpaste.CipherSelection
open Dpaste.PacketEncoding
open Dpaste.BinOperations
open Dpaste.PasteAndGet

/-- A process with nothing but its libraries. -/
def secluded (lib : Libraries) : Env Unit where
  toLibraries := lib
  draw s := (0, s)
  httpGet _ s := (.ok [], s)
  httpPut _ _ s := (false, s)
  nodeGet _ s := ([], s)
  nodePaste _ _ s := (false, s)

variable {σ : Type}

section Ciphers

variable (lib : Libraries)

@[simp] theorem lift_message (text : Text) :
    lift (message text) = message (σ := σ) text := rfl

@[simp] theorem lift_construct (signer : Text) :
    lift (GPG.construct lib signer) = GPG.construct (σ := σ) lib signer := by
  unfold GPG.construct
  split
  · rfl
  · simp

@[simp] theorem lift_encrypt (g : GPG) (recipients : List Text) (plainText : Blob)
    (sign : Bool) :
    lift (g.encrypt lib recipients plainText sign) =
      g.encrypt (σ := σ) lib recipients plainText sign := by
  unfold GPG.encrypt
  split
  · rfl
  · simp

@[simp] theorem lift_sign (g : GPG) (plainText : Blob) :
    lift (g.sign lib plainText) = g.sign (σ := σ) lib plainText := by
  unfold GPG.sign
  split
  · rfl
  · cases herror : (lib.gpgme.sign g.signingKeys plainText).1.error <;> simp [herror]

@[simp] theorem lift_verify (g : GPG) (signature plainText : Blob) :
    lift (g.verify lib signature plainText) = g.verify (σ := σ) lib signature plainText := by
  unfold GPG.verify
  cases herror : (lib.gpgme.verifyOpaqueSignature signature).1.error <;> simp [herror]

@[simp] theorem lift_decryptAndVerify (g : GPG) (cipherText : Blob) :
    lift (g.decryptAndVerify lib cipherText) =
      g.decryptAndVerify (σ := σ) lib cipherText := by
  unfold GPG.decryptAndVerify
  cases hdec : (lib.gpgme.decryptAndVerify cipherText).1.1.error <;>
  cases hsign : (lib.gpgme.decryptAndVerify cipherText).1.2.error <;>
  simp [hdec, hsign]

@[simp] theorem lift_commentOnFirst (g : GPG) (res : VerificationResult) :
    lift (g.commentOnFirst res) = g.commentOnFirst (σ := σ) res := by
  funext s
  rw [lift_apply, commentOnFirst_apply, commentOnFirst_apply]

@[simp] theorem lift_processPlainText (c : Cipher) (plainText : Blob)
    (params : Option Parameters) :
    lift (c.processPlainText lib plainText params) =
      c.processPlainText (σ := σ) lib plainText params := by
  cases c with
  | aes => simp [Cipher.processPlainText, AES.processPlainText]
  | gpg g =>
      rcases params with _ | gp | a
      · rfl
      · simp only [Cipher.processPlainText, GPG.processPlainText]
        split <;> simp
      · rfl

@[simp] theorem lift_processCipherText (c : Cipher) (cipherText : Blob)
    (params : Option Parameters) :
    lift (c.processCipherText lib cipherText params) =
      c.processCipherText (σ := σ) lib cipherText params := by
  cases c with
  | aes => simp [Cipher.processCipherText, AES.processCipherText]
  | gpg g =>
      have hcheck : lift (GPG.checkParameters params) =
          GPG.checkParameters (σ := σ) params := by
        rcases params with _ | gp | a <;> rfl
      simp [Cipher.processCipherText, GPG.processCipherText, hcheck]

@[simp] theorem lift_make (c : Code Unit Cipher) :
    lift (Cipher.make c) = Cipher.make (σ := σ) (lift c) := by
  simp [Cipher.make]

@[simp] theorem lift_getFromScheme (scheme : Int) (params : Option Parameters) :
    lift (Cipher.getFromScheme lib scheme params) =
      Cipher.getFromScheme (σ := σ) lib scheme params := by
  unfold Cipher.getFromScheme
  split
  · simp
  · split
    · rcases params with _ | gp | a <;> simp
    · simp

@[simp] theorem lift_getFromContent (cipherText : Blob) (pin : Text) :
    lift (Cipher.getFromContent lib cipherText pin) =
      Cipher.getFromContent (σ := σ) lib cipherText pin := by
  unfold Cipher.getFromContent
  split
  · simp
  · split <;> simp

end Ciphers

variable (env : Env σ)

theorem lift_buildPacket (cipher : Option Cipher) (data : Blob) (l : Locals) :
    lift (buildPacket (secluded env.toLibraries) cipher data l) =
      buildPacket env cipher data l := by
  cases cipher with
  | none => rfl
  | some c =>
      simp only [buildPacket, lift_bind, secluded, lift_processPlainText]
      congr 1
      funext cipherText
      split
      · split
        · cases c <;> simp [asGPG]
        · rfl
      · rfl

theorem lift_openPacket (code pwd : Text) (noDecrypt : Bool) (p : Packet) :
    lift (openPacket (secluded env.toLibraries) code pwd noDecrypt p) =
      openPacket env code pwd noDecrypt p := by
  simp only [openPacket, lift_bind, secluded, lift_getFromContent]
  congr 1
  funext c
  rcases c with _ | c
  · dsimp only
    split
    · rfl
    · simp only [lift_bind, checkSignature, lift_getFromScheme, lift_pure]
      congr 2
      funext c
      rcases c with _ | g | _ <;> simp
  · dsimp only
    split
    · rfl
    · cases c <;> simp

theorem lift_decodeBlob (code pwd : Text) (noDecrypt : Bool) (data : Blob) :
    lift (decodeBlob (secluded env.toLibraries) code pwd noDecrypt data) =
      decodeBlob env code pwd noDecrypt data := by
  unfold decodeBlob
  rcases ({} : Packet).deserialize data with ⟨p, _ | _⟩
  · rfl
  · exact lift_openPacket env code pwd noDecrypt p

theorem lift_afterLookups (code : Text) (noDecrypt : Bool) (raw : Blob) :
    lift (afterLookups (secluded env.toLibraries) code noDecrypt raw) =
      afterLookups env code noDecrypt raw := by
  unfold afterLookups
  split
  · rfl
  · have hclauses : (fun e => (catchClauses (secluded env.toLibraries) raw e).map lift) =
        catchClauses env raw := by
      funext e
      cases e <;> simp [catchClauses, secluded]
    rw [lift_handle, lift_bind, lift_decodeBlob, hclauses]
    rfl

end Dpaste.SecludedParts
