import Dpaste.GpgCipher

/-!
The AES cipher, the two ways to obtain a cipher and the dispatch on it.
-/

namespace Dpaste.CipherSelection

open Dpaste.EffectTraces
open Dpaste.LibraryInterfaces
open Dpaste.CipherParameters
open Dpaste.GpgCipher

variable {σ : Type} (lib : Libraries)

namespace AES

def PIN_WITH_PASS_LEN : Nat := 16

def CODE_PASS_OFFSET : Nat := 4

def getPassword : Option Parameters → Text
  | some (.aes p) => p.password
  | _ => []

def encryptingText : Text := "Encrypting (aes-gcm) data...".toList

def decryptingText : Text := "Decrypting (aes-gcm)...".toList

def processPlainText (plainText : Blob) (params : Option Parameters) :
    Code σ Blob := do
  message encryptingText
  emit (.aesEncrypt plainText (getPassword params))
  ofExcept (lib.aesEncrypt plainText (getPassword params))

def processCipherText (cipherText : Blob) (params : Option Parameters) :
    Code σ Blob := do
  message decryptingText
  emit (.aesDecrypt cipherText (getPassword params))
  ofExcept (lib.aesDecrypt cipherText (getPassword params))

end AES

/-- What a `shared_ptr<Cipher>` points to. -/
inductive Cipher
  | gpg (g : GPG)
  | aes

namespace Cipher

def scheme : Cipher → Scheme
  | .gpg _ => .GPG
  | .aes => .AES

def processPlainText (c : Cipher) (plainText : Blob) (params : Option Parameters) :
    Code σ Blob :=
  match c with
  | .gpg g => g.processPlainText lib plainText params
  | .aes => AES.processPlainText lib plainText params

def processCipherText (c : Cipher) (cipherText : Blob)
    (params : Option Parameters) : Code σ Blob :=
  match c with
  | .gpg g => g.processCipherText lib cipherText params
  | .aes => AES.processCipherText lib cipherText params

/-- `make_shared`: build a cipher and note the choice. -/
def make (c : Code σ Cipher) : Code σ (Option Cipher) := do
  let c ← c
  emit (.newCipher c.scheme)
  pure (some c)

/-- `Cipher::get(cipher_text, pin)`: guess the cipher from the content first and
from the length of the code second. -/
def getFromContent (cipherText : Blob) (pin : Text) : Code σ (Option Cipher) :=
  if isGPGencrypted lib cipherText then
    make (do pure (.gpg (← GPG.construct lib [])))
  else if pin.length = AES.PIN_WITH_PASS_LEN then make (pure .aes)
  else do
    emit (.newCipher .NONE)
    pure none

/-- `Cipher::get(scheme, params)`. The scheme is an arbitrary `int`. -/
def getFromScheme (scheme : Int) (params : Option Parameters) :
    Code σ (Option Cipher) :=
  if scheme = Scheme.AES.toInt then make (pure .aes)
  else if scheme = Scheme.GPG.toInt then
    match params with
    | some (.gpg p) => make (do pure (.gpg (← GPG.construct lib p.keyId)))
    | _ => make (do pure (.gpg (← GPG.construct lib [])))
  else do
    emit (.newCipher .NONE)
    pure none

theorem make_gpg_of_ok {signer : Text} {s : σ} {g : GPG}
    (h : (GPG.construct lib signer s).result = .ok g) :
    make (do pure (.gpg (← GPG.construct lib signer))) s =
      ⟨s, [.newCipher .GPG], .ok (some (.gpg g))⟩ := by
  simp only [make, bind_apply]
  rw [GPG.construct_apply, h]
  simp [scheme]

theorem make_gpg_of_error {signer : Text} {s : σ} {e : Exn}
    (h : (GPG.construct lib signer s).result = .error e) :
    make (do pure (.gpg (← GPG.construct lib signer))) s = ⟨s, [], .error e⟩ := by
  simp only [make, bind_apply]
  rw [GPG.construct_apply, h]
  simp

end Cipher

end Dpaste.CipherSelection
