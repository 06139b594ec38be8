import Dpaste.LocationCodes
import Dpaste.PacketEncoding

/-!
The operations of `Bin`: packet preparation, paste and get.
-/

namespace Dpaste.BinOperations

open Dpaste.EffectTraces
open Dpaste.LibraryInterfaces
open Dpaste.CipherParameters
open Dpaste.GpgCipher
open Dpaste.CipherSelection
open Dpaste.LocationCodes
open Dpaste.PacketEncoding

variable {σ : Type} (env : Env σ)

def pgpKeyId : Text := "pgp_key_id".toList

/-- The locals of `prepare_data` once the parameters have been looked at. -/
structure Locals where
  scheme : Int
  toSign : Bool
  initParams : Option Parameters
  pwd : Text
  sparams : Option Parameters

def gpgLocals (storage : Storage) (gp : GPGParameters) (keyid : Text) : Locals where
  scheme := Scheme.GPG.toInt
  toSign := gp.sign && !keyid.isEmpty
  initParams := some (.gpg (.ofKeyId storage keyid))
  pwd := []
  sparams := some (.gpg gp)

def aesLocals (pwd : Text) : Locals where
  scheme := Scheme.AES.toInt
  toSign := false
  initParams := none
  pwd := pwd
  sparams := some (.aes ⟨pwd⟩)

/-- The first part of `prepare_data`. Null parameters leave `scheme` as it is. -/
def readParameters (conf : StringMap) (storage : Storage) :
    Option Parameters → Code σ Locals
  | none =>
      pure {
        scheme := storage.scheme
        toSign := false
        initParams := none
        pwd := []
        sparams := none }
  | some (.gpg gp) => do
      let keyid ← mapAt conf pgpKeyId
      pure (gpgLocals storage gp keyid)
  | some (.aes _) => do
      let pwd ← randomPin env.draw
      pure (aesLocals pwd)

/-- `std::dynamic_pointer_cast<GPG>`, which the caller dereferences. -/
def asGPG : Cipher → Code σ GPG
  | .gpg g => pure g
  | .aes => raise .nullPointer

def signingText : Text := "Signing data...".toList

def pastingText : Text := "Pasting data...".toList

def verifyingText : Text := "Data is GPG signed. Verifying...".toList

/-- The second part of `prepare_data`. An empty cipher text means that the
cipher had nothing to encrypt. -/
def buildPacket (cipher : Option Cipher) (data : Blob) (l : Locals) :
    Code σ Packet :=
  match cipher with
  | none => pure { data := data }
  | some c => do
      let cipherText ← c.processPlainText env.toLibraries data l.sparams
      if cipherText.isEmpty then
        if l.toSign then do
          message signingText
          let g ← asGPG c
          let res ← g.sign env.toLibraries data
          pure { data := data, signature := res.1 }
        else pure { data := data }
      else pure { data := cipherText }

def prepareData (conf : StringMap) (storage : Storage) (data : Blob)
    (params : Option Parameters) : Code σ (Packet × Text) := do
  let l ← readParameters env conf storage params
  let cipher ← Cipher.getFromScheme env.toLibraries l.scheme l.initParams
  let p ← buildPacket env cipher data l
  pure (p, l.pwd)

def httpPut (code : Text) (blob : Blob) : Code σ Bool := do
  let accepted ← access (env.httpPut code blob)
  emit (.httpPut code blob accepted)
  pure accepted

def nodePaste (code : Text) (blob : Blob) : Code σ Bool := do
  let accepted ← access (env.nodePaste code blob)
  emit (.nodePaste code blob accepted)
  pure accepted

def httpGet (code : Text) : Code σ Blob := do
  emit (.httpGet code)
  let answer ← access (env.httpGet code)
  ofExcept answer

def nodeGet (code : Text) : Code σ (List Blob) := do
  emit (.nodeGet code)
  access (env.nodeGet code)

def publish (code : Text) (binPacket : Blob) : Code σ Bool := do
  let success ← httpPut env code binPacket
  if success then pure true else nodePaste env code binPacket

def paste (conf : StringMap) (storage : Storage) (data : Blob)
    (params : Option Parameters) : Code σ Text := do
  let code ← randomPin env.draw
  let (p, pwd) ← prepareData env conf storage data params
  message pastingText
  let binPacket ← ofExcept p.serialize
  let success ← publish env code binPacket
  pure (if success then DPASTE_URI_PREFIX ++ code ++ pwd else [])

/-- `dht::MAX_VALUE_SIZE`. -/
def MAX_VALUE_SIZE : Nat := 65536

/-- `std::vector::resize`. New elements are zero. -/
def resize (buffer : Blob) (n : Nat) : Blob :=
  buffer.take n ++ List.replicate (n - buffer.length) 0

/-- `std::istream::read` into the front of a buffer, and the `gcount` after it. -/
def readStream (inputStream buffer : Blob) (n : Nat) : Blob × Nat :=
  let bytes := inputStream.take n
  (bytes ++ buffer.drop bytes.length, bytes.length)

def dataFromStream (inputStream : Blob) : Blob :=
  let buffer := resize [] MAX_VALUE_SIZE
  let (buffer, gcount) := readStream inputStream buffer MAX_VALUE_SIZE
  resize buffer gcount

/-- The overload of `paste` for a `std::stringstream` with the given content. -/
def pasteStream (conf : StringMap) (storage : Storage) (inputStream : Blob)
    (params : Option Parameters) : Code σ Text :=
  paste env conf storage (dataFromStream inputStream) params

def fetch (lcode : Text) : Code σ Blob := do
  let data ← httpGet env lcode
  if data.isEmpty then do
    let values ← nodeGet env lcode
    pure (match values with
      | value :: _ => value
      | [] => data)
  else pure data

/-- The signature check of `Bin::get`, for a packet without a cipher. -/
def checkSignature (p : Packet) (data : Blob) : Code σ Unit := do
  match ← Cipher.getFromScheme env.toLibraries Scheme.GPG.toInt none with
  | some (.gpg gc) =>
      message verifyingText
      let res ← gc.verify env.toLibraries p.signature data
      gc.commentOnFirst res
  | _ => raise .nullPointer

/-- The content of a packet, in the `try` block of `Bin::get`. -/
def openPacket (code pwd : Text) (noDecrypt : Bool) (p : Packet) : Code σ Blob := do
  match ← Cipher.getFromContent env.toLibraries p.data code with
  | some c =>
      if noDecrypt then pure p.data
      else
        match c with
        | .aes => c.processCipherText env.toLibraries p.data (some (.aes ⟨pwd⟩))
        | .gpg _ => c.processCipherText env.toLibraries p.data none
  | none =>
      if p.signature.isEmpty then pure p.data
      else do
        checkSignature env p p.data
        pure p.data

def decodeBlob (code pwd : Text) (noDecrypt : Bool) (data : Blob) : Code σ Blob :=
  match ({} : Packet).deserialize data with
  | (_, .error e) => raise e
  | (p, .ok ()) => openPacket env code pwd noDecrypt p

def catchClauses (data : Blob) : Exn → Option (Code σ (Bool × Blob))
  | .gpgme error text => some do
      message (env.gpgme.what error text)
      pure (false, [])
  | .decryptError what => some do
      message what
      pure (false, [])
  | .typeError => some (pure (true, data)) -- backward compatibility with <=0.3.3
  | _ => none

def get (code : Text) (noDecrypt : Bool) : Code σ (Bool × Blob) := do
  let code ← ofExcept (codeFromDpasteUri code)
  let offset := AES.CODE_PASS_OFFSET * 2
  let lcode := code.take offset
  let pwd ← ofExcept (substr code offset)
  let data ← fetch env lcode
  if data.isEmpty then pure (true, data)
  else
    handle (do
        let data ← decodeBlob env code pwd noDecrypt data
        pure (true, data))
      (catchClauses env data)

end Dpaste.BinOperations
