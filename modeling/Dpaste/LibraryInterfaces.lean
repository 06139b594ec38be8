import Dpaste.EffectTraces
import Dpaste.MessagePackFormat

/-!
What the program takes from outside: GpgME, the AES functions of OpenDHT, the
random draws and the two transports. They are parameters of the model, collected
in `Env`. The program's runs record the calls to them, and the log messages, as
events.
-/

namespace Dpaste.LibraryInterfaces

open Dpaste.EffectTraces

/-- A `std::string` that carries text. A `Char` stands for one byte of it. -/
abbrev Text := List Char

/-- A `std::vector<uint8_t>` or `dht::Blob`, and a `std::string` that carries
the content of a paste. -/
abbrev Blob := List UInt8

structure GpgError where
  code : Nat
  deriving DecidableEq, Repr

structure Key where
  primaryFingerprint : Text
  deriving DecidableEq, Repr

/-- The common part of GpgME's encryption, decryption and signing results.
A default-constructed result is null and carries no error. -/
structure OperationResult where
  isNull : Bool := true
  error : Option GpgError := none

structure Signature where
  summary : Nat
  fingerprint : Text

/-- `GpgME::Signature::Valid`, a bit of the summary. -/
def Signature.Valid : Nat := 0x0001

structure VerificationResult where
  error : Option GpgError
  signatures : List Signature

/-- `GpgME::Data::Type`, as far as the program distinguishes its values. -/
inductive DataType
  | PGPEncrypted
  | other
  deriving DecidableEq

/-- The exceptions that the program and its libraries raise. The last two are any other
exception of a library, and the dereference of a null pointer, which is undefined. -/
inductive Exn
  | gpgme (error : GpgError) (message : Text)
  | decryptError (what : Text)
  | typeError
  | unpackError (error : MessagePackFormat.UnpackError)
  | containerSizeOverflow
  | json (what : Text)
  | outOfRange
  | badVariantAccess
  | library (what : Text)
  | nullPointer

inductive Scheme
  | NONE
  | GPG
  | AES
  deriving DecidableEq, Repr

def Scheme.toInt : Scheme → Int
  | .NONE => 0
  | .GPG => 1
  | .AES => 2

/-- Log messages and the calls that reach the outside, in the order in which
they happen. `newCipher` records which cipher `Cipher::get` returned. -/
inductive Event
  | message (text : Text)
  | newCipher (scheme : Scheme)
  | aesEncrypt (plainText : Blob) (password : Text)
  | aesDecrypt (cipherText : Blob) (password : Text)
  | gpgEncrypt (keys : List Key) (plainText : Blob)
  | gpgSignAndEncrypt (signers keys : List Key) (plainText : Blob)
  | gpgSign (signers : List Key) (plainText : Blob)
  | gpgVerify (signature : Blob)
  | gpgDecryptAndVerify (cipherText : Blob)
  | httpGet (code : Text)
  | httpPut (code : Text) (blob : Blob) (accepted : Bool)
  | nodeGet (code : Text)
  | nodePaste (code : Text) (blob : Blob) (accepted : Bool)

def Event.FromGpg : Event → Prop
  | .message _ | .gpgEncrypt .. | .gpgSignAndEncrypt .. | .gpgSign .. | .gpgVerify ..
  | .gpgDecryptAndVerify .. => True
  | _ => False

def Event.IsPublication : Event → Prop
  | .httpPut .. | .nodePaste .. => True
  | _ => False

def Event.signs : Event → Bool
  | .gpgSignAndEncrypt .. | .gpgSign .. => true
  | _ => false

theorem Event.signs_of_isPublication {e : Event} (h : e.IsPublication) :
    e.signs = false := by
  cases e <;> simp_all [Event.signs, Event.IsPublication]

def Event.accepts : Event → Bool
  | .httpPut _ _ accepted | .nodePaste _ _ accepted => accepted
  | _ => false

theorem Event.accepts_of_not_isPublication {e : Event} (h : ¬e.IsPublication) :
    e.accepts = false := by
  cases e <;> simp_all [Event.accepts, Event.IsPublication]

def Event.IsLookup : Event → Prop
  | .httpGet _ | .nodeGet _ => True
  | _ => False

theorem Event.IsLookup.not_isPublication {e : Event} (h : e.IsLookup) :
    ¬e.IsPublication := by
  cases e <;> simp_all [Event.IsLookup, Event.IsPublication]

theorem Event.FromGpg.not_isPublication {e : Event} (h : e.FromGpg) :
    ¬e.IsPublication := by
  cases e <;> simp_all [Event.FromGpg, Event.IsPublication]

/-- The event is no call of a transport. -/
structure Event.IsLocal (e : Event) : Prop where
  not_isPublication : ¬e.IsPublication
  not_isLookup : ¬e.IsLookup

theorem Event.isLocal_message (text : Text) : (Event.message text).IsLocal := ⟨id, id⟩

theorem Event.isLocal_newCipher (scheme : Scheme) : (Event.newCipher scheme).IsLocal :=
  ⟨id, id⟩

theorem Event.FromGpg.isLocal {e : Event} (h : e.FromGpg) : e.IsLocal := by
  refine ⟨h.not_isPublication, ?_⟩
  cases e <;> simp_all [Event.FromGpg, Event.IsLookup]

/-- The part of GpgME that the program uses, for the OpenPGP protocol with armored output.
Operations with an output buffer also return what they write to it; for
`verifyOpaqueSignature` this is the text that the signed message embeds. Signing keys come
before recipients, and signing results before encryption results. `addSigningKey` says
whether the context took the key. -/
structure GpgME where
  key : Text → Except GpgError Key
  addSigningKey : Key → Bool
  encrypt : List Key → Blob → OperationResult × Blob
  signAndEncrypt : List Key → List Key → Blob →
    (OperationResult × OperationResult) × Blob
  sign : List Key → Blob → OperationResult × Blob
  verifyOpaqueSignature : Blob → VerificationResult × Blob
  decryptAndVerify : Blob → (OperationResult × VerificationResult) × Blob
  type : Blob → DataType
  what : GpgError → Text → Text

structure Libraries where
  gpgme : GpgME
  aesEncrypt : Blob → Text → Except Exn Blob
  aesDecrypt : Blob → Text → Except Exn Blob

/-- Everything outside the program, over the states `σ` of the world: the number that a call
of `random_pin` draws, `HttpClient`, and the blocking operations of `Node`. `httpPut` always
answers, although `HttpClient::put` lets a `curlpp::RuntimeError` of the set-up escape: a paste
with such an error is not modelled. -/
structure Env (σ : Type) extends Libraries where
  draw : σ → UInt32 × σ
  httpGet : Text → σ → Except Exn Blob × σ
  httpPut : Text → Blob → σ → Bool × σ
  nodeGet : Text → σ → List Blob × σ
  nodePaste : Text → Blob → σ → Bool × σ

abbrev Code (σ : Type) (α : Type) := Prog σ Event Exn α

abbrev StringMap := List (Text × Text)

def mapAt {σ : Type} (map : StringMap) (key : Text) : Code σ Text :=
  match map.lookup key with
  | some value => pure value
  | none => raise .outOfRange

def message {σ : Type} (text : Text) : Code σ Unit := emit (.message text)

/-- A small instance of GpgME, on which the assumptions about the real one can be
tested. It marks messages with a first byte and gives a valid verdict on what it
has signed. -/
def sampleGpgME : GpgME where
  key id := .ok ⟨id⟩
  addSigningKey _ := true
  encrypt _ plainText := ({ isNull := false }, 0x85 :: plainText)
  signAndEncrypt _ _ plainText :=
    (({ isNull := false }, { isNull := false }), 0x85 :: plainText)
  sign _ plainText := ({ isNull := false }, 0x90 :: plainText)
  verifyOpaqueSignature signature :=
    match signature with
    | 0x90 :: text => (⟨none, [⟨Signature.Valid, "A1B2".toList⟩]⟩, text)
    | _ => (⟨some ⟨58⟩, []⟩, [])
  decryptAndVerify cipherText :=
    match cipherText with
    | 0x85 :: content => (({ isNull := false }, ⟨none, []⟩), content.dropLast)
    | _ => (({ isNull := false, error := some ⟨58⟩ }, ⟨none, []⟩), [])
  type data :=
    match data with
    | 0x85 :: _ => .PGPEncrypted
    | _ => .other
  what _ text := text

/-- `sampleGpgME` with an AES whose cipher texts begin with the byte `salt`. -/
def sampleLibraries (salt : UInt8) : Libraries where
  gpgme := sampleGpgME
  aesEncrypt plainText _ := .ok (salt :: plainText)
  aesDecrypt cipherText _ :=
    match cipherText with
    | _ :: plainText => .ok plainText
    | [] => .error (.decryptError "Wrong data size".toList)

end Dpaste.LibraryInterfaces
