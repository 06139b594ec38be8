import Dpaste.CipherParameters

/-!
The GPG cipher. A `GPG` object always has a context: its constructor uses the
context it has just created, so the guards `if (not ctx)` never fire.
-/

namespace Dpaste.GpgCipher

open Dpaste.EffectTraces
open Dpaste.LibraryInterfaces
open Dpaste.CipherParameters

def BUFLEN : Nat := 1024

/-- A memory-based `GpgME::Data`: its content and the position in it. -/
structure Data where
  content : Blob
  position : Nat

namespace Data

def filled (content : Blob) : Data := ⟨content, content.length⟩

def seek (d : Data) (position : Nat) : Data := { d with position }

def read (d : Data) (n : Nat) : Blob × Data :=
  let bytes := (d.content.drop d.position).take n
  (bytes, { d with position := d.position + bytes.length })

def write (d : Data) (bytes : Blob) : Data where
  content := d.content.take d.position ++ bytes ++
    d.content.drop (d.position + bytes.length)
  position := d.position + bytes.length

end Data

/-- The loop of `dataToVector`: one buffer after the other, until a read is
empty. The fuel bounds the number of reads. -/
def readBuffers : Nat → Data → Blob
  | 0, _ => []
  | fuel + 1, d =>
      let (buf, d) := d.read BUFLEN
      if buf.isEmpty then [] else buf ++ readBuffers fuel d

def dataToVector (d : Data) : Blob :=
  readBuffers (d.content.length + 1) (d.seek 0)

theorem readBuffers_succ (fuel : Nat) (d : Data) :
    readBuffers (fuel + 1) d =
      let buf := (d.content.drop d.position).take BUFLEN
      if buf = [] then []
      else buf ++ readBuffers fuel { d with position := d.position + buf.length } := by
  simp only [readBuffers, Data.read, List.isEmpty_iff]

theorem readBuffers_eq_drop {fuel : Nat} {d : Data}
    (hfuel : d.content.length < d.position + fuel) :
    readBuffers fuel d = d.content.drop d.position := by
  induction fuel generalizing d with
  | zero => exact (List.drop_eq_nil_of_le (by omega)).symm
  | succ fuel ih =>
      rw [readBuffers_succ]
      by_cases hend : d.content.length ≤ d.position
      · simp [List.drop_eq_nil_of_le hend]
      · have hlen : ((d.content.drop d.position).take BUFLEN).length =
            min BUFLEN (d.content.length - d.position) := by simp
        have hpos : 0 < min BUFLEN (d.content.length - d.position) :=
          lt_min (by decide) (by omega)
        have hne : (d.content.drop d.position).take BUFLEN ≠ [] :=
          List.ne_nil_of_length_pos (hlen ▸ hpos)
        simp only [if_neg hne]
        rw [ih (by simp only [hlen]; omega)]
        simp only [hlen, ← List.drop_drop]
        -- the next read starts where this one ended
        calc
          _ = (d.content.drop d.position).take BUFLEN ++
              (d.content.drop d.position).drop BUFLEN := by
            congr 1
            rcases Nat.le_total BUFLEN (d.content.length - d.position) with h | h
            · rw [min_eq_left h]
            · rw [min_eq_right h, List.drop_eq_nil_of_le (by simp),
                List.drop_eq_nil_of_le (by simpa using h)]
          _ = d.content.drop d.position := List.take_append_drop _ _

/-- Whatever its position, the whole content of a data object is read. -/
@[simp] theorem dataToVector_eq (d : Data) : dataToVector d = d.content := by
  rw [dataToVector, readBuffers_eq_drop (by simp [Data.seek])]
  rfl

@[simp] theorem filled_write_content (content bytes : Blob) :
    ((Data.filled content).write bytes).content = content ++ bytes := by
  simp [Data.filled, Data.write]

structure GPG where
  signingKeys : List Key
  signerKey : Text

variable {σ : Type} (lib : Libraries)

def getKey (keyId : Text) : Except Exn Key :=
  match lib.gpgme.key keyId with
  | .ok key => .ok key
  | .error err =>
      .error (.gpgme err ("Failed to retrieve key with ID ".toList ++ keyId))

namespace GPG

/-- The constructor. The error that `addSigningKey` returns is not looked at. -/
def construct (signer : Text) : Code σ GPG :=
  if signer.isEmpty then pure ⟨[], signer⟩
  else do
    let key ← ofExcept (getKey lib signer)
    pure ⟨if lib.gpgme.addSigningKey key then [key] else [], signer⟩

def signingFingerprint (g : GPG) : Text :=
  match g.signingKeys with
  | key :: _ => key.primaryFingerprint
  | [] => []

/-- The call on the context that `encrypt` makes. -/
def engineCall (g : GPG) (keys : List Key) (plainText : Blob) (sign : Bool) : Event :=
  if sign then .gpgSignAndEncrypt g.signingKeys keys plainText
  else .gpgEncrypt keys plainText

/-- The answer to that call. The signing result comes first; it stays null
without a signature. -/
def engineAnswer (g : GPG) (keys : List Key) (plainText : Blob) (sign : Bool) :
    (OperationResult × OperationResult) × Blob :=
  if sign then lib.gpgme.signAndEncrypt g.signingKeys keys plainText
  else (({}, (lib.gpgme.encrypt keys plainText).1), (lib.gpgme.encrypt keys plainText).2)

def throwErrors (g : GPG) (recipients : List Text)
    (signRes encRes : OperationResult) : Except Exn Unit :=
  match encRes.error, signRes.isNull, signRes.error with
  | some err, _, _ =>
      .error (.gpgme err ("Failed to encrypt with key of ID ".toList ++
        recipients.headD []))
  | none, false, some err =>
      .error (.gpgme err ("Failed to sign with key of ID ".toList ++
        g.signingFingerprint))
  | none, _, _ => .ok ()

/-- Only called with at least one recipient, whose name an error message shows. -/
def encrypt (g : GPG) (recipients : List Text) (plainText : Blob) (sign : Bool) :
    Code σ (Blob × OperationResult × OperationResult) :=
  if sign && g.signingKeys.isEmpty then pure ([], {}, {})
  else do
    -- Adding final null char delimiter to data
    let plainText := plainText ++ [0]
    let keys ← ofExcept (recipients.mapM (getKey lib))
    emit (g.engineCall keys plainText sign)
    let ((signRes, encRes), out) := g.engineAnswer lib keys plainText sign
    -- Adding final null char delimiter to cipher text
    let cipherText := (Data.filled out).write [0]
    ofExcept (g.throwErrors recipients signRes encRes)
    pure (dataToVector cipherText, encRes, signRes)

def decryptAndVerify (_g : GPG) (cipherText : Blob) :
    Code σ (Blob × OperationResult × VerificationResult) := do
  emit (.gpgDecryptAndVerify cipherText)
  let ((decRes, signRes), out) := lib.gpgme.decryptAndVerify cipherText
  match decRes.error with
  | some err => raise (.gpgme err [])
  | none =>
      match signRes.error with
      | some err => raise (.gpgme err [])
      | none => pure (dataToVector (Data.filled out), decRes, signRes)

def sign (g : GPG) (plainText : Blob) : Code σ (Blob × OperationResult) :=
  if g.signingKeys.isEmpty then pure ([], {})
  else do
    emit (.gpgSign g.signingKeys plainText)
    let (res, out) := lib.gpgme.sign g.signingKeys plainText
    match res.error with
    | some err =>
        raise (.gpgme err ("Failed to sign with key of ID ".toList ++
          g.signingFingerprint))
    | none => pure (dataToVector (Data.filled out), res)

/-- The plain text only provides the buffer to which GpgME writes the text that
the signature embeds. -/
def verify (_g : GPG) (signature _plainText : Blob) :
    Code σ VerificationResult := do
  emit (.gpgVerify signature)
  let (res, _) := lib.gpgme.verifyOpaqueSignature signature
  match res.error with
  | some err => raise (.gpgme err [])
  | none => pure res

def validText (fingerprint : Text) : Text :=
  "Valid signature from key with ID ".toList ++ fingerprint

def commentOnSignature (_g : GPG) (sig : Signature) : Code σ Unit :=
  if sig.summary &&& Signature.Valid ≠ 0 then message (validText sig.fingerprint)
  else pure ()

/-- We include self as recipient if there's at least one other recipient. -/
def allRecipients (g : GPG) (gparams : GPGParameters) : List Text :=
  if !gparams.recipients.isEmpty && gparams.selfRecipient &&
      !g.signerKey.isEmpty then
    gparams.recipients ++ [g.signerKey]
  else gparams.recipients

def encryptingText (toSign : Bool) : Text :=
  "Encrypting (gpg)".toList ++ (if toSign then " and signing ".toList else []) ++
    "...".toList

def processPlainText (g : GPG) (plainText : Blob) :
    Option Parameters → Code σ Blob
  | none => pure []
  | some (.aes _) => raise .badVariantAccess
  | some (.gpg gparams) =>
      let recipients := g.allRecipients gparams
      let toSign := gparams.sign && !g.signerKey.isEmpty
      if !recipients.isEmpty then do
        message (encryptingText toSign)
        let res ← g.encrypt lib recipients plainText toSign
        pure res.1
      else pure []

/-- `std::get<GPGParameters>` on parameters that may be null. The value is not
used. -/
def checkParameters : Option Parameters → Code σ Unit
  | some (.aes _) => raise .badVariantAccess
  | _ => pure ()

def commentOnFirst (g : GPG) (res : VerificationResult) : Code σ Unit :=
  match res.signatures with
  | sig :: _ => g.commentOnSignature sig
  | [] => pure ()

def decryptingText : Text := "Decrypting (gpg)...".toList

def successText : Text := "Success!".toList

def processCipherText (g : GPG) (cipherText : Blob)
    (params : Option Parameters) : Code σ Blob := do
  checkParameters params
  message decryptingText
  let (data, _, verifRes) ← g.decryptAndVerify lib cipherText
  message successText
  g.commentOnFirst verifRes
  pure data

end GPG

def isGPGencrypted (data : Blob) : Bool :=
  decide (lib.gpgme.type data = .PGPEncrypted)

namespace GPG

theorem construct_nil : construct (σ := σ) lib [] = pure ⟨[], []⟩ := rfl

theorem construct_apply (signer : Text) (s : σ) :
    construct lib signer s = ⟨s, [], (construct lib signer s).result⟩ := by
  by_cases h : signer.isEmpty
  · simp [construct, h]
  · cases hkey : getKey lib signer <;> simp [construct, h, hkey]

/-- A constructed object remembers its signer, and has at most the key of this
signer as signing key. -/
theorem construct_result_eq_ok {signer : Text} {s : σ} {g : GPG}
    (h : (construct lib signer s).result = .ok g) :
    g.signerKey = signer ∧
      (signer = [] ∧ g.signingKeys = [] ∨
        ∃ key, signer ≠ [] ∧ lib.gpgme.key signer = .ok key ∧
          g.signingKeys = if lib.gpgme.addSigningKey key then [key] else []) := by
  unfold construct at h
  split at h
  next hempty =>
      rw [pure_apply, Except.ok.injEq] at h
      subst h
      exact ⟨rfl, .inl ⟨List.isEmpty_iff.mp hempty, rfl⟩⟩
  next hne =>
      cases hkey : lib.gpgme.key signer with
      | error err => simp [getKey, hkey] at h
      | ok key =>
          simp only [getKey, hkey, bind_apply, ofExcept_ok, Outcome.andThen_ok,
            pure_apply, Except.ok.injEq] at h
          subst h
          exact ⟨rfl, .inr ⟨key, by simpa using hne, rfl, rfl⟩⟩

theorem allRecipients_eq_nil {g : GPG} {gparams : GPGParameters} :
    g.allRecipients gparams = [] ↔ gparams.recipients = [] := by
  unfold allRecipients
  split <;> simp_all

theorem processPlainText_of_no_recipients {g : GPG} {gparams : GPGParameters}
    (h : gparams.recipients = []) (plainText : Blob) :
    g.processPlainText (σ := σ) lib plainText (some (.gpg gparams)) = pure [] := by
  simp [processPlainText, allRecipients_eq_nil.mpr h]

/-- What an encryption without an exception has done: it refused to sign without
a key and returned nothing, or it called the engine once and appended a NUL byte
to the answer. -/
theorem encrypt_result_eq_ok {g : GPG} {recipients : List Text} {plainText : Blob}
    {sign : Bool} {s : σ} {res : Blob × OperationResult × OperationResult}
    (h : (g.encrypt lib recipients plainText sign s).result = .ok res) :
    (sign = true ∧ g.signingKeys = [] ∧ res.1 = [] ∧
        (g.encrypt lib recipients plainText sign s).events = []) ∨
      (sign = true → g.signingKeys ≠ []) ∧
        ∃ keys, recipients.mapM (getKey lib) = .ok keys ∧
          res.1 = (g.engineAnswer lib keys (plainText ++ [0]) sign).2 ++ [0] ∧
          (g.encrypt lib recipients plainText sign s).events =
            [g.engineCall keys (plainText ++ [0]) sign] := by
  unfold encrypt at h ⊢
  split at h
  next hrefused =>
      rw [pure_apply, Except.ok.injEq] at h
      subst h
      simp only [Bool.and_eq_true, List.isEmpty_iff] at hrefused
      rw [if_pos (by simpa using hrefused)]
      exact .inl ⟨hrefused.1, hrefused.2, rfl, rfl⟩
  next hsign =>
      rw [if_neg hsign]
      refine .inr ⟨by simpa using hsign, ?_⟩
      cases hkeys : recipients.mapM (getKey lib) with
      | error err => simp [hkeys] at h
      | ok keys =>
          refine ⟨keys, rfl, ?_⟩
          simp only [hkeys, bind_apply, ofExcept_ok, emit_apply,
            Outcome.andThen_ok] at h ⊢
          cases hthrow : g.throwErrors recipients
              (g.engineAnswer lib keys (plainText ++ [0]) sign).1.1
              (g.engineAnswer lib keys (plainText ++ [0]) sign).1.2 with
          | error e => simp [hthrow] at h
          | ok u =>
              simp only [hthrow, ofExcept_ok, Outcome.andThen_ok, pure_apply,
                Except.ok.injEq] at h ⊢
              subst h
              simp

/-- What a signature without an exception has done: there was no key and nothing
came back, or the context signed once. -/
theorem sign_result_eq_ok {g : GPG} {plainText : Blob} {s : σ}
    {res : Blob × OperationResult} (h : (g.sign lib plainText s).result = .ok res) :
    (g.signingKeys = [] ∧ res.1 = [] ∧ (g.sign lib plainText s).events = []) ∨
      g.signingKeys ≠ [] ∧
        (lib.gpgme.sign g.signingKeys plainText).1.error = none ∧
        res.1 = (lib.gpgme.sign g.signingKeys plainText).2 ∧
        (g.sign lib plainText s).events = [.gpgSign g.signingKeys plainText] := by
  by_cases hkeys : g.signingKeys = []
  · simp only [sign, hkeys, List.isEmpty_nil, if_true, pure_apply, Except.ok.injEq] at h ⊢
    exact .inl ⟨trivial, by rw [← h], trivial⟩
  · refine .inr ⟨hkeys, ?_⟩
    cases herror : (lib.gpgme.sign g.signingKeys plainText).1.error with
    | some err => simp [sign, hkeys, herror] at h
    | none =>
        simp only [sign, List.isEmpty_iff, hkeys, if_false, bind_apply, emit_apply,
          Outcome.andThen_ok, herror, pure_apply, Except.ok.injEq] at h ⊢
        exact ⟨trivial, by rw [← h]; simp [Data.filled], by simp⟩

theorem processPlainText_of_recipients {g : GPG} {gparams : GPGParameters}
    (h : gparams.recipients ≠ []) (plainText : Blob) (s : σ) :
    g.processPlainText lib plainText (some (.gpg gparams)) s =
      let toSign := gparams.sign && !g.signerKey.isEmpty
      let o := g.encrypt lib (g.allRecipients gparams) plainText toSign s
      ⟨o.state, .message (encryptingText toSign) :: o.events, o.result.map (·.1)⟩ := by
  have hall : (!(g.allRecipients gparams).isEmpty) = true := by
    simpa [allRecipients_eq_nil] using h
  simp only [processPlainText]
  rw [if_pos hall]
  simp only [bind_apply, message, emit_apply, Outcome.andThen_ok]
  cases hres : (g.encrypt lib (g.allRecipients gparams) plainText
      (gparams.sign && !g.signerKey.isEmpty) s).result with
  | error e => simp [Outcome.andThen_of_error hres, Except.map]
  | ok res => simp [Outcome.andThen_of_ok hres, Except.map]

end GPG

section Frames

variable {γ : Type} (f : σ → γ)

theorem confined_message (text : Text) :
    Confined f Event.FromGpg (message (σ := σ) text) :=
  Confined.emit trivial

namespace GPG

theorem confined_construct (signer : Text) :
    Confined f Event.FromGpg (construct (σ := σ) lib signer) := by
  unfold construct
  split
  · exact Confined.pure _
  · exact Confined.bind (Confined.ofExcept _) fun _ => Confined.pure _

theorem fromGpg_engineCall (g : GPG) (keys : List Key) (plainText : Blob)
    (sign : Bool) : (g.engineCall keys plainText sign).FromGpg := by
  cases sign <;> trivial

theorem confined_encrypt (g : GPG) (recipients : List Text) (plainText : Blob)
    (sign : Bool) :
    Confined f Event.FromGpg (g.encrypt (σ := σ) lib recipients plainText sign) := by
  unfold encrypt
  split
  · exact Confined.pure _
  · exact Confined.bind (Confined.ofExcept _) fun keys =>
      Confined.bind (Confined.emit (fromGpg_engineCall g keys _ sign)) fun _ =>
        Confined.bind (Confined.ofExcept _) fun _ =>
          Confined.pure _

theorem confined_sign (g : GPG) (plainText : Blob) :
    Confined f Event.FromGpg (g.sign (σ := σ) lib plainText) := by
  unfold sign
  split
  · exact Confined.pure _
  · refine Confined.bind (Confined.emit trivial) ?_
    intro _
    dsimp only
    split
    · exact Confined.raise _
    · exact Confined.pure _

theorem confined_verify (g : GPG) (signature plainText : Blob) :
    Confined f Event.FromGpg (g.verify (σ := σ) lib signature plainText) := by
  refine Confined.bind (Confined.emit trivial) ?_
  intro _
  dsimp only
  split
  · exact Confined.raise _
  · exact Confined.pure _

theorem confined_decryptAndVerify (g : GPG) (cipherText : Blob) :
    Confined f Event.FromGpg (g.decryptAndVerify (σ := σ) lib cipherText) := by
  refine Confined.bind (Confined.emit trivial) ?_
  intro _
  dsimp only
  split
  · exact Confined.raise _
  · split
    · exact Confined.raise _
    · exact Confined.pure _

theorem confined_commentOnSignature (g : GPG) (sig : Signature) :
    Confined f Event.FromGpg (g.commentOnSignature (σ := σ) sig) := by
  unfold commentOnSignature
  split
  · exact confined_message f _
  · exact Confined.pure _

theorem confined_commentOnFirst (g : GPG) (res : VerificationResult) :
    Confined f Event.FromGpg (g.commentOnFirst (σ := σ) res) := by
  unfold commentOnFirst
  split
  · exact confined_commentOnSignature f g _
  · exact Confined.pure _

theorem confined_processPlainText (g : GPG) (plainText : Blob)
    (params : Option Parameters) :
    Confined f Event.FromGpg (g.processPlainText (σ := σ) lib plainText params) := by
  unfold processPlainText
  split
  · exact Confined.pure _
  · exact Confined.raise _
  · dsimp only
    split
    · exact Confined.bind (confined_message f _) fun _ =>
        Confined.bind (confined_encrypt lib f g _ plainText _) fun _ => Confined.pure _
    · exact Confined.pure _

theorem confined_checkParameters (params : Option Parameters) :
    Confined f Event.FromGpg (checkParameters (σ := σ) params) := by
  unfold checkParameters
  split
  · exact Confined.raise _
  · exact Confined.pure _

theorem confined_processCipherText (g : GPG) (cipherText : Blob)
    (params : Option Parameters) :
    Confined f Event.FromGpg (g.processCipherText (σ := σ) lib cipherText params) :=
  Confined.bind (confined_checkParameters f params) fun _ =>
    Confined.bind (confined_message f _) fun _ =>
      Confined.bind (confined_decryptAndVerify lib f g cipherText) fun _ =>
        Confined.bind (confined_message f _) fun _ =>
          Confined.bind (confined_commentOnFirst f g _) fun _ => Confined.pure _

end GPG

end Frames

end Dpaste.GpgCipher
