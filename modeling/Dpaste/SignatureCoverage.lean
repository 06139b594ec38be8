import Dpaste.TransportStores

/-!
What the check of a detached signature says about the data of a packet. The verdict is
about the text that the signature embeds, which is never compared with the data.
-/

namespace Dpaste.SignatureCoverage

open Dpaste.EffectTraces
open Dpaste.LibraryInterfaces
open Dpaste.MessagePackRoundTrip
open Dpaste.GpgCipher
open Dpaste.CipherSelection
open Dpaste.LocationCodes
open Dpaste.PacketEncoding
open Dpaste.BinOperations
open Dpaste.PasteAndGet
open Dpaste.TransportStores

variable {σ : Type} {env : Env σ}

/-- The text that an opaque signature embeds. -/
def embeddedText (lib : Libraries) (signature : Blob) : Blob :=
  (lib.gpgme.verifyOpaqueSignature signature).2

/-- GpgME verifies the signature without an error and rates the first signer valid. -/
def RatesValid (lib : Libraries) (signature : Blob) : Prop :=
  (lib.gpgme.verifyOpaqueSignature signature).1.error = none ∧
    ∃ sig sigs, (lib.gpgme.verifyOpaqueSignature signature).1.signatures = sig :: sigs ∧
      sig.summary &&& Signature.Valid ≠ 0

def ReportsValid (events : List Event) : Prop :=
  ∃ fingerprint, .message (GPG.validText fingerprint) ∈ events

theorem validText_ne_verifyingText (fingerprint : Text) :
    GPG.validText fingerprint ≠ verifyingText := by
  intro h
  have hvalid : (GPG.validText fingerprint).head? = some 'V' := rfl
  have hverifying : verifyingText.head? = some 'D' := rfl
  rw [h, hverifying] at hvalid
  exact absurd hvalid (by decide)

theorem not_reportsValid_of_lookups {events : List Event} (h : ∀ e ∈ events, e.IsLookup) :
    ¬ReportsValid events := by
  rintro ⟨fingerprint, hmem⟩
  exact h _ hmem

theorem reportsValid_append {events events' : List Event} :
    ReportsValid (events ++ events') ↔ ReportsValid events ∨ ReportsValid events' := by
  simp only [ReportsValid, List.mem_append, exists_or]

/-- The log of a signature check reports a valid signature exactly when the first signer
is rated valid. -/
theorem reportsValid_comments {res : VerificationResult} :
    ReportsValid (comments res) ↔
      ∃ sig sigs, res.signatures = sig :: sigs ∧ sig.summary &&& Signature.Valid ≠ 0 := by
  cases hsigs : res.signatures with
  | nil => simp [comments, hsigs, ReportsValid]
  | cons sig sigs =>
      by_cases hvalid : sig.summary &&& Signature.Valid = 0
      · simp [comments, hsigs, hvalid, ReportsValid]
      · simp only [comments, hsigs, ne_eq, hvalid, not_false_eq_true, if_true]
        exact iff_of_true ⟨_, List.mem_singleton.mpr rfl⟩ ⟨sig, sigs, rfl, hvalid⟩

section Checking

variable {uri code : Text} {raw : Blob} {p : Packet} {s : σ}

/-- A packet with a signature and without a cipher comes back as it is, and the log reports
what GpgME says about the signature. -/
theorem get_signed_packet (noDecrypt : Bool) (hcode : codeFromDpasteUri uri = .ok code)
    (hlen : codeOffset ≤ code.length)
    (hfetch : (fetch env (code.take codeOffset) s).result = .ok raw) (hraw : raw ≠ [])
    (hp : ({} : Packet).deserialize raw = (p, .ok ())) (hsig : p.signature ≠ [])
    (hpgp : isGPGencrypted env.toLibraries p.data = false)
    (haes : code.length ≠ AES.PIN_WITH_PASS_LEN) :
    (ReportsValid (get env uri noDecrypt s).events ∧
        (get env uri noDecrypt s).result = .ok (true, p.data)) ↔
      RatesValid env.toLibraries p.signature := by
  have hlookups := (confined_fetch env (f := fun _ => ()) (fun _ _ => rfl)
    (fun _ _ => rfl) (code.take codeOffset) s).2
  have hopen : openPacket env code (code.drop codeOffset) noDecrypt p
      (fetch env (code.take codeOffset) s).state = _ := openPacket_signed env hpgp haes hsig _
  cases herror : (env.gpgme.verifyOpaqueSignature p.signature).1.error with
  | some err =>
      refine iff_of_false ?_ ?_
      · rintro ⟨_, hresult⟩
        simp only [herror] at hopen
        rw [get_of_raised hcode hlen hfetch hraw hp hopen rfl rfl] at hresult
        cases hresult
      · rintro ⟨hnone, _⟩
        simp [herror] at hnone
  | none =>
      simp only [herror] at hopen
      obtain ⟨hresult, hevents⟩ := get_of_opened hcode hlen hfetch hraw hp hopen rfl
      rw [hevents, hresult, RatesValid, ← reportsValid_comments]
      simp only [reportsValid_append, not_reportsValid_of_lookups hlookups, false_or, herror,
        true_and, and_true]
      refine or_iff_right ?_
      rintro ⟨fingerprint, hmem⟩
      simp [validText_ne_verifyingText] at hmem

/-- A report of a valid signature on returned data means that the data was signed, if and
only if the embedded text is the data of the packet or the signature is not rated valid. -/
theorem signature_covers_iff (env : Env σ) (uri code : Text) (raw : Blob) (p : Packet)
    (noDecrypt : Bool) (s : σ) (hcode : codeFromDpasteUri uri = .ok code)
    (hlen : codeOffset ≤ code.length)
    (hfetch : (fetch env (code.take codeOffset) s).result = .ok raw) (hraw : raw ≠ [])
    (hp : ({} : Packet).deserialize raw = (p, .ok ())) (hsig : p.signature ≠ [])
    (hpgp : isGPGencrypted env.toLibraries p.data = false)
    (haes : code.length ≠ AES.PIN_WITH_PASS_LEN) :
    (ReportsValid (get env uri noDecrypt s).events →
        (get env uri noDecrypt s).result = .ok (true, p.data) →
        embeddedText env.toLibraries p.signature = p.data) ↔
      embeddedText env.toLibraries p.signature = p.data ∨
        ¬RatesValid env.toLibraries p.signature := by
  rw [← get_signed_packet noDecrypt hcode hlen hfetch hraw hp hsig hpgp haes]
  tauto

end Checking

/-- The HTTP service holds a packet with the data `data` and a signature made over `text`. -/
def signedWorld (data text : Blob) : World UInt32 :=
  ⟨42, 0, fun _ => [], fun _ =>
    [encode (packetObject { data := data, signature := (sampleGpgME.sign [] text).2 })]⟩

def signedSample (data text : Blob) : Outcome (World UInt32) Event Exn (Bool × Blob) :=
  get (sampleEnv 0) "dpaste:0000002A".toList false (signedWorld data text)

def signedEvents : List Event :=
  [.httpGet "0000002A".toList, .nodeGet "0000002A".toList, .newCipher .NONE,
    .newCipher .GPG, .message verifyingText, .gpgVerify [0x90, 0x61],
    .message (GPG.validText "A1B2".toList)]

theorem signature_covers_sample :
    ReportsValid (signedSample [0x61] [0x61]).events ∧
      (signedSample [0x61] [0x61]).result = .ok (true, [0x61]) ∧
      embeddedText (sampleLibraries 0) (sampleGpgME.sign [] [0x61]).2 = [0x61] := by
  have hcovers := (signature_covers_iff (sampleEnv 0) "dpaste:0000002A".toList
    "0000002A".toList
    (encode (packetObject { data := [0x61], signature := (sampleGpgME.sign [] [0x61]).2 }))
    { data := [0x61], signature := (sampleGpgME.sign [] [0x61]).2 } false
    (signedWorld [0x61] [0x61]) (codeFromDpasteUri_append _) (by decide) rfl
    (List.ne_nil_of_length_pos (encode_length_pos _)) (by
      rw [← List.append_nil (encode _)]
      exact deserialize_encode ⟨by decide, by decide⟩ {} [])
    (List.cons_ne_nil _ _) rfl (by decide)).mpr (.inl rfl)
  have hevents : (signedSample [0x61] [0x61]).events = signedEvents := rfl
  have hreports : ReportsValid (signedSample [0x61] [0x61]).events :=
    ⟨"A1B2".toList, by simp [hevents, signedEvents]⟩
  exact ⟨hreports, rfl, hcovers hreports rfl⟩

/-- The signature of one text is reported as valid for the data of another. -/
theorem signature_covers_counterexample :
    .message (GPG.validText "A1B2".toList) ∈ (signedSample [0x62] [0x61]).events ∧
      (signedSample [0x62] [0x61]).result = .ok (true, [0x62]) ∧
      embeddedText (sampleLibraries 0) (sampleGpgME.sign [] [0x61]).2 = [0x61] ∧
      ([0x61] : Blob) ≠ [0x62] := by
  have hevents : (signedSample [0x62] [0x61]).events = signedEvents := rfl
  refine ⟨?_, rfl, rfl, by decide⟩
  simp [hevents, signedEvents]

end Dpaste.SignatureCoverage
