import Dpaste.MainProgram
import Dpaste.PlainRoundTrip

/-!
Pastes of a stream: how much of it is pasted, and how large the published packet is.
-/

namespace Dpaste.StreamPastes

open Dpaste.LibraryInterfaces
open Dpaste.MessagePackRoundTrip
open Dpaste.CipherParameters
open Dpaste.CommandLine
open Dpaste.LocationCodes
open Dpaste.PacketEncoding
open Dpaste.BinOperations
open Dpaste.PacketPreparation
open Dpaste.PasteAndGet
open Dpaste.PlainRoundTrip
open Dpaste.TransportStores
open Dpaste.MainProgram

variable {σ : Type} {env : Env σ} {conf : StringMap} {storage : Storage} {data : Blob}
  {params : Option Parameters} {s : σ}

section Reading

@[simp] theorem dataFromStream_eq (inputStream : Blob) :
    dataFromStream inputStream = inputStream.take MAX_VALUE_SIZE := by
  simp [dataFromStream, readStream, resize]

theorem dataFromStream_eq_self_iff {inputStream : Blob} :
    dataFromStream inputStream = inputStream ↔ inputStream.length ≤ MAX_VALUE_SIZE := by
  rw [dataFromStream_eq]
  constructor
  · intro h
    have hlen := congrArg List.length h
    rw [List.length_take] at hlen
    omega
  · exact List.take_of_length_le

theorem pasteCommand_succeeds {pa : ParsedArgs} {stdin : Blob} {out : Text}
    (h : (pasteCommand env conf storage pa stdin s).result = .ok (out, 0)) :
    ∃ uri, (pasteStream env conf storage stdin (paramsFromArgs storage pa) s).result =
      .ok uri ∧ uri ≠ [] := by
  rw [pasteCommand_apply] at h
  cases hresult : (pasteStream env conf storage stdin (paramsFromArgs storage pa) s).result with
  | error e => simp [hresult, Except.map] at h
  | ok uri =>
      refine ⟨uri, rfl, ?_⟩
      rintro rfl
      simp [hresult, Except.map] at h

/-- A transport has taken a packet with the given data under the first pin. -/
def Publishes (env : Env σ) (s : σ) (data : Blob) (events : List Event) : Prop :=
  ∃ (p : Packet) (bytes : Blob), p.data = data ∧ p.serialize = .ok bytes ∧
    Accepted (pinText (env.draw s).1) bytes events

theorem publishes_of_uri {uri : Text} (hparams : Unencrypted storage params)
    (hresult : (paste env conf storage data params s).result = .ok uri) (huri : uri ≠ []) :
    Publishes env s data (paste env conf storage data params s).events := by
  obtain ⟨p, pwd, bytes, h, _, haccepted⟩ := prepared_of_uri hresult huri
  exact ⟨p, bytes, (packet_of_unencrypted hparams h.packet).1, h.bytes, haccepted⟩

/-- The first bytes of the input are pasted, as many as a value of the DHT may have. These
are all of the input exactly when it is no larger. A paste without encryption that
succeeds has published them. -/
theorem stdin_published (env : Env σ) (conf : StringMap) (storage : Storage) (stdin : Blob)
    (s : σ) :
    dataFromStream stdin = stdin.take MAX_VALUE_SIZE ∧
      (dataFromStream stdin = stdin ↔ stdin.length ≤ MAX_VALUE_SIZE) ∧
      (∀ params, pasteStream env conf storage stdin params =
        paste env conf storage (stdin.take MAX_VALUE_SIZE) params) ∧
      (∀ params uri, Unencrypted storage params →
        (pasteStream env conf storage stdin params s).result = .ok uri → uri ≠ [] →
        Publishes env s (stdin.take MAX_VALUE_SIZE)
          (pasteStream env conf storage stdin params s).events) ∧
      ∀ pa out, Unencrypted storage (paramsFromArgs storage pa) →
        (pasteCommand env conf storage pa stdin s).result = .ok (out, 0) →
        Publishes env s (stdin.take MAX_VALUE_SIZE)
          (pasteCommand env conf storage pa stdin s).events := by
  have hstream (params : Option Parameters) : pasteStream env conf storage stdin params =
      paste env conf storage (stdin.take MAX_VALUE_SIZE) params := by
    rw [pasteStream, dataFromStream_eq]
  refine ⟨dataFromStream_eq stdin, dataFromStream_eq_self_iff, hstream, ?_, ?_⟩
  · intro params uri hparams hresult huri
    rw [hstream] at hresult ⊢
    exact publishes_of_uri hparams hresult huri
  · intro pa out hparams hresult
    obtain ⟨uri, huri, hne⟩ := pasteCommand_succeeds hresult
    rw [hstream] at huri
    rw [pasteCommand_apply, hstream]
    exact publishes_of_uri hparams huri hne

theorem stdin_published_sample :
    Publishes (sampleEnv 0) (World.initial 42) [0x64, 0x0A]
      (pasteCommand (sampleEnv 0) [] ⟨0, false, false⟩ {} [0x64, 0x0A]
        (World.initial 42)).events := by
  have hread : dataFromStream [0x64, 0x0A] = [0x64, 0x0A] :=
    dataFromStream_eq_self_iff.mpr (by decide)
  have hresult : (pasteCommand (sampleEnv 0) [] ⟨0, false, false⟩ {} [0x64, 0x0A]
      (World.initial 42)).result = .ok ("dpaste:0000002A\n".toList, 0) := by
    rw [pasteCommand_apply, pasteStream, hread]
    rfl
  have h := (stdin_published (sampleEnv 0) [] ⟨0, false, false⟩ [0x64, 0x0A]
    (World.initial 42)).2.2.2.2 {} _ rfl hresult
  rwa [← dataFromStream_eq, hread] at h

theorem paste_accepted (data : Blob) (w : World UInt32) (hdata : data.length < 2 ^ 32) :
    ∃ bytes, Prepared (sampleEnv 0) [] ⟨0, false, false⟩ data none w { data := data } []
        bytes ∧
      ∃ uri, uri ≠ [] ∧
        (paste (sampleEnv 0) [] ⟨0, false, false⟩ data none w).result = .ok uri := by
  have hsized : Sized { data := data } := ⟨hdata, Nat.two_pow_pos 32⟩
  have h : Prepared (sampleEnv 0) [] ⟨0, false, false⟩ data none w { data := data } []
      (encode (packetObject { data := data })) :=
    ⟨by rw [prepareData_null (sampleEnv 0) rfl], serialize_eq_encode hsized⟩
  have hpublish (code : Text) (bytes : Blob) (w' : World UInt32) :
      (publish (sampleEnv 0) code bytes w').result = .ok true := rfl
  exact ⟨_, h, _, uri_ne_nil _ _, (paste_of_published h rfl (hpublish _ _ _)).1⟩

/-- One byte more than a value of the DHT may have is not pasted, but the paste returns a
URI. -/
theorem stdin_published_counterexample :
    dataFromStream (List.replicate 65537 0x61) ≠ List.replicate 65537 0x61 ∧
      (pasteStream (sampleEnv 0) [] ⟨0, false, false⟩ (List.replicate 65537 0x61) none
        (World.initial 42)).result ≠ .ok [] := by
  generalize hstdin : List.replicate 65537 (0x61 : UInt8) = stdin
  have hlen : stdin.length = 65537 := by rw [← hstdin, List.length_replicate]
  constructor
  · rw [Ne, dataFromStream_eq_self_iff, hlen]
    decide
  · obtain ⟨_, _, uri, huri, hresult⟩ := paste_accepted (dataFromStream stdin)
      (World.initial 42) (by rw [dataFromStream_eq, List.length_take]; omega)
    rw [pasteStream, hresult]
    simpa using huri

end Reading

section Sizes

theorem packBin_length (n : Nat) :
    (packBin n).length = if n < 2 ^ 8 then 2 else if n < 2 ^ 16 then 3 else 5 := by
  unfold packBin sizedHeader
  split
  · simp
  · split
    · simp
    · simp

/-- The keys, the version and the header of the map take 19 bytes, and each field has a
header of its own. -/
theorem serialize_length {p : Packet} {bytes : Blob} (h : p.serialize = .ok bytes) :
    bytes.length = 19 + ((packBin p.data.length).length + p.data.length) +
      ((packBin p.signature.length).length + p.signature.length) := by
  obtain ⟨hdata, hsignature⟩ := sized_of_serialize h
  have hpack : p.serialize = .ok (packMap 3 ++
      (packText "v".toList ++ packUnsigned PROTO_VERSION) ++
      (packText "data".toList ++ (packBin p.data.length ++ p.data)) ++
      (packText "signature".toList ++ (packBin p.signature.length ++ p.signature))) := by
    simp only [Packet.serialize, packBlob, if_pos hdata, if_pos hsignature, bind, Except.bind,
      pure, Except.pure]
  have hmap : (packMap 3).length = 1 := rfl
  have hversion : (packText "v".toList ++ packUnsigned PROTO_VERSION).length = 3 := rfl
  have hkeyData : (packText "data".toList).length = 5 := rfl
  have hkeySignature : (packText "signature".toList).length = 10 := rfl
  rw [h, Except.ok.injEq] at hpack
  rw [hpack]
  simp only [List.length_append] at hversion ⊢
  omega

/-- A packet without a signature fits a value of the DHT if 24 bytes are left for the
rest of the packet. -/
theorem serialize_fits_iff {p : Packet} {bytes : Blob} (h : p.serialize = .ok bytes)
    (hsignature : p.signature = []) :
    bytes.length ≤ MAX_VALUE_SIZE ↔ p.data.length + 24 ≤ MAX_VALUE_SIZE := by
  have hempty : (packBin 0).length = 2 := rfl
  rw [serialize_length h, hsignature, packBin_length, List.length_nil, hempty]
  simp only [MAX_VALUE_SIZE]
  split
  · omega
  · split <;> omega

/-- No cipher, or AES. -/
inductive CipherChoice (storage : Storage) : Option Parameters → Prop
  | none (h : storage.scheme = Scheme.NONE.toInt) : CipherChoice storage none
  | aes (a : AESParameters) : CipherChoice storage (some (.aes a))

/-- By how much AES makes a text longer, when the cipher text has `k` bytes more. -/
def overhead (k : Nat) : Option Parameters → Nat
  | none => 0
  | some _ => k

theorem packet_of_choice {p : Packet} {pwd : Text} {k : Nat} (hk : 0 < k)
    (haes : ∀ data pwd c, env.aesEncrypt data pwd = .ok c → c.length = data.length + k)
    (hchoice : CipherChoice storage params)
    (h : (prepareData env conf storage data params s).result = .ok (p, pwd)) :
    p.signature = [] ∧ p.data.length = data.length + overhead k params := by
  cases hchoice with
  | none hscheme =>
      rw [prepareData_null env hscheme, Except.ok.injEq, Prod.mk.injEq] at h
      rw [← h.1]
      exact ⟨rfl, rfl⟩
  | aes a =>
      obtain ⟨_, c, hc, rfl⟩ := prepareData_aes_eq_ok env h
      have hlen := haes _ _ _ hc
      have hne : c ≠ [] := List.ne_nil_of_length_pos (by omega)
      rw [if_neg hne]
      exact ⟨rfl, hlen⟩

/-- A published packet respects the limit of the DHT exactly when the limit, to which the
input is cut, leaves room for the overhead of the cipher and of the packet. -/
theorem published_size_iff (env : Env σ) (conf : StringMap) (storage : Storage)
    (inputStream : Blob) (params : Option Parameters) (s : σ) (k : Nat) (hk : 0 < k)
    (haes : ∀ data pwd c, env.aesEncrypt data pwd = .ok c → c.length = data.length + k)
    (hchoice : CipherChoice storage params) (code : Text) (bytes : Blob) (e : Event)
    (he : e ∈ (pasteStream env conf storage inputStream params s).events)
    (hhands : Hands code bytes e) :
    bytes.length ≤ MAX_VALUE_SIZE ↔
      min inputStream.length MAX_VALUE_SIZE + overhead k params + 24 ≤ MAX_VALUE_SIZE := by
  obtain ⟨p, pwd, bytes', h, hhands'⟩ := prepared_of_publication he hhands.isPublication
  obtain ⟨_, rfl⟩ := hhands.inj hhands'
  obtain ⟨hsignature, hlen⟩ := packet_of_choice hk haes hchoice h.packet
  rw [serialize_fits_iff h.bytes hsignature, hlen, dataFromStream_eq, List.length_take,
    min_comm]

theorem published_size_sample :
    ∃ code bytes e, Hands code bytes e ∧
      e ∈ (pasteStream (sampleEnv 0) [] ⟨0, false, false⟩ [0x64, 0x0A] (some (.aes ⟨[]⟩))
        (World.initial 42)).events ∧
      bytes.length ≤ MAX_VALUE_SIZE := by
  have h : Prepared (sampleEnv 0) [] ⟨0, false, false⟩ [0x64, 0x0A] (some (.aes ⟨[]⟩))
      (World.initial 42) { data := [0x00, 0x64, 0x0A] } "0000002B".toList
      (encode (packetObject { data := [0x00, 0x64, 0x0A] })) :=
    ⟨rfl, serialize_eq_encode ⟨by decide, by decide⟩⟩
  obtain ⟨_, _, _, ⟨accepted, hput⟩, _⟩ := paste_prepared_result h
  have hstream : pasteStream (sampleEnv 0) [] ⟨0, false, false⟩ [0x64, 0x0A]
        (some (.aes ⟨[]⟩)) =
      paste (sampleEnv 0) [] ⟨0, false, false⟩ [0x64, 0x0A] (some (.aes ⟨[]⟩)) := by
    rw [pasteStream, dataFromStream_eq_self_iff.mpr (by decide)]
  rw [hstream]
  refine ⟨_, _, _, ⟨accepted, .inl rfl⟩, hput, ?_⟩
  rw [← hstream] at hput
  refine (published_size_iff (sampleEnv 0) [] ⟨0, false, false⟩ [0x64, 0x0A]
    (some (.aes ⟨[]⟩)) (World.initial 42) 1 Nat.one_pos ?_ (.aes _) _ _ _ hput
    ⟨accepted, .inl rfl⟩).mpr (by decide)
  intro data pwd c hc
  rw [← Except.ok.inj hc]
  rfl

/-- A stream that is not cut is published with 24 more bytes, when they are many. -/
theorem published_size_of_long {inputStream : Blob} (w : World UInt32)
    (hlong : 2 ^ 8 ≤ inputStream.length) (huncut : inputStream.length ≤ MAX_VALUE_SIZE)
    (hlen : inputStream.length < 2 ^ 16) :
    ∃ code bytes e, Hands code bytes e ∧
      e ∈ (pasteStream (sampleEnv 0) [] ⟨0, false, false⟩ inputStream none w).events ∧
      bytes.length = inputStream.length + 24 := by
  have hdata : dataFromStream inputStream = inputStream :=
    dataFromStream_eq_self_iff.mpr huncut
  have hempty : (packBin 0).length = 2 := rfl
  obtain ⟨bytes, h, _⟩ := paste_accepted inputStream w (by omega)
  obtain ⟨_, _, _, ⟨accepted, hput⟩, _⟩ := paste_prepared_result h
  rw [pasteStream, hdata]
  refine ⟨_, bytes, _, ⟨accepted, .inl rfl⟩, hput, ?_⟩
  rw [serialize_length h.bytes, packBin_length, if_neg hlong.not_gt, if_pos hlen,
    List.length_nil, hempty]
  dsimp only
  omega

/-- 65513 bytes are not cut, and their packet has one byte more than the limit. -/
theorem published_size_counterexample :
    ∃ code bytes e, Hands code bytes e ∧
      e ∈ (pasteStream (sampleEnv 0) [] ⟨0, false, false⟩ (List.replicate 65513 0x61) none
        (World.initial 42)).events ∧
      bytes.length = MAX_VALUE_SIZE + 1 := by
  have hlen : (List.replicate 65513 (0x61 : UInt8)).length = 65513 := List.length_replicate
  obtain ⟨code, bytes, e, hhands, he, hsize⟩ := published_size_of_long (World.initial 42)
    (by rw [hlen]; decide) (by rw [hlen]; decide) (by rw [hlen]; decide)
  exact ⟨code, bytes, e, hhands, he, by rw [hsize, hlen]; rfl⟩

end Sizes

end Dpaste.StreamPastes
