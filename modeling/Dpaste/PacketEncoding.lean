import Dpaste.LibraryInterfaces
import Dpaste.MessagePackRoundTrip

/-!
Packets and their MessagePack form.
-/

namespace Dpaste.PacketEncoding

open Dpaste.LibraryInterfaces
open Dpaste.MessagePackFormat
open Dpaste.MessagePackRoundTrip

structure Packet where
  data : Blob := []
  signature : Blob := []

def PROTO_VERSION : Nat := 0

def asciiBytes (text : Text) : Blob := text.map fun c => UInt8.ofNat c.toNat

def packText (text : Text) : Blob :=
  packStr (asciiBytes text).length ++ asciiBytes text

/-- `pk.pack` of a byte vector, which checks that four bytes hold its size. -/
def packBlob (blob : Blob) : Except Exn Blob :=
  if blob.length < 2 ^ 32 then .ok (packBin blob.length ++ blob)
  else .error .containerSizeOverflow

namespace Packet

def serialize (p : Packet) : Except Exn Blob := do
  let header := packMap 3
  let version := packText "v".toList ++ packUnsigned PROTO_VERSION
  let data ← packBlob p.data
  let signature ← packBlob p.signature
  pure (header ++ version ++ (packText "data".toList ++ data) ++
    (packText "signature".toList ++ signature))

end Packet

/-- The loop of `findMapValue`: the value of the first entry under a string key. -/
def findEntry (key : Blob) : List (Object × Object) → Option Object
  | [] => none
  | (.str k, v) :: entries => if k = key then some v else findEntry key entries
  | _ :: entries => findEntry key entries

def findMapValue (map : Object) (key : Text) : Except Exn (Option Object) :=
  match map with
  | .map entries => .ok (findEntry (asciiBytes key) entries)
  | _ => .error .typeError

/-- `object::convert` to a byte vector. -/
def convert : Object → Except Exn Blob
  | .bin bytes => .ok bytes
  | .str bytes => .ok bytes
  | _ => .error .typeError

/-- A field that has been cleared and is then read from the map. -/
def readField (map : Object) (key : Text) : Except Exn Blob := do
  match ← findMapValue map key with
  | some d => convert d
  | none => pure []

/-- `Packet::deserialize` on a packet that holds `q`: what the packet holds
afterwards, and whether an exception ended the call. -/
def Packet.deserialize (q : Packet) (pbuffer : Blob) : Packet × Except Exn Unit :=
  match unpack pbuffer with
  | .error e => (q, .error (.unpackError e))
  | .ok object =>
      match readField object "data".toList with
      | .error e => ({ q with data := [] }, .error e)
      | .ok data =>
          match readField object "signature".toList with
          | .error e => ({ data, signature := [] }, .error e)
          | .ok signature => ({ data, signature }, .ok ())

def packetObject (p : Packet) : Object :=
  .map [(.str (asciiBytes "v".toList), .integer PROTO_VERSION),
    (.str (asciiBytes "data".toList), .bin p.data),
    (.str (asciiBytes "signature".toList), .bin p.signature)]

def Sized (p : Packet) : Prop :=
  p.data.length < 2 ^ 32 ∧ p.signature.length < 2 ^ 32

theorem fits_packetObject {p : Packet} (hp : Sized p) : Fits (packetObject p) := by
  have hstr (text : Text) (h : (asciiBytes text).length < 2 ^ 32) :
      Fits (.str (asciiBytes text)) := .str h
  refine .map (by simp) ?_ ?_
  · simp only [List.forall_mem_cons, List.not_mem_nil, false_implies, implies_true,
      and_true]
    exact ⟨hstr _ (by decide), hstr _ (by decide), hstr _ (by decide)⟩
  · simp only [List.forall_mem_cons, List.not_mem_nil, false_implies, implies_true,
      and_true]
    exact ⟨.integer (by decide) (by decide), .bin hp.1, .bin hp.2⟩

/-- The packer's calls write the MessagePack form of the packet's object. -/
theorem serialize_eq_encode {p : Packet} (hp : Sized p) :
    p.serialize = .ok (encode (packetObject p)) := by
  have hdata : packBlob p.data = .ok (packBin p.data.length ++ p.data) :=
    if_pos hp.1
  have hsignature : packBlob p.signature =
      .ok (packBin p.signature.length ++ p.signature) := if_pos hp.2
  simp only [Packet.serialize, hdata, hsignature, bind, Except.bind, pure,
    Except.pure, packetObject, encode, encodeEntries, packText, packInteger]
  simp [PROTO_VERSION]

theorem packBlob_of_not_lt {blob : Blob} (h : ¬blob.length < 2 ^ 32) :
    packBlob blob = .error .containerSizeOverflow := if_neg h

theorem sized_of_serialize {p : Packet} {bytes : Blob}
    (h : p.serialize = .ok bytes) : Sized p := by
  constructor
  · by_contra hdata
    simp [Packet.serialize, packBlob_of_not_lt hdata, bind, Except.bind] at h
  · by_contra hsignature
    simp only [Packet.serialize, packBlob_of_not_lt hsignature, bind, Except.bind] at h
    cases hdata : packBlob p.data <;> simp [hdata] at h

theorem deserialize_encode {p : Packet} (hp : Sized p) (q : Packet) (rest : Blob) :
    q.deserialize (encode (packetObject p) ++ rest) = (p, .ok ()) := by
  rw [Packet.deserialize, unpack_encode_append (fits_packetObject hp)]
  rfl

theorem deserialize_serialize {p : Packet} {bytes : Blob}
    (h : p.serialize = .ok bytes) (q : Packet) :
    q.deserialize bytes = (p, .ok ()) := by
  have hp := sized_of_serialize h
  rw [serialize_eq_encode hp, Except.ok.injEq] at h
  rw [← h, ← List.append_nil (encode _)]
  exact deserialize_encode hp q []

theorem serialize_ne_nil {p : Packet} {bytes : Blob} (h : p.serialize = .ok bytes) :
    bytes ≠ [] := by
  rw [serialize_eq_encode (sized_of_serialize h), Except.ok.injEq] at h
  rw [← h]
  exact List.ne_nil_of_length_pos (encode_length_pos _)

end Dpaste.PacketEncoding
