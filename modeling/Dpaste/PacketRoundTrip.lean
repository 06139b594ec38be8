import Dpaste.PacketEncoding

/-!
Decoding a packet undoes encoding it, and decoding a part of a packet fails.
-/

namespace Dpaste.PacketRoundTrip

open Dpaste.LibraryInterfaces
open Dpaste.MessagePackFormat
open Dpaste.MessagePackRoundTrip
open Dpaste.PacketEncoding

theorem serialize_injective {p q : Packet} {bytes : Blob} (hp : p.serialize = .ok bytes)
    (hq : q.serialize = .ok bytes) : p = q := by
  have hread := deserialize_serialize hp {}
  rw [deserialize_serialize hq {}] at hread
  exact (Prod.mk.inj hread).1.symm

/-- A packet whose fields four bytes can measure is written as the MessagePack form of its
map. Reading this form restores the packet, whatever the packet that is filled held before,
and no other packet has the same form. -/
theorem packet_round_trip (p : Packet) (hp : Sized p) :
    ∃ bytes, p.serialize = .ok bytes ∧ bytes = encode (packetObject p) ∧
      (∀ q : Packet, q.deserialize bytes = (p, .ok ())) ∧
      ∀ p' : Packet, p'.serialize = .ok bytes → p' = p := by
  have hbytes := serialize_eq_encode hp
  refine ⟨_, hbytes, rfl, ?_, ?_⟩
  · intro q
    exact deserialize_serialize hbytes q
  · intro p' hp'
    exact serialize_injective hp' hbytes

/-- The payload looks like a map, and the signature like one of its keys. -/
theorem packet_round_trip_sample :
    ∃ bytes, ({ data := [0x81, 0xa4], signature := asciiBytes "data".toList } :
        Packet).serialize = .ok bytes ∧
      ({ data := [0x01], signature := [0x02] } : Packet).deserialize bytes =
        ({ data := [0x81, 0xa4], signature := asciiBytes "data".toList }, .ok ()) := by
  obtain ⟨bytes, hbytes, _, hread, _⟩ := packet_round_trip
    { data := [0x81, 0xa4], signature := asciiBytes "data".toList }
    ⟨by decide, by decide⟩
  exact ⟨bytes, hbytes, hread _⟩

section Parts

variable {p p' : Packet} {bytes bytes' part : Blob}

theorem unpack_of_part (h : p.serialize = .ok bytes) (hpart : part <+: bytes)
    (hne : part ≠ bytes) : unpack part = .error .insufficientBytes := by
  have hp := sized_of_serialize h
  rw [serialize_eq_encode hp, Except.ok.injEq] at h
  subst h
  exact unpack_of_prefix (fits_packetObject hp) hpart hne

/-- A part of a packet leaves the packet that is filled as it was. -/
theorem deserialize_of_part (h : p.serialize = .ok bytes) (hpart : part <+: bytes)
    (hne : part ≠ bytes) (q : Packet) :
    q.deserialize part = (q, .error (.unpackError .insufficientBytes)) := by
  rw [Packet.deserialize, unpack_of_part h hpart hne]

/-- The bytes of a packet are not the beginning of those of another one. -/
theorem eq_of_part (h : p.serialize = .ok bytes) (h' : p'.serialize = .ok bytes')
    (hpart : bytes <+: bytes') : p = p' := by
  by_cases hne : bytes = bytes'
  · exact serialize_injective h (hne ▸ h')
  · have hread := deserialize_serialize h {}
    rw [deserialize_of_part h' hpart hne] at hread
    cases hread

end Parts

end Dpaste.PacketRoundTrip
