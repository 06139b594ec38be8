import Dpaste.FixedWidthNumerals
import Dpaste.PrefixDecoding

/-!
The MessagePack format: its objects, the decoder that reads the first object of
a buffer, and the encoder that writes every object in its shortest form.
-/

namespace Dpaste.MessagePackFormat

open Dpaste.FixedWidthNumerals
open Dpaste.PrefixDecoding

/-- A decoded object. Floating-point numbers are kept as their bit patterns. -/
inductive Object
  | nil
  | bool (b : Bool)
  | integer (value : Int)
  | float32 (bits : Nat)
  | float64 (bits : Nat)
  | str (bytes : List UInt8)
  | bin (bytes : List UInt8)
  | array (items : List Object)
  | map (entries : List (Object × Object))
  | ext (type : UInt8) (bytes : List UInt8)

inductive UnpackError
  | insufficientBytes
  | parseError
  deriving DecidableEq, Repr

def bigEndian (width n : Nat) : List UInt8 :=
  (numeral 256 width n).map UInt8.ofNat

def fromBigEndian (bytes : List UInt8) : Nat :=
  value 256 (bytes.map UInt8.toNat)

/-- The number that a bit pattern of `width` bytes denotes in two's complement. -/
def signed (width bits : Nat) : Int :=
  if 2 * bits < 256 ^ width then bits else bits - 256 ^ width

/-- Where the length of an object stands: in the leading byte itself or in the
bytes that follow it. -/
inductive Count
  | known (n : Nat)
  | follows (width : Nat)

/-- What the leading byte of an object announces. -/
inductive Lead
  | immediate (o : Object)
  | reserved
  | number (width : Nat) (make : Nat → Object)
  | bytes (count : Count) (make : List UInt8 → Object)
  | ext (count : Count)
  | array (count : Count)
  | map (count : Count)

/-- The tags of the objects that are not described by a range of leading bytes. -/
def taggedLead : Nat → Lead
  | 0xc0 => .immediate .nil
  | 0xc2 => .immediate (.bool false)
  | 0xc3 => .immediate (.bool true)
  | 0xc4 => .bytes (.follows 1) .bin
  | 0xc5 => .bytes (.follows 2) .bin
  | 0xc6 => .bytes (.follows 4) .bin
  | 0xc7 => .ext (.follows 1)
  | 0xc8 => .ext (.follows 2)
  | 0xc9 => .ext (.follows 4)
  | 0xca => .number 4 .float32
  | 0xcb => .number 8 .float64
  | 0xcc => .number 1 fun n => .integer n
  | 0xcd => .number 2 fun n => .integer n
  | 0xce => .number 4 fun n => .integer n
  | 0xcf => .number 8 fun n => .integer n
  | 0xd0 => .number 1 fun n => .integer (signed 1 n)
  | 0xd1 => .number 2 fun n => .integer (signed 2 n)
  | 0xd2 => .number 4 fun n => .integer (signed 4 n)
  | 0xd3 => .number 8 fun n => .integer (signed 8 n)
  | 0xd4 => .ext (.known 1)
  | 0xd5 => .ext (.known 2)
  | 0xd6 => .ext (.known 4)
  | 0xd7 => .ext (.known 8)
  | 0xd8 => .ext (.known 16)
  | 0xd9 => .bytes (.follows 1) .str
  | 0xda => .bytes (.follows 2) .str
  | 0xdb => .bytes (.follows 4) .str
  | 0xdc => .array (.follows 2)
  | 0xdd => .array (.follows 4)
  | 0xde => .map (.follows 2)
  | 0xdf => .map (.follows 4)
  | _ => .reserved

def lead (b : Nat) : Lead :=
  if b < 0x80 then .immediate (.integer b)
  else if b < 0x90 then .map (.known (b - 0x80))
  else if b < 0xa0 then .array (.known (b - 0x90))
  else if b < 0xc0 then .bytes (.known (b - 0xa0)) .str
  else if b < 0xe0 then taggedLead b
  else .immediate (.integer ((b : Int) - 256))

def readCount : Count → Decoder UnpackError UInt8 Nat
  | .known n => pure n
  | .follows width => do
      let bytes ← take .insufficientBytes width
      pure (fromBigEndian bytes)

/-- Read what a leading byte announces, where `inner` reads the objects inside
a container. -/
def parseBody (inner : Decoder UnpackError UInt8 Object) :
    Lead → Decoder UnpackError UInt8 Object
  | .immediate o => pure o
  | .reserved => throw .parseError
  | .number width make => do
      let bytes ← take .insufficientBytes width
      pure (make (fromBigEndian bytes))
  | .bytes count make => do
      let n ← readCount count
      let bytes ← take .insufficientBytes n
      pure (make bytes)
  | .ext count => do
      let n ← readCount count
      let type ← next .insufficientBytes
      let bytes ← take .insufficientBytes n
      pure (.ext type bytes)
  | .array count => do
      let n ← readCount count
      let items ← times inner n
      pure (.array items)
  | .map count => do
      let n ← readCount count
      let entries ← times (both inner inner) n
      pure (.map entries)

/-- Read one object. The fuel bounds the nesting depth. -/
def parse : Nat → Decoder UnpackError UInt8 Object
  | 0 => throw .insufficientBytes
  | fuel + 1 => do
      let b ← next .insufficientBytes
      parseBody (parse fuel) (lead b.toNat)

/-- Decode the first object of a buffer and ignore the bytes after it. Every
level of nesting takes a byte, so the length of the buffer is enough fuel. -/
def unpack (buffer : List UInt8) : Except UnpackError Object :=
  (parse buffer.length).run' buffer

section Continuing

theorem continues_readCount (count : Count) : Continues (readCount count) (readCount count) := by
  cases count with
  | known n => exact Continues.pure n
  | follows width =>
      exact Continues.bind (Continues.take _ width) fun _ => Continues.pure _

theorem continues_parseBody {inner inner' : Decoder UnpackError UInt8 Object}
    (h : Continues inner inner') (l : Lead) :
    Continues (parseBody inner l) (parseBody inner' l) := by
  cases l with
  | immediate o => exact Continues.pure o
  | reserved => exact Continues.throw _ _
  | number width make =>
      exact Continues.bind (Continues.take _ width) fun _ => Continues.pure _
  | bytes count make =>
      exact Continues.bind (continues_readCount count) fun n =>
        Continues.bind (Continues.take _ n) fun _ => Continues.pure _
  | ext count =>
      exact Continues.bind (continues_readCount count) fun n =>
        Continues.bind (Continues.next _) fun _ =>
          Continues.bind (Continues.take _ n) fun _ => Continues.pure _
  | array count =>
      exact Continues.bind (continues_readCount count) fun n =>
        Continues.bind (Continues.times h n) fun _ => Continues.pure _
  | map count =>
      exact Continues.bind (continues_readCount count) fun n =>
        Continues.bind (Continues.times (Continues.both h h) n) fun _ => Continues.pure _

/-- More fuel and more input change nothing about an object that was read. -/
theorem continues_parse {fuel fuel' : Nat} (hfuel : fuel ≤ fuel') :
    Continues (parse fuel) (parse fuel') := by
  induction fuel generalizing fuel' with
  | zero => exact Continues.throw _ _
  | succ fuel ih =>
      obtain ⟨k, rfl⟩ : ∃ k, fuel' = k + 1 := ⟨fuel' - 1, by omega⟩
      exact Continues.bind (Continues.next _) fun b =>
        continues_parseBody (ih (by omega)) (lead b.toNat)

theorem persists_readCount (count : Count) :
    Persists .insufficientBytes (readCount count) (readCount count) := by
  cases count with
  | known n => exact Persists.pure n _
  | follows width =>
      exact Persists.bind (Persists.take width _) (Continues.take _ width) fun _ =>
        Persists.pure _ _

theorem persists_parseBody {inner inner' : Decoder UnpackError UInt8 Object}
    (h : Persists .insufficientBytes inner inner') (hcontinues : Continues inner inner')
    (l : Lead) : Persists .insufficientBytes (parseBody inner l) (parseBody inner' l) := by
  cases l with
  | immediate o => exact Persists.pure o _
  | reserved => exact Persists.throw _
  | number width make =>
      exact Persists.bind (Persists.take width _) (Continues.take _ width) fun _ =>
        Persists.pure _ _
  | bytes count make =>
      exact Persists.bind (persists_readCount count) (continues_readCount count) fun n =>
        Persists.bind (Persists.take n _) (Continues.take _ n) fun _ => Persists.pure _ _
  | ext count =>
      exact Persists.bind (persists_readCount count) (continues_readCount count) fun n =>
        Persists.bind (Persists.next _) (Continues.next _) fun _ =>
          Persists.bind (Persists.take n _) (Continues.take _ n) fun _ => Persists.pure _ _
  | array count =>
      exact Persists.bind (persists_readCount count) (continues_readCount count) fun n =>
        Persists.bind (Persists.times h hcontinues n) (Continues.times hcontinues n) fun _ =>
          Persists.pure _ _
  | map count =>
      exact Persists.bind (persists_readCount count) (continues_readCount count) fun n =>
        Persists.bind
          (Persists.times (Persists.both h hcontinues h hcontinues)
            (Continues.both hcontinues hcontinues) n)
          (Continues.times (Continues.both hcontinues hcontinues) n) fun _ => Persists.pure _ _

/-- More input does not repair an error, unless it was that bytes are missing. -/
theorem persists_parse {fuel fuel' : Nat} (hfuel : fuel ≤ fuel') :
    Persists .insufficientBytes (parse fuel) (parse fuel') := by
  induction fuel generalizing fuel' with
  | zero => exact Persists.throw_short _
  | succ fuel ih =>
      obtain ⟨k, rfl⟩ : ∃ k, fuel' = k + 1 := ⟨fuel' - 1, by omega⟩
      exact Persists.bind (Persists.next _) (Continues.next _) fun b =>
        persists_parseBody (ih (by omega)) (continues_parse (by omega)) (lead b.toNat)

theorem unpack_append {buffer : List UInt8} {o : Object} (h : unpack buffer = .ok o)
    (rest : List UInt8) : unpack (buffer ++ rest) = .ok o := by
  rw [unpack, StateT.run'] at h ⊢
  cases hparse : parse buffer.length buffer with
  | error e =>
      rw [hparse] at h
      cases h
  | ok r =>
      obtain ⟨o', after⟩ := r
      rw [hparse] at h
      have hle : buffer.length ≤ (buffer ++ rest).length := by
        rw [List.length_append]
        omega
      rw [continues_parse hle buffer o' after hparse rest]
      exact h

end Continuing

end Dpaste.MessagePackFormat
