import Dpaste.MessagePackFormat

/-!
The packer: every object in its shortest form, and the proof that the decoder
reads the packed form back, whatever follows it in the buffer.
-/

namespace Dpaste.MessagePackRoundTrip

open Dpaste.FixedWidthNumerals
open Dpaste.PrefixDecoding
open Dpaste.MessagePackFormat

@[simp] theorem bigEndian_length (width n : Nat) :
    (bigEndian width n).length = width := by
  simp [bigEndian]

theorem fromBigEndian_bigEndian {width n : Nat} (hn : n < 256 ^ width) :
    fromBigEndian (bigEndian width n) = n := by
  have hbytes : (bigEndian width n).map UInt8.toNat = numeral 256 width n := by
    rw [bigEndian, List.map_map]
    refine (List.map_congr_left fun d hd => ?_).trans (List.map_id _)
    have hlt := digit_lt_of_mem_numeral (by decide) hd
    simpa using Nat.mod_eq_of_lt hlt
  rw [fromBigEndian, hbytes, value_numeral hn]

/-- The header of a byte string or extension whose length does not fit the
leading byte: a tag for each width of the length. -/
def sizedHeader (tag8 tag16 tag32 : UInt8) (n : Nat) : List UInt8 :=
  if n < 2 ^ 8 then tag8 :: bigEndian 1 n
  else if n < 2 ^ 16 then tag16 :: bigEndian 2 n
  else tag32 :: bigEndian 4 n

def packStr (n : Nat) : List UInt8 :=
  if n < 32 then [UInt8.ofNat (0xa0 + n)] else sizedHeader 0xd9 0xda 0xdb n

def packBin (n : Nat) : List UInt8 := sizedHeader 0xc4 0xc5 0xc6 n

def packExt (n : Nat) : List UInt8 :=
  match n with
  | 1 => [0xd4]
  | 2 => [0xd5]
  | 4 => [0xd6]
  | 8 => [0xd7]
  | 16 => [0xd8]
  | n => sizedHeader 0xc7 0xc8 0xc9 n

def packArray (n : Nat) : List UInt8 :=
  if n < 16 then [UInt8.ofNat (0x90 + n)]
  else if n < 2 ^ 16 then 0xdc :: bigEndian 2 n
  else 0xdd :: bigEndian 4 n

def packMap (n : Nat) : List UInt8 :=
  if n < 16 then [UInt8.ofNat (0x80 + n)]
  else if n < 2 ^ 16 then 0xde :: bigEndian 2 n
  else 0xdf :: bigEndian 4 n

def packUnsigned (n : Nat) : List UInt8 :=
  if n < 2 ^ 7 then [UInt8.ofNat n]
  else if n < 2 ^ 8 then 0xcc :: bigEndian 1 n
  else if n < 2 ^ 16 then 0xcd :: bigEndian 2 n
  else if n < 2 ^ 32 then 0xce :: bigEndian 4 n
  else 0xcf :: bigEndian 8 n

def packNegative (n : Nat) : List UInt8 :=
  if n ≤ 2 ^ 5 then [UInt8.ofNat (256 - n)]
  else if n ≤ 2 ^ 7 then 0xd0 :: bigEndian 1 (256 ^ 1 - n)
  else if n ≤ 2 ^ 15 then 0xd1 :: bigEndian 2 (256 ^ 2 - n)
  else if n ≤ 2 ^ 31 then 0xd2 :: bigEndian 4 (256 ^ 4 - n)
  else 0xd3 :: bigEndian 8 (256 ^ 8 - n)

def packInteger : Int → List UInt8
  | .ofNat n => packUnsigned n
  | .negSucc n => packNegative (n + 1)

mutual
def encode : Object → List UInt8
  | .nil => [0xc0]
  | .bool b => [if b then 0xc3 else 0xc2]
  | .integer n => packInteger n
  | .float32 bits => 0xca :: bigEndian 4 bits
  | .float64 bits => 0xcb :: bigEndian 8 bits
  | .str bytes => packStr bytes.length ++ bytes
  | .bin bytes => packBin bytes.length ++ bytes
  | .array items => packArray items.length ++ encodeItems items
  | .map entries => packMap entries.length ++ encodeEntries entries
  | .ext type bytes => packExt bytes.length ++ type :: bytes

def encodeItems : List Object → List UInt8
  | [] => []
  | o :: os => encode o ++ encodeItems os

def encodeEntries : List (Object × Object) → List UInt8
  | [] => []
  | (k, v) :: es => encode k ++ encode v ++ encodeEntries es
end

theorem encodeItems_eq_flatMap (items : List Object) :
    encodeItems items = items.flatMap encode := by
  induction items with
  | nil => rfl
  | cons o os ih => simp [encodeItems, ih]

theorem encodeEntries_eq_flatMap (entries : List (Object × Object)) :
    encodeEntries entries = entries.flatMap fun e => encode e.1 ++ encode e.2 := by
  induction entries with
  | nil => rfl
  | cons e es ih => simp [encodeEntries, ih]

/-- The objects that have a packed form: integers and bit patterns in range,
lengths that four bytes can hold. -/
inductive Fits : Object → Prop
  | nil : Fits .nil
  | bool (b : Bool) : Fits (.bool b)
  | integer {n : Int} (hlow : -2 ^ 63 ≤ n) (hhigh : n < 2 ^ 64) : Fits (.integer n)
  | float32 {bits : Nat} (h : bits < 2 ^ 32) : Fits (.float32 bits)
  | float64 {bits : Nat} (h : bits < 2 ^ 64) : Fits (.float64 bits)
  | str {bytes : List UInt8} (h : bytes.length < 2 ^ 32) : Fits (.str bytes)
  | bin {bytes : List UInt8} (h : bytes.length < 2 ^ 32) : Fits (.bin bytes)
  | array {items : List Object} (h : items.length < 2 ^ 32)
      (hitems : ∀ o ∈ items, Fits o) : Fits (.array items)
  | map {entries : List (Object × Object)} (h : entries.length < 2 ^ 32)
      (hkeys : ∀ e ∈ entries, Fits e.1) (hvalues : ∀ e ∈ entries, Fits e.2) :
      Fits (.map entries)
  | ext {type : UInt8} {bytes : List UInt8} (h : bytes.length < 2 ^ 32) :
      Fits (.ext type bytes)

theorem decodes_bigEndian {width n : Nat} (hn : n < 256 ^ width) :
    Decodes (readCount (.follows width)) (bigEndian width n) n := by
  have h := Decodes.map (Decodes.take UnpackError.insufficientBytes
    (bigEndian width n)) fromBigEndian
  rw [bigEndian_length, fromBigEndian_bigEndian hn] at h
  exact h

/-- The header announces a body of kind `mk` with length `n`. -/
def Announces (header : List UInt8) (mk : Count → Lead) (n : Nat) : Prop :=
  ∃ b rest count, header = b :: rest ∧ lead b.toNat = mk count ∧
    Decodes (readCount count) rest n

theorem announces_known {b : UInt8} {mk : Count → Lead} {n : Nat}
    (h : lead b.toNat = mk (.known n)) : Announces [b] mk n :=
  ⟨b, [], .known n, rfl, h, Decodes.pure n⟩

theorem announces_follows {b : UInt8} {mk : Count → Lead} {width n : Nat}
    (h : lead b.toNat = mk (.follows width)) (hn : n < 256 ^ width) :
    Announces (b :: bigEndian width n) mk n :=
  ⟨b, _, .follows width, rfl, h, decodes_bigEndian hn⟩

theorem announces_sizedHeader {tag8 tag16 tag32 : UInt8} {mk : Count → Lead}
    {n : Nat} (h8 : lead tag8.toNat = mk (.follows 1))
    (h16 : lead tag16.toNat = mk (.follows 2))
    (h32 : lead tag32.toNat = mk (.follows 4)) (hn : n < 2 ^ 32) :
    Announces (sizedHeader tag8 tag16 tag32 n) mk n := by
  unfold sizedHeader
  split
  · exact announces_follows h8 (by omega)
  · split
    · exact announces_follows h16 (by omega)
    · exact announces_follows h32 (by omega)

theorem toNat_ofNat_of_lt {n : Nat} (h : n < 256) : (UInt8.ofNat n).toNat = n := by
  simpa using Nat.mod_eq_of_lt h

theorem announces_packStr {n : Nat} (hn : n < 2 ^ 32) :
    Announces (packStr n) (.bytes · .str) n := by
  unfold packStr
  split
  · apply announces_known
    rw [toNat_ofNat_of_lt (by omega), lead, if_neg (by omega), if_neg (by omega),
      if_neg (by omega), if_pos (by omega), Nat.add_sub_cancel_left]
  · exact announces_sizedHeader (by rfl) (by rfl) (by rfl) hn

theorem announces_packBin {n : Nat} (hn : n < 2 ^ 32) :
    Announces (packBin n) (.bytes · .bin) n :=
  announces_sizedHeader (by rfl) (by rfl) (by rfl) hn

theorem announces_packExt {n : Nat} (hn : n < 2 ^ 32) :
    Announces (packExt n) .ext n := by
  unfold packExt
  split
  case h_6 => exact announces_sizedHeader (by rfl) (by rfl) (by rfl) hn
  all_goals exact announces_known (by rfl)

theorem announces_packArray {n : Nat} (hn : n < 2 ^ 32) :
    Announces (packArray n) .array n := by
  unfold packArray
  split
  · apply announces_known
    rw [toNat_ofNat_of_lt (by omega), lead, if_neg (by omega), if_neg (by omega),
      if_pos (by omega), Nat.add_sub_cancel_left]
  · split
    · exact announces_follows (by rfl) (by omega)
    · exact announces_follows (by rfl) (by omega)

theorem announces_packMap {n : Nat} (hn : n < 2 ^ 32) :
    Announces (packMap n) .map n := by
  unfold packMap
  split
  · apply announces_known
    rw [toNat_ofNat_of_lt (by omega), lead, if_neg (by omega), if_pos (by omega),
      Nat.add_sub_cancel_left]
  · split
    · exact announces_follows (by rfl) (by omega)
    · exact announces_follows (by rfl) (by omega)

theorem decodes_parse {fuel : Nat} {b : UInt8} {body : List UInt8} {l : Lead}
    {o : Object} (hlead : lead b.toNat = l)
    (hbody : Decodes (parseBody (parse fuel) l) body o) :
    Decodes (parse (fuel + 1)) (b :: body) o := by
  subst hlead
  exact Decodes.bind (Decodes.next UnpackError.insufficientBytes b) hbody

theorem decodes_parse_of_announces {fuel : Nat} {header contents : List UInt8}
    {mk : Count → Lead} {n : Nat} {o : Object} (h : Announces header mk n)
    (hcontents : ∀ count ws, Decodes (readCount count) ws n →
      Decodes (parseBody (parse fuel) (mk count)) (ws ++ contents) o) :
    Decodes (parse (fuel + 1)) (header ++ contents) o := by
  rcases h with ⟨b, rest, count, rfl, hlead, hcount⟩
  exact decodes_parse hlead (hcontents count rest hcount)

theorem decodes_number {fuel width n : Nat} {b : UInt8} (make : Nat → Object)
    (hlead : lead b.toNat = .number width make) (hn : n < 256 ^ width) :
    Decodes (parse (fuel + 1)) (b :: bigEndian width n) (make n) := by
  have h := Decodes.map (Decodes.take UnpackError.insufficientBytes
    (bigEndian width n)) fun bytes => make (fromBigEndian bytes)
  rw [bigEndian_length, fromBigEndian_bigEndian hn] at h
  exact decodes_parse hlead h

theorem decodes_immediate {fuel : Nat} {b : UInt8} {o : Object}
    (hlead : lead b.toNat = .immediate o) : Decodes (parse (fuel + 1)) [b] o :=
  decodes_parse hlead (Decodes.pure o)

theorem decodes_packUnsigned {fuel n : Nat} (hn : n < 2 ^ 64) :
    Decodes (parse (fuel + 1)) (packUnsigned n) (.integer n) := by
  unfold packUnsigned
  split
  · apply decodes_immediate
    rw [toNat_ofNat_of_lt (by omega), lead, if_pos (by omega)]
  split
  · exact decodes_number (fun n => .integer n) (by rfl) (by omega)
  split
  · exact decodes_number (fun n => .integer n) (by rfl) (by omega)
  split
  · exact decodes_number (fun n => .integer n) (by rfl) (by omega)
  · exact decodes_number (fun n => .integer n) (by rfl) (by omega)

theorem signed_sub {width n : Nat} (hpos : 0 < n) (hn : 2 * n ≤ 256 ^ width) :
    signed width (256 ^ width - n) = -(n : Int) := by
  unfold signed
  rw [if_neg (by omega)]
  push_cast [show n ≤ 256 ^ width by omega]
  ring

theorem decodes_signed {fuel width n : Nat} {b : UInt8}
    (hlead : lead b.toNat = .number width fun n => .integer (signed width n))
    (hpos : 0 < n) (hn : 2 * n ≤ 256 ^ width) :
    Decodes (parse (fuel + 1)) (b :: bigEndian width (256 ^ width - n))
      (.integer (-(n : Int))) := by
  have hlt : 256 ^ width - n < 256 ^ width := by omega
  rw [← signed_sub hpos hn]
  exact decodes_number (fun n => .integer (signed width n)) hlead hlt

theorem decodes_packNegative {fuel n : Nat} (hpos : 0 < n) (hn : n ≤ 2 ^ 63) :
    Decodes (parse (fuel + 1)) (packNegative n) (.integer (-(n : Int))) := by
  unfold packNegative
  split
  · apply decodes_immediate
    rw [toNat_ofNat_of_lt (by omega), lead, if_neg (by omega), if_neg (by omega),
      if_neg (by omega), if_neg (by omega), if_neg (by omega)]
    congr 2
    omega
  split
  · exact decodes_signed (by rfl) hpos (by omega)
  split
  · exact decodes_signed (by rfl) hpos (by omega)
  split
  · exact decodes_signed (by rfl) hpos (by omega)
  · exact decodes_signed (by rfl) hpos (by omega)

theorem announces_length_pos {header : List UInt8} {mk : Count → Lead} {n : Nat}
    (h : Announces header mk n) : 0 < header.length := by
  rcases h with ⟨b, rest, count, rfl, _, _⟩
  simp

theorem sizedHeader_length_pos (tag8 tag16 tag32 : UInt8) (n : Nat) :
    0 < (sizedHeader tag8 tag16 tag32 n).length := by
  unfold sizedHeader
  split
  · simp
  · split <;> simp

theorem encode_length_pos (o : Object) : 0 < (encode o).length := by
  cases o with
  | nil | bool _ | float32 _ | float64 _ => simp [encode]
  | integer n =>
      cases n with
      | ofNat n =>
          simp only [encode, packInteger, packUnsigned]
          repeat' split
          all_goals simp
      | negSucc n =>
          simp only [encode, packInteger, packNegative]
          repeat' split
          all_goals simp
  | str bytes =>
      have := sizedHeader_length_pos 0xd9 0xda 0xdb bytes.length
      simp only [encode, packStr, List.length_append]
      split
      · simp
      · omega
  | bin bytes =>
      have := sizedHeader_length_pos 0xc4 0xc5 0xc6 bytes.length
      simp only [encode, packBin, List.length_append]
      omega
  | array items =>
      simp only [encode, packArray]
      repeat' split
      all_goals simp
  | map entries =>
      simp only [encode, packMap]
      repeat' split
      all_goals simp
  | ext type bytes => simp [encode]

theorem length_le_flatMap {α : Type} {f : α → List UInt8} {xs : List α} {x : α}
    (hx : x ∈ xs) : (f x).length ≤ (xs.flatMap f).length := by
  obtain ⟨before, after, rfl⟩ := List.append_of_mem hx
  simp only [List.flatMap_append, List.flatMap_cons, List.length_append]
  omega

/-- What the induction below proves of the objects inside a container, for the
parser that the container runs on them. -/
theorem decodes_inner {o : Object} {fuel : Nat}
    (ih : ∀ fuel, (encode o).length ≤ fuel + 1 →
      Decodes (parse (fuel + 1)) (encode o) o)
    (hfuel : (encode o).length ≤ fuel) : Decodes (parse fuel) (encode o) o := by
  obtain ⟨k, rfl⟩ : ∃ k, fuel = k + 1 :=
    Nat.exists_eq_succ_of_ne_zero (by have := encode_length_pos o; omega)
  exact ih k hfuel

theorem decodes_bytes {fuel : Nat} {header bytes : List UInt8}
    {make : List UInt8 → Object}
    (h : Announces header (.bytes · make) bytes.length) :
    Decodes (parse (fuel + 1)) (header ++ bytes) (make bytes) :=
  decodes_parse_of_announces h fun _ _ hcount =>
    Decodes.bind hcount (Decodes.map (Decodes.take _ bytes) make)

/-- The packed form of an object is a code word of it for every parser with
enough fuel. The induction is on the nesting of the object; the fuel shrinks
with it because every header takes a byte. -/
theorem decodes_encode {o : Object} (ho : Fits o) :
    ∀ fuel, (encode o).length ≤ fuel + 1 →
      Decodes (parse (fuel + 1)) (encode o) o := by
  induction ho with
  | nil =>
      intro fuel _
      exact decodes_immediate (by rfl)
  | bool b =>
      intro fuel _
      cases b <;> exact decodes_immediate (by rfl)
  | @integer n hlow hhigh =>
      intro fuel _
      cases n with
      | ofNat n => exact decodes_packUnsigned (by simpa using hhigh)
      | negSucc n => exact decodes_packNegative (by omega) (by omega)
  | float32 h =>
      intro fuel _
      exact decodes_number .float32 (by rfl) h
  | float64 h =>
      intro fuel _
      exact decodes_number .float64 (by rfl) h
  | str h =>
      intro fuel _
      exact decodes_bytes (announces_packStr h)
  | bin h =>
      intro fuel _
      exact decodes_bytes (announces_packBin h)
  | @ext type bytes h =>
      intro fuel _
      exact decodes_parse_of_announces (announces_packExt h) fun _ _ hcount =>
        Decodes.bind hcount (Decodes.bind (Decodes.next _ type)
          (Decodes.map (Decodes.take _ bytes) (Object.ext type)))
  | @array items h _ ih =>
      intro fuel hfuel
      have hheader := announces_packArray h
      rw [encode, encodeItems_eq_flatMap] at hfuel ⊢
      refine decodes_parse_of_announces hheader fun _ _ hcount =>
        Decodes.bind hcount (Decodes.map (Decodes.times fun o ho => ?_) Object.array)
      refine decodes_inner (ih o ho) ?_
      have hlen := length_le_flatMap (f := encode) ho
      have hpos := announces_length_pos hheader
      rw [List.length_append] at hfuel
      omega
  | @map entries h _ _ ihkeys ihvalues =>
      intro fuel hfuel
      have hheader := announces_packMap h
      rw [encode, encodeEntries_eq_flatMap] at hfuel ⊢
      refine decodes_parse_of_announces hheader fun _ _ hcount =>
        Decodes.bind hcount (Decodes.map (Decodes.times fun e he => ?_) Object.map)
      have hlen := length_le_flatMap (f := fun e => encode e.1 ++ encode e.2) he
      have hpos := announces_length_pos hheader
      rw [List.length_append] at hfuel hlen
      exact Decodes.both (decodes_inner (ihkeys e he) (by omega))
        (decodes_inner (ihvalues e he) (by omega))

theorem unpack_encode_append {o : Object} (ho : Fits o) (rest : List UInt8) :
    unpack (encode o ++ rest) = .ok o := by
  have hpos := encode_length_pos o
  obtain ⟨k, hk⟩ : ∃ k, (encode o ++ rest).length = k + 1 :=
    Nat.exists_eq_succ_of_ne_zero (by rw [List.length_append]; omega)
  have hlen : (encode o).length ≤ k + 1 := by
    rw [← hk, List.length_append]
    omega
  have hparse := decodes_encode ho k hlen rest
  simp only [unpack, hk, StateT.run', hparse]
  rfl

/-- A part of a packed object lacks bytes, whatever the object is. -/
theorem unpack_of_prefix {o : Object} (ho : Fits o) {part : List UInt8}
    (hpart : part <+: encode o) (hne : part ≠ encode o) :
    unpack part = .error .insufficientBytes := by
  have hle := hpart.length_le
  have hwhole := decodes_encode ho (encode o).length (Nat.le_succ _)
  have hshort := hwhole.short_of_prefix (continues_parse (Nat.le_succ_of_le hle))
    (persists_parse (Nat.le_succ_of_le hle)) hpart hne
  rw [unpack, StateT.run', hshort]
  rfl

end Dpaste.MessagePackRoundTrip
