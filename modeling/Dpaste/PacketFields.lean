import Dpaste.GetAnswers
import Mathlib.Data.List.Nodup

/-!
Which entries of a map decide what a packet is decoded to: the first one under each of the
two keys that `deserialize` names.
-/

namespace Dpaste.PacketFields

open Dpaste.LibraryInterfaces
open Dpaste.MessagePackFormat
open Dpaste.MessagePackRoundTrip
open Dpaste.PacketEncoding
open Dpaste.GetAnswers

variable {entries entries' : List (Object × Object)} {key : Text} {v : Object}

section Matches

/-- An element that is the only match of a list is found wherever it stands. -/
theorem find?_eq_of_perm {α : Type*} {p : α → Bool} {l l' : List α} (hperm : l.Perm l')
    (hunique : ∀ x ∈ l, ∀ y ∈ l, p x = true → p y = true → x = y) : l.find? p = l'.find? p := by
  cases h : l.find? p with
  | none =>
      symm
      rw [List.find?_eq_none] at h ⊢
      intro x hx
      exact h x (hperm.mem_iff.mpr hx)
  | some x =>
      have hx := List.mem_of_find?_eq_some h
      cases h' : l'.find? p with
      | none =>
          exact absurd (List.find?_some h) (List.find?_eq_none.mp h' x (hperm.mem_iff.mp hx))
      | some y =>
          have hy := hperm.mem_iff.mpr (List.mem_of_find?_eq_some h')
          rw [hunique x hx y hy (List.find?_some h) (List.find?_some h')]

end Matches

section Entries

/-- The entry stands under a string key. -/
def hasKey (key : Text) : Object × Object → Bool
  | (.str k, _) => k = asciiBytes key
  | _ => false

theorem hasKey_iff {entry : Object × Object} :
    hasKey key entry = true ↔ entry.1 = .str (asciiBytes key) := by
  obtain ⟨k, v⟩ := entry
  cases k <;> simp [hasKey]

theorem findEntry_eq_find? (key : Text) (entries : List (Object × Object)) :
    findEntry (asciiBytes key) entries = (entries.find? (hasKey key)).map (·.2) := by
  induction entries with
  | nil => rfl
  | cons entry entries ih =>
      obtain ⟨k, v⟩ := entry
      rw [List.find?_cons]
      cases k with
      | str k =>
          by_cases hk : k = asciiBytes key
          · simp [findEntry, hasKey, hk]
          · simp [findEntry, hasKey, hk, ih]
      | _ => simpa [findEntry, hasKey] using ih

/-- The value of the first entry under a string key. -/
def First (key : Text) (entries : List (Object × Object)) (v : Object) : Prop :=
  ∃ before after, entries = before ++ (.str (asciiBytes key), v) :: after ∧
    ∀ entry ∈ before, entry.1 ≠ .str (asciiBytes key)

def Absent (key : Text) (entries : List (Object × Object)) : Prop :=
  ∀ entry ∈ entries, entry.1 ≠ .str (asciiBytes key)

theorem findEntry_eq_some_iff :
    findEntry (asciiBytes key) entries = some v ↔ First key entries v := by
  rw [findEntry_eq_find?, Option.map_eq_some_iff]
  constructor
  · rintro ⟨⟨k, v⟩, hfind, rfl⟩
    obtain ⟨hkey, before, after, rfl, hbefore⟩ := List.find?_eq_some_iff_append.mp hfind
    obtain rfl : k = .str (asciiBytes key) := hasKey_iff.mp hkey
    refine ⟨before, after, rfl, ?_⟩
    intro entry hentry hkey'
    simpa [hasKey_iff.mpr hkey'] using hbefore entry hentry
  · rintro ⟨before, after, rfl, hbefore⟩
    refine ⟨(.str (asciiBytes key), v), List.find?_eq_some_iff_append.mpr ?_, rfl⟩
    refine ⟨hasKey_iff.mpr rfl, before, after, rfl, ?_⟩
    intro entry hentry
    have hother := mt hasKey_iff.mp (hbefore entry hentry)
    simpa using hother

theorem findEntry_eq_none_iff :
    findEntry (asciiBytes key) entries = none ↔ Absent key entries := by
  rw [findEntry_eq_find?, Option.map_eq_none_iff, List.find?_eq_none]
  exact forall₂_congr fun _ _ => not_congr hasKey_iff

end Entries

section Fields

/-- What a field is read as: the bytes of the first entry under its key, or no bytes without
such an entry. -/
inductive FieldBytes (key : Text) (entries : List (Object × Object)) : Blob → Prop
  | absent (h : Absent key entries) : FieldBytes key entries []
  | bin {bytes : Blob} (h : First key entries (.bin bytes)) : FieldBytes key entries bytes
  | str {bytes : Blob} (h : First key entries (.str bytes)) : FieldBytes key entries bytes

theorem convert_eq_ok_iff {bytes : Blob} :
    convert v = .ok bytes ↔ v = .bin bytes ∨ v = .str bytes := by
  cases v <;> simp [convert]

theorem readField_eq_ok_iff {bytes : Blob} :
    readField (.map entries) key = .ok bytes ↔ FieldBytes key entries bytes := by
  rw [readField_map]
  constructor
  · intro h
    cases hfound : findEntry (asciiBytes key) entries with
    | none =>
        rw [hfound] at h
        obtain rfl := Except.ok.inj h
        exact .absent (findEntry_eq_none_iff.mp hfound)
    | some v =>
        rw [hfound] at h
        rcases convert_eq_ok_iff.mp h with rfl | rfl
        · exact .bin (findEntry_eq_some_iff.mp hfound)
        · exact .str (findEntry_eq_some_iff.mp hfound)
  · intro h
    cases h with
    | absent h => rw [findEntry_eq_none_iff.mpr h]
    | bin h =>
        rw [findEntry_eq_some_iff.mpr h]
        rfl
    | str h =>
        rw [findEntry_eq_some_iff.mpr h]
        rfl

theorem unreadable_iff {object : Object} :
    Unreadable object key ↔ (∀ entries, object ≠ .map entries) ∨
      ∃ entries v, object = .map entries ∧ First key entries v ∧
        ∀ bytes, v ≠ .bin bytes ∧ v ≠ .str bytes := by
  simp only [Unreadable, findEntry_eq_some_iff]

def fieldKeys : List Text := ["data".toList, "signature".toList]

theorem data_mem_fieldKeys : "data".toList ∈ fieldKeys := List.mem_cons_self

theorem signature_mem_fieldKeys : "signature".toList ∈ fieldKeys :=
  List.mem_cons_of_mem _ (List.mem_singleton_self _)

/-- Entries under other keys have been inserted, at any places. -/
inductive Extended (entries : List (Object × Object)) : List (Object × Object) → Prop
  | refl : Extended entries entries
  | insert {before after : List (Object × Object)} {entry : Object × Object}
      (h : Extended entries (before ++ after))
      (hentry : ∀ key ∈ fieldKeys, entry.1 ≠ .str (asciiBytes key)) :
      Extended entries (before ++ entry :: after)

theorem findEntry_of_extended (h : Extended entries entries') (hkey : key ∈ fieldKeys) :
    findEntry (asciiBytes key) entries' = findEntry (asciiBytes key) entries := by
  induction h with
  | refl => rfl
  | insert _ hentry ih =>
      have hother := mt hasKey_iff.mp (hentry key hkey)
      rw [← ih, findEntry_eq_find?, findEntry_eq_find?, List.find?_append, List.find?_append,
        List.find?_cons_of_neg hother]

theorem findEntry_of_perm (hperm : entries.Perm entries') (hnodup : (entries.map (·.1)).Nodup)
    (key : Text) :
    findEntry (asciiBytes key) entries' = findEntry (asciiBytes key) entries := by
  rw [findEntry_eq_find?, findEntry_eq_find?, find?_eq_of_perm hperm]
  intro x hx y hy hxkey hykey
  exact List.inj_on_of_nodup_map hnodup hx hy
    ((hasKey_iff.mp hxkey).trans (hasKey_iff.mp hykey).symm)

end Fields

section Decoding

variable {q : Packet} {pbuffer pbuffer' : Blob} {object : Object}

theorem deserialize_eq_ok_iff {p : Packet} (hunpack : unpack pbuffer = .ok (.map entries)) :
    q.deserialize pbuffer = (p, .ok ()) ↔
      FieldBytes "data".toList entries p.data ∧
        FieldBytes "signature".toList entries p.signature := by
  rw [← readField_eq_ok_iff, ← readField_eq_ok_iff]
  obtain ⟨data, signature⟩ := p
  simp only [Packet.deserialize, hunpack]
  cases hdata : readField (.map entries) "data".toList with
  | error e => simp
  | ok d =>
      cases hsignature : readField (.map entries) "signature".toList with
      | error e => simp
      | ok sig => simp

theorem deserialize_eq_error_iff {e : Exn} (hunpack : unpack pbuffer = .ok object) :
    (q.deserialize pbuffer).2 = .error e ↔
      e = .typeError ∧ ∃ key ∈ fieldKeys, Unreadable object key := by
  have hkeys (P : Text → Prop) :
      (∃ key ∈ fieldKeys, P key) ↔ P "data".toList ∨ P "signature".toList := by
    simp [fieldKeys]
  rw [hkeys, and_or_left, ← readField_eq_error_iff, ← readField_eq_error_iff]
  simp only [Packet.deserialize, hunpack]
  cases hdata : readField object "data".toList with
  | error x =>
      have hx := (readField_eq_error_iff.mp hdata).1
      change (Except.error x : Except Exn Unit) = .error e ↔ _
      rw [Except.error.injEq, Except.error.injEq]
      constructor
      · exact .inl
      · rintro (h | h)
        · exact h
        · rw [hx, (readField_eq_error_iff.mp h).1]
  | ok d =>
      cases hsignature : readField object "signature".toList with
      | error y => simp
      | ok sig => simp

theorem deserialize_congr (hunpack : unpack pbuffer = .ok (.map entries))
    (hunpack' : unpack pbuffer' = .ok (.map entries'))
    (h : ∀ key ∈ fieldKeys,
      findEntry (asciiBytes key) entries' = findEntry (asciiBytes key) entries) :
    q.deserialize pbuffer' = q.deserialize pbuffer := by
  have hdata := h "data".toList data_mem_fieldKeys
  have hsignature := h "signature".toList signature_mem_fieldKeys
  simp only [Packet.deserialize, hunpack, hunpack', readField_map, hdata, hsignature]

/-- The entries of a packet's map, and any others under other keys, are decoded to the
packet. -/
theorem deserialize_of_extended {p : Packet} {own : List (Object × Object)}
    (hown : packetObject p = .map own) (hextended : Extended own entries)
    (hunpack : unpack pbuffer = .ok (.map entries)) : q.deserialize pbuffer = (p, .ok ()) := by
  rw [deserialize_eq_ok_iff hunpack, ← readField_eq_ok_iff, ← readField_eq_ok_iff, readField_map,
    readField_map, findEntry_of_extended hextended data_mem_fieldKeys,
    findEntry_of_extended hextended signature_mem_fieldKeys, ← Object.map.inj hown]
  exact ⟨rfl, rfl⟩

theorem deserialize_eq_error_iff_first {e : Exn} (hunpack : unpack pbuffer = .ok object) :
    (q.deserialize pbuffer).2 = .error e ↔ e = .typeError ∧
      ((∀ entries, object ≠ .map entries) ∨
        ∃ entries key v, object = .map entries ∧ key ∈ fieldKeys ∧ First key entries v ∧
          ∀ bytes, v ≠ .bin bytes ∧ v ≠ .str bytes) := by
  rw [deserialize_eq_error_iff hunpack]
  refine and_congr_right fun _ => ?_
  simp only [unreadable_iff]
  constructor
  · rintro ⟨key, hkey, h | ⟨entries, v, hobject, hfirst, hv⟩⟩
    · exact .inl h
    · exact .inr ⟨entries, key, v, hobject, hkey, hfirst, hv⟩
  · rintro (h | ⟨entries, key, v, hobject, hkey, hfirst, hv⟩)
    · exact ⟨"data".toList, data_mem_fieldKeys, .inl h⟩
    · exact ⟨key, hkey, .inr ⟨entries, v, hobject, hfirst, hv⟩⟩

theorem deserialize_map_eq_error_iff {e : Exn} (hunpack : unpack pbuffer = .ok (.map entries)) :
    (q.deserialize pbuffer).2 = .error e ↔ e = .typeError ∧
      ∃ key v, key ∈ fieldKeys ∧ First key entries v ∧
        ∀ bytes, v ≠ .bin bytes ∧ v ≠ .str bytes := by
  rw [deserialize_eq_error_iff_first hunpack]
  refine and_congr_right fun _ => ?_
  constructor
  · rintro (h | ⟨entries', key, v, hentries, h⟩)
    · exact absurd rfl (h entries)
    · obtain rfl := Object.map.inj hentries
      exact ⟨key, v, h⟩
  · rintro ⟨key, v, h⟩
    exact .inr ⟨entries, key, v, rfl, h⟩

/-- Decoding a map depends on the first entry under each of the two keys only: these give
the two fields, or the type error. Neither the bytes after the map, nor entries under other
keys, nor the order of entries with different keys matter, so that the packets of a version
with more fields are decoded to the fields that are known. The form of every map that has
one, with any bytes after it, is decoded in this way. -/
theorem packet_fields (q : Packet) (pbuffer : Blob) :
    (∀ entries, unpack pbuffer = .ok (.map entries) → ∀ data signature,
        q.deserialize pbuffer = (⟨data, signature⟩, .ok ()) ↔
          FieldBytes "data".toList entries data ∧
            FieldBytes "signature".toList entries signature) ∧
      (∀ object, unpack pbuffer = .ok object →
        (∀ e, (q.deserialize pbuffer).2 = .error e ↔ e = .typeError ∧
          ((∀ entries, object ≠ .map entries) ∨
            ∃ entries key v, object = .map entries ∧ key ∈ fieldKeys ∧ First key entries v ∧
              ∀ bytes, v ≠ .bin bytes ∧ v ≠ .str bytes)) ∧
        ∀ rest, q.deserialize (pbuffer ++ rest) = q.deserialize pbuffer) ∧
      (∀ pbuffer' entries entries', unpack pbuffer = .ok (.map entries) →
        unpack pbuffer' = .ok (.map entries') →
        Extended entries entries' ∨ entries.Perm entries' ∧ (entries.map (·.1)).Nodup →
        q.deserialize pbuffer' = q.deserialize pbuffer) ∧
      (∀ p own entries, packetObject p = .map own → Extended own entries →
        unpack pbuffer = .ok (.map entries) → q.deserialize pbuffer = (p, .ok ())) ∧
      ∀ entries rest, Fits (.map entries) →
        (∀ data signature,
          q.deserialize (encode (.map entries) ++ rest) = (⟨data, signature⟩, .ok ()) ↔
            FieldBytes "data".toList entries data ∧
              FieldBytes "signature".toList entries signature) ∧
        ∀ e, (q.deserialize (encode (.map entries) ++ rest)).2 = .error e ↔ e = .typeError ∧
          ∃ key v, key ∈ fieldKeys ∧ First key entries v ∧
            ∀ bytes, v ≠ .bin bytes ∧ v ≠ .str bytes := by
  refine ⟨?_, ?_, ?_, ?_, ?_⟩
  · intro entries hunpack data signature
    exact deserialize_eq_ok_iff hunpack
  · intro object hunpack
    constructor
    · intro e
      exact deserialize_eq_error_iff_first hunpack
    · intro rest
      simp only [Packet.deserialize, hunpack, unpack_append hunpack]
  · rintro pbuffer' entries entries' hunpack hunpack' (hextended | ⟨hperm, hnodup⟩)
    · exact deserialize_congr hunpack hunpack' fun key hkey =>
        findEntry_of_extended hextended hkey
    · exact deserialize_congr hunpack hunpack' fun key _ => findEntry_of_perm hperm hnodup key
  · intro p own entries hown hextended hunpack
    exact deserialize_of_extended hown hextended hunpack
  · intro entries rest hfits
    have hunpack := unpack_encode_append hfits rest
    constructor
    · intro data signature
      exact deserialize_eq_ok_iff hunpack
    · intro e
      exact deserialize_map_eq_error_iff hunpack

/-- A map with an integer key, with the bytes of a known key that are no string, and with two
entries under that key. -/
def sampleEntries : List (Object × Object) :=
  [(.integer 7, .nil), (.bin (asciiBytes "data".toList), .str [0x00]),
    (.str (asciiBytes "data".toList), .bin [0x61]),
    (.str (asciiBytes "data".toList), .integer 1)]

theorem fits_sampleEntries : Fits (.map sampleEntries) := by
  refine .map (by decide) ?_ ?_
  · simp only [sampleEntries, List.forall_mem_cons, List.not_mem_nil, false_implies,
      implies_true, and_true]
    exact ⟨.integer (by decide) (by decide), .bin (by decide), .str (by decide),
      .str (by decide)⟩
  · simp only [sampleEntries, List.forall_mem_cons, List.not_mem_nil, false_implies,
      implies_true, and_true]
    exact ⟨.nil, .str (by decide), .bin (by decide), .integer (by decide) (by decide)⟩

/-- The first entry under the key counts, and a field without an entry is emptied. -/
theorem packet_fields_sample :
    ({ data := [0xff], signature := [0xff] } : Packet).deserialize
        (encode (.map sampleEntries) ++ [0xc1]) = (⟨[0x61], []⟩, .ok ()) := by
  obtain ⟨-, -, -, -, h⟩ := packet_fields { data := [0xff], signature := [0xff] } []
  refine ((h sampleEntries [0xc1] fits_sampleEntries).1 [0x61] []).mpr ⟨?_, ?_⟩
  · refine .bin ⟨[(.integer 7, .nil), (.bin (asciiBytes "data".toList), .str [0x00])],
      [(.str (asciiBytes "data".toList), .integer 1)], rfl, ?_⟩
    simp
  · refine .absent ?_
    simp [Absent, sampleEntries, asciiBytes]

end Decoding

end Dpaste.PacketFields
