import Dpaste.CipherSelection
import Dpaste.FixedWidthNumerals
import Mathlib.Data.List.Infix

/-!
Pins and URIs: how `random_pin` writes a number and how the code is found in a
URI and cut into location code and password.
-/

namespace Dpaste.LocationCodes

open Dpaste.EffectTraces
open Dpaste.LibraryInterfaces
open Dpaste.FixedWidthNumerals

def DPASTE_PIN_LEN : Nat := 8

def DPASTE_URI_PREFIX : Text := "dpaste:".toList

/-- The text of a pin: at least eight hexadecimal digits, in upper case. -/
def pinText (pin : UInt32) : Text :=
  ((Nat.toDigits 16 pin.toNat).leftpad DPASTE_PIN_LEN '0').map Char.toUpper

/-- `random_pin`: what the generator draws, as text. -/
def randomPin {σ : Type} (draw : σ → UInt32 × σ) : Code σ Text := do
  let pin ← access draw
  pure (pinText pin)

/-- `std::string::find`: where the first occurrence of `pattern` starts. -/
def find (text pattern : Text) : Option Nat :=
  text.tails.findIdx? (pattern.isPrefixOf ·)

def substr (text : Text) (pos : Nat) : Except Exn Text :=
  if pos ≤ text.length then .ok (text.drop pos) else .error .outOfRange

def codeFromDpasteUri (uri : Text) : Except Exn Text :=
  match find uri DPASTE_URI_PREFIX with
  | some p => substr uri (p + DPASTE_URI_PREFIX.length)
  | none => substr uri 0

def IsHex (text : Text) : Prop := ∀ c ∈ text, c ∈ "0123456789ABCDEF".toList

theorem isHex_nil : IsHex [] := fun _ hc => absurd hc List.not_mem_nil

theorem isHex_append {s t : Text} (hs : IsHex s) (ht : IsHex t) : IsHex (s ++ t) := by
  intro c hc
  rcases List.mem_append.mp hc with hc | hc
  · exact hs c hc
  · exact ht c hc

theorem pinText_eq_numeral (pin : UInt32) :
    pinText pin =
      (numeral 16 DPASTE_PIN_LEN pin.toNat).map fun d => (Nat.digitChar d).toUpper := by
  have hpin : pin.toNat < 16 ^ DPASTE_PIN_LEN := pin.toNat_lt
  rw [pinText, leftpad_toDigits (by decide) (by decide) hpin, List.map_map]
  rfl

@[simp] theorem pinText_length (pin : UInt32) : (pinText pin).length = 8 := by
  simp [pinText_eq_numeral, DPASTE_PIN_LEN]

theorem isHex_pinText (pin : UInt32) : IsHex (pinText pin) := by
  intro c hc
  rw [pinText_eq_numeral] at hc
  obtain ⟨d, hd, rfl⟩ := List.mem_map.mp hc
  have hdigits : ∀ d < 16, (Nat.digitChar d).toUpper ∈ "0123456789ABCDEF".toList := by
    decide
  exact hdigits d (digit_lt_of_mem_numeral (by decide) hd)

theorem find_append_self (pattern text : Text) :
    find (pattern ++ text) pattern = some 0 := by
  have hprefix : pattern.isPrefixOf (pattern ++ text) = true := by simp
  cases h : pattern ++ text with
  | nil => simpa [find, h] using hprefix
  | cons c cs =>
      rw [h] at hprefix
      simp [find, List.findIdx?_cons, hprefix]

theorem find_eq_none {text pattern : Text} {c : Char} (hc : c ∉ text) :
    find text (c :: pattern) = none := by
  rw [find, List.findIdx?_eq_none_iff]
  intro suffix hsuffix
  by_contra hprefix
  have hprefix : c :: pattern <+: suffix := by simpa using hprefix
  have hmem : c ∈ suffix := hprefix.subset List.mem_cons_self
  exact hc (((List.mem_tails _ _).mp hsuffix).subset hmem)

theorem find_add_length_le {text pattern : Text} {p : Nat} (h : find text pattern = some p) :
    p + pattern.length ≤ text.length := by
  obtain ⟨hp, hfound, _⟩ := List.findIdx?_eq_some_iff_getElem.mp h
  rw [List.length_tails] at hp
  have hprefix : pattern <+: text.drop p := by simpa using hfound
  have hlen := hprefix.length_le
  rw [List.length_drop] at hlen
  omega

theorem codeFromDpasteUri_total (uri : Text) : ∃ code, codeFromDpasteUri uri = .ok code := by
  cases h : find uri DPASTE_URI_PREFIX with
  | none => exact ⟨_, by simp [codeFromDpasteUri, h, substr]; rfl⟩
  | some p => exact ⟨_, by simp [codeFromDpasteUri, h, substr, find_add_length_le h]; rfl⟩

@[simp] theorem uriPrefix_ne_nil : DPASTE_URI_PREFIX ≠ [] := by decide

theorem uri_ne_nil (code pwd : Text) : DPASTE_URI_PREFIX ++ code ++ pwd ≠ [] := by
  simp

theorem codeFromDpasteUri_append (code : Text) :
    codeFromDpasteUri (DPASTE_URI_PREFIX ++ code) = .ok code := by
  simp [codeFromDpasteUri, find_append_self, substr]

theorem codeFromDpasteUri_of_isHex {code : Text} (h : IsHex code) :
    codeFromDpasteUri code = .ok code := by
  have hnone : find code DPASTE_URI_PREFIX = none := by
    apply find_eq_none
    intro hd
    exact absurd (h 'd' hd) (by decide)
  simp [codeFromDpasteUri, hnone, substr]

end Dpaste.LocationCodes
