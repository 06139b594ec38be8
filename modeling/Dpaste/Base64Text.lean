import Mathlib.Data.List.GetD
import Mathlib.Data.List.Infix

/-!
Base64: the standard encoding, and a decoder that looks at the letters of a text only,
skips every other character, padding included, and drops the bits that fill no byte.
-/

namespace Dpaste.Base64Text

def alphabet : List Char :=
  "ABCDEFGHIJKLMNOPQRSTUVWXYZabcdefghijklmnopqrstuvwxyz0123456789+/".toList

def letter (n : Nat) : Char := alphabet.getD n 'A'

/-- The number of a letter. Other characters have none. -/
def sixBits (c : Char) : Option Nat := alphabet.findIdx? (c == ·)

def letters (text : List Char) : List Nat := text.filterMap sixBits

/-- Four letters make three bytes. The rest of a group makes one byte less than it has
letters. -/
def decodeLetters : List Nat → List UInt8
  | a :: b :: c :: d :: rest =>
      UInt8.ofNat (a * 4 + b / 16) :: UInt8.ofNat (b % 16 * 16 + c / 4) ::
        UInt8.ofNat (c % 4 * 64 + d) :: decodeLetters rest
  | [a, b, c] => [UInt8.ofNat (a * 4 + b / 16), UInt8.ofNat (b % 16 * 16 + c / 4)]
  | [a, b] => [UInt8.ofNat (a * 4 + b / 16)]
  | [_] => []
  | [] => []

def decode (text : List Char) : List UInt8 := decodeLetters (letters text)

def encode : List UInt8 → List Char
  | x :: y :: z :: rest =>
      letter (x.toNat / 4) :: letter (x.toNat % 4 * 16 + y.toNat / 16) ::
        letter (y.toNat % 16 * 4 + z.toNat / 64) :: letter (z.toNat % 64) :: encode rest
  | [x, y] =>
      [letter (x.toNat / 4), letter (x.toNat % 4 * 16 + y.toNat / 16),
        letter (y.toNat % 16 * 4), '=']
  | [x] => [letter (x.toNat / 4), letter (x.toNat % 4 * 16), '=', '=']
  | [] => []

theorem alphabet_eq : alphabet =
    ['A', 'B', 'C', 'D', 'E', 'F', 'G', 'H', 'I', 'J', 'K', 'L', 'M', 'N', 'O', 'P',
      'Q', 'R', 'S', 'T', 'U', 'V', 'W', 'X', 'Y', 'Z', 'a', 'b', 'c', 'd', 'e', 'f',
      'g', 'h', 'i', 'j', 'k', 'l', 'm', 'n', 'o', 'p', 'q', 'r', 's', 't', 'u', 'v',
      'w', 'x', 'y', 'z', '0', '1', '2', '3', '4', '5', '6', '7', '8', '9', '+', '/'] := by
  decide +kernel

theorem alphabet_length : alphabet.length = 64 := by
  rw [alphabet_eq]
  rfl

theorem sixBits_letter {n : Nat} (hn : n < 64) : sixBits (letter n) = some n := by
  have hletters : ∀ n < 64, sixBits (letter n) = some n := by
    unfold sixBits letter
    rw [alphabet_eq]
    decide +kernel
  exact hletters n hn

theorem letter_mem_alphabet (n : Nat) : letter n ∈ alphabet := by
  by_cases hn : n < alphabet.length
  · rw [letter, List.getD_eq_getElem _ _ hn]
    exact List.getElem_mem hn
  · rw [letter, List.getD_eq_default _ _ (not_lt.mp hn), alphabet_eq]
    exact List.mem_cons_self

theorem sixBits_eq_none_iff {c : Char} : sixBits c = none ↔ c ∉ alphabet := by
  rw [sixBits, List.findIdx?_eq_none_iff]
  constructor
  · intro h hc
    simpa using h c hc
  · intro h x hx
    rw [beq_eq_false_iff_ne]
    rintro rfl
    exact h hx

theorem sixBits_lt {c : Char} {n : Nat} (h : sixBits c = some n) : n < 64 := by
  obtain ⟨hn, _⟩ := List.findIdx?_eq_some_iff_getElem.mp h
  rwa [alphabet_length] at hn

theorem lt_of_mem_letters {text : List Char} {n : Nat} (h : n ∈ letters text) : n < 64 := by
  obtain ⟨c, _, hc⟩ := List.mem_filterMap.mp h
  exact sixBits_lt hc

@[simp] theorem letters_nil : letters [] = [] := rfl

@[simp] theorem letters_append (s t : List Char) :
    letters (s ++ t) = letters s ++ letters t := List.filterMap_append

theorem letters_cons_letter {n : Nat} (hn : n < 64) (text : List Char) :
    letters (letter n :: text) = n :: letters text :=
  List.filterMap_cons_some (sixBits_letter hn)

theorem letters_cons_of_none {c : Char} (hc : sixBits c = none) (text : List Char) :
    letters (c :: text) = letters text := List.filterMap_cons_none hc

theorem decodeLetters_length (l : List Nat) : (decodeLetters l).length = l.length * 3 / 4 := by
  induction l using decodeLetters.induct with
  | case1 a b c d rest ih =>
      simp only [decodeLetters, List.length_cons, ih]
      omega
  | case2 | case3 | case4 | case5 => simp [decodeLetters]

theorem decodeLetters_append {l : List Nat} (h : 4 ∣ l.length) (m : List Nat) :
    decodeLetters (l ++ m) = decodeLetters l ++ decodeLetters m := by
  induction l using decodeLetters.induct with
  | case1 a b c d rest ih =>
      simp only [List.length_cons] at h
      simp only [List.cons_append, decodeLetters, ih (by omega)]
  | case2 | case3 | case4 =>
      simp only [List.length_cons, List.length_nil] at h
      omega
  | case5 => rfl

theorem ofNat_inj {m n : Nat} (hm : m < 256) (hn : n < 256)
    (h : UInt8.ofNat m = UInt8.ofNat n) : m = n := by
  have htoNat := congrArg UInt8.toNat h
  simpa [Nat.mod_eq_of_lt hm, Nat.mod_eq_of_lt hn] using htoNat

/-- Full groups of letters decode to different bytes when they differ. -/
theorem decodeLetters_inj {l m : List Nat} (hl : ∀ n ∈ l, n < 64) (hm : ∀ n ∈ m, n < 64)
    (hlen : l.length = m.length) (hfull : 4 ∣ l.length)
    (h : decodeLetters l = decodeLetters m) : l = m := by
  induction l using decodeLetters.induct generalizing m with
  | case1 a b c d rest ih =>
      match m, hlen with
      | a' :: b' :: c' :: d' :: rest', hlen =>
          simp only [decodeLetters, List.cons.injEq] at h
          simp only [List.forall_mem_cons] at hl hm
          simp only [List.length_cons] at hlen hfull
          obtain ⟨h₁, h₂, h₃, hrest⟩ := h
          have hrest := ih hl.2.2.2.2 hm.2.2.2.2 (by omega) (by omega) hrest
          have e₁ := ofNat_inj (by omega) (by omega) h₁
          have e₂ := ofNat_inj (by omega) (by omega) h₂
          have e₃ := ofNat_inj (by omega) (by omega) h₃
          obtain rfl : a = a' := by omega
          obtain rfl : b = b' := by omega
          obtain rfl : c = c' := by omega
          obtain rfl : d = d' := by omega
          rw [hrest]
  | case2 | case3 | case4 =>
      simp only [List.length_cons, List.length_nil] at hfull
      omega
  | case5 => exact (List.eq_nil_of_length_eq_zero hlen.symm).symm

/-- A text shifted by one place is itself only if it repeats one element. -/
theorem dropLast_cons_eq_iff {α : Type*} {x : α} {l : List α} :
    (x :: l).dropLast = l ↔ ∀ y ∈ l, y = x := by
  induction l generalizing x with
  | nil => simp
  | cons y l ih =>
      rw [List.dropLast_cons_of_ne_nil (List.cons_ne_nil y l), List.cons.injEq,
        List.forall_mem_cons, eq_comm]
      apply and_congr_right
      rintro rfl
      exact ih

/-- One letter too many in front of `m` drives the last letter out of the full groups. -/
theorem decodeLetters_insert (l m : List Nat) (x : Nat) (hfull : 4 ∣ (l ++ m).length) :
    decodeLetters (l ++ [x] ++ m) = decodeLetters (l ++ (x :: m).dropLast) := by
  have hne : x :: m ≠ [] := List.cons_ne_nil x m
  have hsplit : l ++ [x] ++ m =
      l ++ (x :: m).dropLast ++ [(x :: m).getLast hne] := by
    rw [List.append_assoc l (x :: m).dropLast, List.dropLast_append_getLast hne]
    simp
  have hlen : (l ++ (x :: m).dropLast).length = (l ++ m).length := by simp
  rw [hsplit, decodeLetters_append (by rwa [hlen])]
  simp [decodeLetters]

/-- Additional letters in the middle change what is decoded, unless it is one letter, which
repeats itself to the end of full groups. -/
theorem decodeLetters_insert_iff {l m added : List Nat} (hl : ∀ n ∈ l, n < 64)
    (hm : ∀ n ∈ m, n < 64) (hadded : ∀ n ∈ added, n < 64) (hne : added ≠ []) :
    decodeLetters (l ++ added ++ m) = decodeLetters (l ++ m) ↔
      ∃ x, added = [x] ∧ 4 ∣ (l ++ m).length ∧ ∀ y ∈ m, y = x := by
  have hpos := List.length_pos_iff.mpr hne
  constructor
  · intro h
    have hlen := congrArg List.length h
    simp only [decodeLetters_length, List.length_append] at hlen
    obtain ⟨x, rfl⟩ : ∃ x, added = [x] := List.length_eq_one_iff.mp (by omega)
    have hfull : 4 ∣ (l ++ m).length := by
      rw [List.length_append]
      simp only [List.length_singleton] at hlen
      omega
    refine ⟨x, rfl, hfull, ?_⟩
    rw [decodeLetters_insert l m x hfull] at h
    have hshift : l ++ (x :: m).dropLast = l ++ m := by
      refine decodeLetters_inj ?_ ?_ (by simp) (by simpa using hfull) h
      · intro n hn
        rcases List.mem_append.mp hn with hn | hn
        · exact hl n hn
        · rcases List.mem_cons.mp (List.mem_of_mem_dropLast hn) with rfl | hn
          · exact hadded n List.mem_cons_self
          · exact hm n hn
      · intro n hn
        exact (List.mem_append.mp hn).elim (hl n) (hm n)
    exact dropLast_cons_eq_iff.mp (List.append_cancel_left hshift)
  · rintro ⟨x, rfl, hfull, hrepeat⟩
    rw [decodeLetters_insert l m x hfull, dropLast_cons_eq_iff.mpr hrepeat]

theorem decode_encode (bytes : List UInt8) : decode (encode bytes) = bytes := by
  have hpad : sixBits '=' = none := by
    rw [sixBits_eq_none_iff, alphabet_eq]
    decide
  have hofNat (x : UInt8) (n : Nat) (h : n = x.toNat) : UInt8.ofNat n = x := by
    rw [h, UInt8.ofNat_toNat]
  induction bytes using encode.induct with
  | case1 x y z rest ih =>
      have hx := x.toNat_lt
      have hy := y.toNat_lt
      have hz := z.toNat_lt
      rw [decode] at ih ⊢
      rw [encode, letters_cons_letter (by omega), letters_cons_letter (by omega),
        letters_cons_letter (by omega), letters_cons_letter (by omega), decodeLetters, ih,
        hofNat x _ (by omega), hofNat y _ (by omega), hofNat z _ (by omega)]
  | case2 x y =>
      have hx := x.toNat_lt
      have hy := y.toNat_lt
      rw [decode, encode, letters_cons_letter (by omega), letters_cons_letter (by omega),
        letters_cons_letter (by omega), letters_cons_of_none hpad, letters_nil, decodeLetters,
        hofNat x _ (by omega), hofNat y _ (by omega)]
  | case3 x =>
      have hx := x.toNat_lt
      rw [decode, encode, letters_cons_letter (by omega), letters_cons_letter (by omega),
        letters_cons_of_none hpad, letters_cons_of_none hpad, letters_nil, decodeLetters,
        hofNat x _ (by omega)]
  | case4 => rfl

end Dpaste.Base64Text
