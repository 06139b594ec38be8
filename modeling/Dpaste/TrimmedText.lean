import Dpaste.ConfigurationFile

/-!
What `trim_str` selects: its positions in the arithmetic of `size_t`, and the text that is
left.
-/

namespace Dpaste.TrimmedText

open Dpaste.LibraryInterfaces
open Dpaste.TextFields
open Dpaste.ConfigurationFile

variable {str : Text}

section Positions

/-- The first position of the selection. -/
def firstOf (str : Text) : Nat := minSize str (findFirstNotOf str)

/-- The last position of the selection, or the size of a text of spaces. -/
def lastOf (str : Text) : Nat := minSize str (findLastNotOf str)

def countOf (str : Text) : Nat := lastOf str - firstOf str + 1

/-- The selection is empty at the end of a text of spaces. Otherwise it ends with the last
character that is no space. -/
theorem positions_cases (str : Text) :
    (∀ c ∈ str, isSpace c = true) ∧ firstOf str = str.length ∧ lastOf str = str.length ∨
      ∃ c, firstOf str ≤ lastOf str ∧ str[lastOf str]? = some c ∧ isSpace c = false := by
  by_cases hblank : strip isSpace str = []
  · have hspaces := strip_eq_nil_iff.mp hblank
    obtain ⟨hfirst, hlast⟩ := find_of_blank hspaces
    exact .inl ⟨hspaces, by rw [firstOf, hfirst, minSize], by rw [lastOf, hlast, minSize]⟩
  · obtain ⟨u, v, hstr, hu, hv⟩ := exists_margins isSpace str
    have htrimmed := trimmed_strip isSpace str
    generalize strip isSpace str = m at *
    obtain ⟨hfirst, hlast⟩ := find_of_margins hstr hu hv hblank htrimmed
    have hpos := List.length_pos_iff.mpr hblank
    have hlen : str.length = u.length + m.length + v.length := by
      rw [hstr, List.length_append, List.length_append]
    have hfirst : firstOf str = u.length := by
      rw [firstOf, hfirst, minSize, min_eq_right (by omega)]
    have hlast : lastOf str = u.length + m.length - 1 := by
      rw [lastOf, hlast, minSize, min_eq_right (by omega)]
    refine .inr ⟨m.getLast hblank, by omega, ?_, (htrimmed hblank).2⟩
    rw [hlast, hstr, List.append_assoc, List.getElem?_append_right (by omega),
      List.getElem?_append_left (by omega), List.getLast_eq_getElem,
      List.getElem?_eq_getElem (by omega)]
    congr 2
    omega

theorem firstOf_le_lastOf (str : Text) : firstOf str ≤ lastOf str := by
  rcases positions_cases str with ⟨_, hfirst, hlast⟩ | ⟨_, hle, _⟩
  · rw [hfirst, hlast]
  · exact hle

theorem countOf_le (str : Text) : countOf str ≤ max str.length 1 := by
  rcases positions_cases str with ⟨_, hfirst, hlast⟩ | ⟨_, _, hlast, _⟩
  · rw [countOf, hfirst, hlast]
    omega
  · obtain ⟨hlt, _⟩ := List.getElem?_eq_some_iff.mp hlast
    rw [countOf]
    omega

theorem selected_before_last {i : Nat} {c : Char} (hfirst : firstOf str ≤ i)
    (hlast : i < firstOf str + countOf str) (hc : str[i]? = some c) :
    ∃ j d, i ≤ j ∧ str[j]? = some d ∧ isSpace d = false := by
  obtain ⟨hlt, _⟩ := List.getElem?_eq_some_iff.mp hc
  rcases positions_cases str with ⟨_, hend, _⟩ | ⟨d, hle, hd, hspace⟩
  · omega
  · rw [countOf] at hlast
    exact ⟨lastOf str, d, by omega, hd, hspace⟩

end Positions

section SizeArithmetic

/-- `npos`, the largest value of `size_t`. -/
def npos : UInt64 := 0xffffffffffffffff

/-- The answer of a search, as a `size_t`. -/
def toSize : Option Nat → UInt64
  | some pos => UInt64.ofNat pos
  | none => npos

/-- `std::min` of two values of `size_t`. -/
def smaller (a b : UInt64) : UInt64 := if b < a then b else a

/-- `trim_str` in the arithmetic of `size_t`. -/
def trimStrSize (str : Text) : Except Exn Text :=
  let size := UInt64.ofNat str.length
  let first := smaller size (toSize (findFirstNotOf str))
  let last := smaller size (toSize (findLastNotOf str))
  substrCount str first.toNat (last - first + 1).toNat

theorem toNat_ofNat {n : Nat} (hn : n < 2 ^ 64) : (UInt64.ofNat n).toNat = n := by
  simpa using Nat.mod_eq_of_lt hn

theorem toNat_smaller (a b : UInt64) : (smaller a b).toNat = min a.toNat b.toNat := by
  rw [smaller]
  split
  next h => rw [min_eq_right (UInt64.lt_iff_toNat_lt.mp h).le]
  next h => rw [min_eq_left (Nat.le_of_not_lt fun hlt => h (UInt64.lt_iff_toNat_lt.mpr hlt))]

theorem toNat_smaller_toSize (hsize : str.length < 2 ^ 64) {found : Option Nat}
    (hfound : ∀ pos ∈ found, pos < str.length) :
    (smaller (UInt64.ofNat str.length) (toSize found)).toNat = minSize str found := by
  rw [toNat_smaller, toNat_ofNat hsize]
  cases found with
  | none =>
      have hnpos : npos.toNat = 2 ^ 64 - 1 := rfl
      rw [toSize, minSize, hnpos, min_eq_left (by omega)]
  | some pos =>
      have hpos := hfound pos rfl
      rw [toSize, minSize, toNat_ofNat (by omega)]

theorem findFirstNotOf_lt (str : Text) : ∀ pos ∈ findFirstNotOf str, pos < str.length := by
  intro pos hpos
  exact (List.findIdx?_eq_some_iff_getElem.mp hpos).1

theorem findLastNotOf_lt (str : Text) : ∀ pos ∈ findLastNotOf str, pos < str.length := by
  intro pos hpos
  obtain ⟨i, hi, rfl⟩ := Option.map_eq_some_iff.mp hpos
  obtain ⟨hlt, _⟩ := List.findIdx?_eq_some_iff_getElem.mp hi
  rw [List.length_reverse] at hlt
  omega

/-- The arithmetic does not wrap for a text whose size is a `size_t`. -/
theorem trimStrSize_eq (hsize : str.length < 2 ^ 64) : trimStrSize str = trimStr str := by
  have hfirst := toNat_smaller_toSize hsize (findFirstNotOf_lt str)
  have hlast := toNat_smaller_toSize hsize (findLastNotOf_lt str)
  have hle := firstOf_le_lastOf str
  have hcount := countOf_le str
  unfold countOf firstOf lastOf at hcount
  unfold firstOf lastOf at hle
  have hdiff := UInt64.toNat_sub_of_le _ _
    (UInt64.le_iff_toNat_le.mpr (hfirst.trans_le (hle.trans_eq hlast.symm)))
  simp only [trimStrSize, trimStr, UInt64.toNat_add, hdiff, hfirst, hlast]
  congr 1
  refine Nat.mod_eq_of_lt ?_
  simp
  omega

end SizeArithmetic

section Results

/-- The text `r` is left of `str` when the spaces around it are removed. -/
structure Leaves (str r : Text) : Prop where
  margins : ∃ m n, str = List.replicate m ' ' ++ r ++ List.replicate n ' '
  head : r.head? ≠ some ' '
  last : r.getLast? ≠ some ' '

theorem isSpace_iff {c : Char} : isSpace c = true ↔ c = ' ' := by
  rw [isSpace, decide_eq_true_eq]

theorem isSpace_of_mem_replicate {n : Nat} {c : Char} (h : c ∈ List.replicate n ' ') :
    isSpace c = true := isSpace_iff.mpr (List.eq_of_mem_replicate h)

theorem eq_replicate_of_isSpace {u : Text} (hu : ∀ c ∈ u, isSpace c = true) :
    u = List.replicate u.length ' ' :=
  List.eq_replicate_of_mem fun c hc => isSpace_iff.mp (hu c hc)

theorem trimmed_iff {r : Text} :
    Trimmed isSpace r ↔ r.head? ≠ some ' ' ∧ r.getLast? ≠ some ' ' := by
  by_cases hempty : r = []
  · subst hempty
    simp [Trimmed]
  · rw [List.head?_eq_some_head hempty, List.getLast?_eq_some_getLast hempty]
    simp [Trimmed, hempty, isSpace]

/-- Exactly one text is left of a text without the spaces around it. -/
theorem leaves_iff {r : Text} : Leaves str r ↔ r = strip isSpace str := by
  constructor
  · rintro ⟨⟨m, n, hstr⟩, hhead, hlast⟩
    exact (strip_of_margins hstr (fun _ => isSpace_of_mem_replicate)
      (fun _ => isSpace_of_mem_replicate) (trimmed_iff.mpr ⟨hhead, hlast⟩)).symm
  · rintro rfl
    obtain ⟨u, v, hstr, hu, hv⟩ := exists_margins isSpace str
    obtain ⟨hhead, hlast⟩ := trimmed_iff.mp (trimmed_strip isSpace str)
    rw [eq_replicate_of_isSpace hu, eq_replicate_of_isSpace hv] at hstr
    exact ⟨⟨_, _, hstr⟩, hhead, hlast⟩

/-- What `trim_str` does to any text: its arithmetic does not wrap and selects nothing
behind the last character that is no space, and its result is the only text that is left
without the spaces around it. Trimming again or adding spaces changes nothing. -/
theorem trimStr_removes_spaces (str : Text) :
    (trimStr str = substrCount str (firstOf str) (countOf str) ∧
        firstOf str ≤ lastOf str ∧ countOf str ≤ max str.length 1 ∧
        (str.length < 2 ^ 64 → trimStrSize str = trimStr str) ∧
        ∀ i c, firstOf str ≤ i → i < firstOf str + countOf str → str[i]? = some c →
          ∃ j d, i ≤ j ∧ str[j]? = some d ∧ d ≠ ' ') ∧
      ∃ r, trimStr str = .ok r ∧ (∀ r', Leaves str r' ↔ r' = r) ∧
        ((∀ c ∈ str, c = ' ') → r = []) ∧ trimStr r = .ok r ∧
        ∀ m n, trimStr (List.replicate m ' ' ++ str ++ List.replicate n ' ') = .ok r := by
  constructor
  · refine ⟨rfl, firstOf_le_lastOf str, countOf_le str, trimStrSize_eq, ?_⟩
    intro i c hfirst hlast hc
    obtain ⟨j, d, hij, hd, hspace⟩ := selected_before_last hfirst hlast hc
    refine ⟨j, d, hij, hd, ?_⟩
    rintro rfl
    cases hspace
  · refine ⟨strip isSpace str, trimStr_eq str, fun _ => leaves_iff, ?_, ?_, ?_⟩
    · intro hspaces
      exact strip_eq_nil_iff.mpr fun c hc => isSpace_iff.mpr (hspaces c hc)
    · rw [trimStr_eq, strip_strip]
    · intro m n
      rw [trimStr_eq, strip_append (fun _ => isSpace_of_mem_replicate)
        (fun _ => isSpace_of_mem_replicate)]

example : trimStr "  a b ".toList = .ok "a b".toList := rfl

end Results

end Dpaste.TrimmedText
