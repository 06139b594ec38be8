import Mathlib.Data.List.DropRight

/-!
Texts that are read field by field: the pieces between delimiters, as `getline` yields
them, and the margins of a piece, which are stripped off.
-/

namespace Dpaste.TextFields

variable {α : Type*}

section Stripping

variable {p : α → Bool} {l : List α}

/-- The list without its longest margins in `p`. -/
def strip (p : α → Bool) (l : List α) : List α := (l.dropWhile p).rdropWhile p

theorem exists_margins (p : α → Bool) (l : List α) :
    ∃ u v, l = u ++ strip p l ++ v ∧ (∀ x ∈ u, p x = true) ∧ ∀ x ∈ v, p x = true := by
  refine ⟨l.takeWhile p, (l.dropWhile p).rtakeWhile p, ?_, ?_, ?_⟩
  · rw [strip, List.append_assoc, List.rdropWhile_append_rtakeWhile,
      List.takeWhile_append_dropWhile]
  · intro x hx
    exact List.mem_takeWhile_imp hx
  · intro x hx
    exact List.mem_rtakeWhile_imp hx

theorem strip_eq_nil_iff : strip p l = [] ↔ ∀ x ∈ l, p x = true := by
  constructor
  · intro h x hx
    obtain ⟨u, v, hl, hu, hv⟩ := exists_margins p l
    rw [h, List.append_nil] at hl
    rw [hl] at hx
    exact (List.mem_append.mp hx).elim (hu x) (hv x)
  · intro h
    rw [strip, List.dropWhile_eq_nil_iff.mpr h, List.rdropWhile_nil]

theorem strip_head (h : strip p l ≠ []) : p ((strip p l).head h) = false := by
  have hstart : strip p l <+: l.dropWhile p := List.rdropWhile_prefix p _
  rw [hstart.head h]
  exact List.head_dropWhile_not p _

theorem strip_last (h : strip p l ≠ []) : p ((strip p l).getLast h) = false := by
  have hlast := List.rdropWhile_last_not p (l.dropWhile p) h
  exact Bool.eq_false_iff.mpr hlast

/-- A list without margins in `p`. -/
def Trimmed (p : α → Bool) (l : List α) : Prop :=
  ∀ h : l ≠ [], p (l.head h) = false ∧ p (l.getLast h) = false

theorem trimmed_strip (p : α → Bool) (l : List α) : Trimmed p (strip p l) :=
  fun h => ⟨strip_head h, strip_last h⟩

theorem rdropWhile_append_of_pos {v : List α} (hv : ∀ x ∈ v, p x = true) (l : List α) :
    (l ++ v).rdropWhile p = l.rdropWhile p := by
  have hreverse : ∀ x ∈ v.reverse, p x = true := by simpa using hv
  rw [List.rdropWhile, List.reverse_append, List.dropWhile_append_of_pos hreverse]
  rfl

/-- The stripped list is the only list without margins that margins can be added to. -/
theorem strip_of_margins {u m v : List α} (hl : l = u ++ m ++ v) (hu : ∀ x ∈ u, p x = true)
    (hv : ∀ x ∈ v, p x = true) (hm : Trimmed p m) : strip p l = m := by
  rw [hl, strip, List.append_assoc, List.dropWhile_append_of_pos hu]
  by_cases hempty : m = []
  · rw [hempty, List.nil_append, List.dropWhile_eq_nil_iff.mpr hv, List.rdropWhile_nil]
  · obtain ⟨hhead, hlast⟩ := hm hempty
    have hstart : (m ++ v).dropWhile p = m ++ v := by
      obtain ⟨x, m, rfl⟩ := List.exists_cons_of_ne_nil hempty
      exact List.dropWhile_cons_of_neg (by simpa using hhead)
    rw [hstart, rdropWhile_append_of_pos hv, List.rdropWhile_eq_self_iff]
    intro _
    exact Bool.eq_false_iff.mp hlast

theorem strip_strip (p : α → Bool) (l : List α) : strip p (strip p l) = strip p l :=
  strip_of_margins (by simp) (List.forall_mem_nil _) (List.forall_mem_nil _)
    (trimmed_strip p l)

theorem strip_append {u v : List α} (hu : ∀ x ∈ u, p x = true) (hv : ∀ x ∈ v, p x = true)
    (l : List α) : strip p (u ++ l ++ v) = strip p l := by
  obtain ⟨u', v', hl, hu', hv'⟩ := exists_margins p l
  have hsplit : u ++ l ++ v = (u ++ u') ++ strip p l ++ (v' ++ v) := by
    conv_lhs => rw [hl]
    simp only [List.append_assoc]
  refine strip_of_margins hsplit ?_ ?_ (trimmed_strip p l)
  · intro x hx
    exact (List.mem_append.mp hx).elim (hu x) (hu' x)
  · intro x hx
    exact (List.mem_append.mp hx).elim (hv' x) (hv x)

end Stripping

section Fields

variable [DecidableEq α] (d : α)

/-- `std::getline` on a stream that holds a list. -/
def getline : List α → Option (List α × List α)
  | [] => none
  | x :: xs =>
      some ((x :: xs).takeWhile (· ≠ d), ((x :: xs).dropWhile (· ≠ d)).tail)

/-- The pieces of a list between delimiters. Nothing follows a delimiter at its end. -/
def records : List α → List (List α)
  | [] => []
  | x :: xs =>
      if x = d then [] :: records xs
      else
        match records xs with
        | [] => [[x]]
        | r :: rs => (x :: r) :: rs

/-- What follows the first delimiter. -/
def afterFirst (l : List α) : List α := (l.dropWhile (· ≠ d)).tail

variable {d} {l : List α}

theorem getline_eq_some (h : l ≠ []) :
    getline d l = some (l.takeWhile (· ≠ d), afterFirst d l) := by
  obtain ⟨x, xs, rfl⟩ := List.exists_cons_of_ne_nil h
  rfl

theorem afterFirst_length_lt (h : l ≠ []) : (afterFirst d l).length < l.length := by
  have hpos := List.length_pos_iff.mpr h
  have hle : (l.dropWhile (· ≠ d)).length ≤ l.length := (List.dropWhile_suffix _).length_le
  rw [afterFirst, List.length_tail]
  omega

theorem afterFirst_cons_of_ne {x : α} (hx : x ≠ d) (l : List α) :
    afterFirst d (x :: l) = afterFirst d l := by
  simp [afterFirst, hx]

@[simp] theorem afterFirst_cons_self (l : List α) : afterFirst d (d :: l) = l := by
  simp [afterFirst]

theorem mem_of_mem_afterFirst {x : α} (h : x ∈ afterFirst d l) : x ∈ l :=
  (List.dropWhile_suffix _).subset (List.mem_of_mem_tail h)

theorem forall_ne_of_notMem (h : d ∉ l) : ∀ x ∈ l, decide (x ≠ d) = true := by
  intro x hx
  simp only [decide_eq_true_eq]
  rintro rfl
  exact h hx

theorem afterFirst_of_notMem (h : d ∉ l) : afterFirst d l = [] := by
  rw [afterFirst, List.dropWhile_eq_nil_iff.mpr (forall_ne_of_notMem h), List.tail_nil]

theorem mem_of_afterFirst_ne_nil (h : afterFirst d l ≠ []) : d ∈ l := by
  by_contra hnone
  exact h (afterFirst_of_notMem hnone)

theorem getline_of_notMem (h : d ∉ l) : (getline d l).getD ([], []) = (l, []) := by
  cases l with
  | nil => rfl
  | cons x l =>
      rw [getline_eq_some (List.cons_ne_nil x l), Option.getD_some, afterFirst_of_notMem h,
        List.takeWhile_eq_self_iff.mpr (forall_ne_of_notMem h)]

theorem notMem_of_mem_records {r : List α} (h : r ∈ records d l) : d ∉ r := by
  induction l generalizing r with
  | nil => cases h
  | cons x l ih =>
      rw [records] at h
      split at h
      next =>
          rcases List.mem_cons.mp h with rfl | h
          · exact List.not_mem_nil
          · exact ih h
      next hx =>
          split at h
          next =>
              rw [List.mem_singleton.mp h, List.mem_singleton]
              exact Ne.symm hx
          next r' rs hrecords =>
              rw [hrecords] at ih
              rcases List.mem_cons.mp h with rfl | h
              · rw [List.mem_cons, not_or]
                exact ⟨Ne.symm hx, ih List.mem_cons_self⟩
              · exact ih (List.mem_cons_of_mem r' h)

theorem records_eq_cons (h : l ≠ []) :
    records d l = l.takeWhile (· ≠ d) :: records d (afterFirst d l) := by
  induction l with
  | nil => exact absurd rfl h
  | cons x l ih =>
      by_cases hx : x = d
      · simp [records, hx]
      · rw [afterFirst_cons_of_ne hx, records, if_neg hx,
          List.takeWhile_cons_of_pos (by simpa using hx)]
        cases l with
        | nil => rfl
        | cons y l => rw [ih (List.cons_ne_nil y l)]

/-- What stands behind a delimiter is cut into pieces of its own. Between two delimiters, or
before the first one, there may be an empty piece. -/
theorem records_append (u v : List α) :
    records d (u ++ d :: v) = records d u ++ records d v ∨
      records d (u ++ d :: v) = records d u ++ [] :: records d v := by
  induction u with
  | nil => exact .inr (by simp [records])
  | cons x u ih =>
      rw [List.cons_append]
      by_cases hx : x = d
      · subst hx
        simp only [records, if_pos, List.cons_append, List.cons.injEq, true_and]
        exact ih
      · by_cases hu : u = []
        · subst hu
          exact .inl (by simp [records, hx])
        · have hrecords := records_eq_cons (d := d) hu
          rw [records, if_neg hx]
          conv => enter [1, 2, 1]; rw [records, if_neg hx]
          conv => enter [2, 2, 1]; rw [records, if_neg hx]
          rw [hrecords, List.cons_append, List.cons_append] at ih
          rw [hrecords]
          rcases ih with ih | ih
          · exact .inl (by rw [ih]; rfl)
          · exact .inr (by rw [ih]; rfl)

/-- The first delimiter of a list splits it. -/
theorem eq_append_afterFirst (h : d ∈ l) : l = l.takeWhile (· ≠ d) ++ d :: afterFirst d l := by
  induction l with
  | nil => cases h
  | cons x l ih =>
      by_cases hx : x = d
      · simp [hx]
      · have hmem : d ∈ l := (List.mem_cons.mp h).resolve_left (Ne.symm hx)
        rw [afterFirst_cons_of_ne hx, List.takeWhile_cons_of_pos (by simpa using hx),
          List.cons_append, ← ih hmem]

/-- What follows some delimiter follows the first one, directly or after another one. -/
theorem afterFirst_append (u v : List α) :
    afterFirst d (u ++ d :: v) = v ∨ ∃ u', afterFirst d (u ++ d :: v) = u' ++ d :: v := by
  induction u with
  | nil => exact .inl (afterFirst_cons_self v)
  | cons x u ih =>
      rw [List.cons_append]
      by_cases hx : x = d
      · subst hx
        exact .inr ⟨u, afterFirst_cons_self _⟩
      · rw [afterFirst_cons_of_ne hx]
        exact ih

end Fields

end Dpaste.TextFields
