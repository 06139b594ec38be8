import Mathlib.Data.List.Nodup
import Mathlib.Logic.Function.Basic

/-!
Stores that keep every value deposited under a key, and a pair of such stores of
which the second is asked only when the first has nothing.
-/

namespace Dpaste.AppendOnlyStores

universe u v

variable {κ : Type u} {ν : Type v}

/-- The values under each key, in the order in which they were deposited. -/
abbrev Store (κ : Type u) (ν : Type v) := κ → List ν

section Deposits

variable [DecidableEq κ]

def deposit (s : Store κ ν) (k : κ) (v : ν) : Store κ ν :=
  Function.update s k (s k ++ [v])

@[simp] theorem deposit_self (s : Store κ ν) (k : κ) (v : ν) :
    deposit s k v k = s k ++ [v] := by
  simp [deposit]

theorem mem_deposit {s : Store κ ν} {k k' : κ} {v v' : ν} :
    v' ∈ deposit s k v k' ↔ v' ∈ s k' ∨ (k', v') = (k, v) := by
  rcases eq_or_ne k' k with rfl | hk
  · simp [deposit]
  · simp [deposit, hk]

end Deposits

/-- How a store answers a lookup: with some of the values under the key, and with
at least one if there is one. -/
structure Answer (ν : Type v) where
  pick : List ν → List ν
  mem : ∀ {vs v}, v ∈ pick vs → v ∈ vs
  nonempty : ∀ {vs}, vs ≠ [] → pick vs ≠ []

namespace Answer

def all : Answer ν := ⟨id, id, id⟩

@[simp] theorem pick_nil (x : Answer ν) : x.pick [] = [] :=
  List.eq_nil_iff_forall_not_mem.mpr fun _ hv => List.not_mem_nil (x.mem hv)

theorem head_pick {x : Answer ν} {vs : List ν} {v : ν} (hvs : vs ≠ [])
    (hall : ∀ v' ∈ vs, v' = v) : (x.pick vs).head? = some v := by
  obtain ⟨v', rest, hpick⟩ := List.exists_cons_of_ne_nil (x.nonempty hvs)
  have hmem : v' ∈ x.pick vs := hpick ▸ List.mem_cons_self
  rw [hpick, hall v' (x.mem hmem)]
  rfl

end Answer

/-- Under the key `k` the two stores hold the value `v` and no other. -/
def HoldOnly (a b : Store κ ν) (k : κ) (v : ν) : Prop :=
  (∀ v' ∈ a k ++ b k, v' = v) ∧ v ∈ a k ++ b k

/-- The two stores hold exactly the deposits that the journal lists. -/
def Record (journal : List (κ × ν)) (a b : Store κ ν) : Prop :=
  ∀ k v, v ∈ a k ++ b k ↔ (k, v) ∈ journal

theorem record_nil : Record ([] : List (κ × ν)) (fun _ => []) (fun _ => []) := by
  intro k v
  simp

theorem Record.deposit_left [DecidableEq κ] {journal : List (κ × ν)} {a b : Store κ ν}
    (h : Record journal a b) (k : κ) (v : ν) :
    Record (journal ++ [(k, v)]) (deposit a k v) b := by
  intro k' v'
  simp only [List.mem_append, mem_deposit, ← h k' v', List.mem_singleton]
  tauto

theorem Record.deposit_right [DecidableEq κ] {journal : List (κ × ν)} {a b : Store κ ν}
    (h : Record journal a b) (k : κ) (v : ν) :
    Record (journal ++ [(k, v)]) a (deposit b k v) := by
  intro k' v'
  simp only [List.mem_append, mem_deposit, ← h k' v', List.mem_singleton]
  tauto

/-- If no key was used twice, no deposit shadows another. -/
theorem Record.holdOnly {journal : List (κ × ν)} {a b : Store κ ν}
    (h : Record journal a b) (hkeys : (journal.map Prod.fst).Nodup) {k : κ} {v : ν}
    (hmem : (k, v) ∈ journal) : HoldOnly a b k v := by
  refine ⟨fun v' hv' => ?_, (h k v).mpr hmem⟩
  have heq : (k, v') = (k, v) :=
    List.inj_on_of_nodup_map hkeys ((h k v').mp hv') hmem rfl
  exact congrArg Prod.snd heq

end Dpaste.AppendOnlyStores
