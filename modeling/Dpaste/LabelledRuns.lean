import Mathlib.Data.List.Induction
import Mathlib.Logic.Relation

/-!
Runs of a labelled transition system, and the rules by which properties of one
step become properties of all states that a run reaches. Labels that are independent of
each other can be exchanged in a run.
-/

namespace Dpaste.LabelledRuns

universe u v

variable {σ : Type u} {ι : Type v}

/-- The finite runs of `step` from `s`, with the labels in order. -/
inductive Run (step : σ → ι → σ → Prop) (s : σ) : List ι → σ → Prop
  | nil : Run step s [] s
  | snoc {ls : List ι} {l : ι} {s' s'' : σ} :
      Run step s ls s' → step s' l s'' → Run step s (ls ++ [l]) s''

/-- The steps that a guard on the state and the label admits. -/
def Guarded (guard : σ → ι → Prop) (step : σ → ι → σ → Prop) (s : σ) (l : ι) (s' : σ) :
    Prop :=
  guard s l ∧ step s l s'

variable {step : σ → ι → σ → Prop} {s s' s'' : σ} {ls ls' : List ι}

namespace Run

/-- The invariant rule: what holds initially and is preserved by every step holds
after every run. -/
theorem invariant {I : σ → Prop} (h : Run step s ls s') (hinit : I s)
    (hstep : ∀ {s l s'}, I s → step s l s' → I s') : I s' := by
  induction h with
  | nil => exact hinit
  | snoc _ hlast ih => exact hstep ih hlast

theorem trans (h : Run step s ls s') (h' : Run step s' ls' s'') :
    Run step s (ls ++ ls') s'' := by
  induction h' with
  | nil => simpa using h
  | snoc _ hlast ih =>
      rw [← List.append_assoc]
      exact .snoc ih hlast

theorem mono {step' : σ → ι → σ → Prop} (h : Run step s ls s')
    (hstep : ∀ {s l s'}, step s l s' → step' s l s') : Run step' s ls s' := by
  induction h with
  | nil => exact .nil
  | snoc _ hlast ih => exact .snoc ih (hstep hlast)

theorem nil_inv (h : Run step s [] s') : s' = s := by
  generalize hls : ([] : List ι) = ls at h
  cases h with
  | nil => rfl
  | snoc _ _ => simp at hls

theorem snoc_inv {l : ι} (h : Run step s (ls ++ [l]) s'') :
    ∃ s', Run step s ls s' ∧ step s' l s'' := by
  generalize hls : ls ++ [l] = ls₁ at h
  cases h with
  | nil => simp at hls
  | snoc hrun hlast =>
      obtain ⟨rfl, hl⟩ := List.append_inj' hls rfl
      obtain rfl := List.singleton_inj.mp hl
      exact ⟨_, hrun, hlast⟩

theorem append_inv (h : Run step s (ls ++ ls') s'') :
    ∃ s', Run step s ls s' ∧ Run step s' ls' s'' := by
  induction ls' using List.reverseRecOn generalizing s'' with
  | nil => exact ⟨s'', by simpa using h, .nil⟩
  | append_singleton ls' l ih =>
      rw [← List.append_assoc] at h
      obtain ⟨m, hrun, hlast⟩ := h.snoc_inv
      obtain ⟨s', hfirst, hrest⟩ := ih hrun
      exact ⟨s', hfirst, hrest.snoc hlast⟩

theorem step_inv {l : ι} (h : Run step s (ls ++ l :: ls') s'') :
    ∃ m m', Run step s ls m ∧ step m l m' ∧ Run step m' ls' s'' := by
  rw [List.append_cons] at h
  obtain ⟨m', hbefore, hafter⟩ := h.append_inv
  obtain ⟨m, hrun, hlast⟩ := hbefore.snoc_inv
  exact ⟨m, m', hrun, hlast, hafter⟩

theorem deterministic (hstep : ∀ {s l s₁ s₂}, step s l s₁ → step s l s₂ → s₁ = s₂)
    (h : Run step s ls s') (h' : Run step s ls s'') : s' = s'' := by
  induction h generalizing s'' with
  | nil => exact h'.nil_inv.symm
  | snoc _ hlast ih =>
      obtain ⟨m, hrun, hlast'⟩ := h'.snoc_inv
      rw [ih hrun] at hlast
      exact hstep hlast hlast'

/-- The rule of a measure: where every step lowers it, but steps with some labels may add up
to `k` to it, the length of a run is bounded by the number of these labels. -/
theorem length_le {m : σ → Nat} {I : σ → Prop} {p : ι → Bool} {k : Nat} (h : Run step s ls s')
    (hinit : I s) (hstep : ∀ {s l s'}, I s → step s l s' → I s')
    (hmeasure : ∀ {s l s'}, I s → step s l s' → m s' + 1 ≤ m s + if p l then k else 0) :
    m s' + ls.length ≤ m s + k * ls.countP p := by
  have hboth : I s' ∧ m s' + ls.length ≤ m s + k * ls.countP p := by
    induction h with
    | nil => exact ⟨hinit, Nat.le_refl _⟩
    | @snoc ls l _ _ _ hlast ih =>
        obtain ⟨hs, hle⟩ := ih
        have hdecrease := hmeasure hs hlast
        refine ⟨hstep hs hlast, ?_⟩
        rw [List.length_append, List.length_singleton]
        cases hp : p l with
        | true =>
            have hcount : (ls ++ [l]).countP p = ls.countP p + 1 := by simp [hp]
            rw [hp, if_pos rfl] at hdecrease
            rw [hcount, Nat.mul_add]
            omega
        | false =>
            have hcount : (ls ++ [l]).countP p = ls.countP p := by simp [hp]
            rw [hp, if_neg Bool.false_ne_true] at hdecrease
            rw [hcount]
            omega
  exact hboth.2

end Run

def follow (next : σ → ι → Option σ) : σ → List ι → Option σ
  | s, [] => some s
  | s, l :: ls => (next s l).bind fun s' => follow next s' ls

theorem run_of_follow {next : σ → ι → Option σ} {s s' : σ} {ls : List ι}
    (h : follow next s ls = some s') : Run (fun s l s' => next s l = some s') s ls s' := by
  induction ls generalizing s with
  | nil =>
      obtain rfl := Option.some.inj h
      exact .nil
  | cons l ls ih =>
      obtain ⟨m, hm, hrest⟩ := Option.bind_eq_some_iff.mp h
      exact (Run.nil.snoc hm).trans (ih hrest)

theorem run_of_follow_guarded {guard : σ → ι → Prop} [∀ s l, Decidable (guard s l)]
    {next : σ → ι → Option σ} {s s' : σ} {ls : List ι}
    (h : follow (fun s l => if guard s l then next s l else none) s ls = some s') :
    Run (Guarded guard fun s l s' => next s l = some s') s ls s' :=
  (run_of_follow h).mono fun hstep => Option.ite_none_right_eq_some.mp hstep

section Exchanges

variable {independent : ι → ι → Prop}

/-- One exchange of two independent neighbours. -/
inductive Exchange (independent : ι → ι → Prop) : List ι → List ι → Prop
  | swap (ls ls' : List ι) {l l' : ι} :
      independent l l' → Exchange independent (ls ++ l :: l' :: ls') (ls ++ l' :: l :: ls')

/-- Any number of exchanges, in either direction. -/
abbrev Reordered (independent : ι → ι → Prop) : List ι → List ι → Prop :=
  Relation.EqvGen (Exchange independent)

theorem Exchange.perm (h : Exchange independent ls ls') : ls.Perm ls' := by
  obtain ⟨u, v, _⟩ := h
  exact (List.Perm.swap _ _ v).append_left u

theorem Reordered.perm (h : Reordered independent ls ls') : ls.Perm ls' := by
  induction h with
  | rel _ _ h => exact h.perm
  | refl _ => exact .refl _
  | symm _ _ _ ih => exact ih.symm
  | trans _ _ _ _ _ ih ih' => exact ih.trans ih'

/-- The functions that a list of labels selects, one after the other, give the same in
every order that exchanges reach, if independent functions commute on the invariant. -/
theorem Reordered.foldl_eq {f : σ → ι → σ} {I : σ → Prop} {L : ι → Prop}
    (hinvariant : ∀ {s l}, I s → I (f s l))
    (hcomm : ∀ {s l l'}, I s → L l → L l' → independent l l' →
      f (f s l) l' = f (f s l') l)
    (h : Reordered independent ls ls') (hlabels : ∀ l ∈ ls, L l) (hs : I s) :
    ls.foldl f s = ls'.foldl f s := by
  induction h with
  | refl _ => rfl
  | symm ls ls' h ih =>
      exact (ih fun l hl => hlabels l ((Reordered.perm h).mem_iff.mp hl)).symm
  | trans ls m ls' h _ ih ih' =>
      exact (ih hlabels).trans (ih' fun l hl => hlabels l ((Reordered.perm h).mem_iff.mpr hl))
  | rel _ _ h =>
      obtain ⟨u, v, hindependent⟩ := h
      have hreached : I (u.foldl f s) := by
        clear hlabels
        induction u generalizing s with
        | nil => exact hs
        | cons l u ih => exact ih (hinvariant hs)
      simp only [List.foldl_append, List.foldl_cons]
      rw [hcomm hreached (hlabels _ (by simp)) (hlabels _ (by simp)) hindependent]

end Exchanges

end Dpaste.LabelledRuns
