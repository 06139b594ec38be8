import Mathlib.Init

/-!
Decoders that read a value off the front of an input and leave the rest, and
the code words that they accept. The rules compose code words the way the
decoders compose, so that a format is verified one construct at a time.
-/

namespace Dpaste.PrefixDecoding

/-- A decoder over tokens `τ`: it consumes a prefix of the input or fails. -/
abbrev Decoder (ε τ : Type) := StateT (List τ) (Except ε)

variable {ε τ α β : Type}

def next (e : ε) : Decoder ε τ τ
  | [] => .error e
  | x :: xs => .ok (x, xs)

def take (e : ε) (n : Nat) : Decoder ε τ (List τ) := fun xs =>
  if n ≤ xs.length then .ok (xs.take n, xs.drop n) else .error e

def both (p : Decoder ε τ α) (q : Decoder ε τ β) : Decoder ε τ (α × β) := do
  let a ← p
  let b ← q
  pure (a, b)

def times (p : Decoder ε τ α) : Nat → Decoder ε τ (List α)
  | 0 => pure []
  | n + 1 => do
      let a ← p
      let as ← times p n
      pure (a :: as)

/-- The word `w` is a code word of `a`: in front of any input the decoder reads
exactly `w` and returns `a`. -/
def Decodes (p : Decoder ε τ α) (w : List τ) (a : α) : Prop :=
  ∀ rest, p (w ++ rest) = .ok (a, rest)

namespace Decodes

theorem pure (a : α) : Decodes (pure a : Decoder ε τ α) [] a := fun _ => rfl

theorem next (e : ε) (x : τ) : Decodes (next e) [x] x := fun _ => rfl

theorem take (e : ε) (w : List τ) : Decodes (take e w.length) w w := by
  intro rest
  simp [PrefixDecoding.take]

theorem bind {p : Decoder ε τ α} {f : α → Decoder ε τ β} {v w : List τ} {a : α}
    {b : β} (hp : Decodes p v a) (hf : Decodes (f a) w b) :
    Decodes (p >>= f) (v ++ w) b := by
  intro rest
  change (p (v ++ w ++ rest)).bind _ = _
  rw [List.append_assoc, hp]
  exact hf rest

theorem map {p : Decoder ε τ α} {w : List τ} {a : α} (hp : Decodes p w a)
    (f : α → β) : Decodes (p >>= fun a => Pure.pure (f a)) w (f a) := by
  have h := bind (f := fun a => Pure.pure (f a)) hp (pure (f a))
  rwa [List.append_nil] at h

theorem both {p : Decoder ε τ α} {q : Decoder ε τ β} {v w : List τ} {a : α} {b : β}
    (hp : Decodes p v a) (hq : Decodes q w b) :
    Decodes (both p q) (v ++ w) (a, b) :=
  bind hp (map hq fun b => (a, b))

/-- Code words of the elements, one after the other, are a code word of the list. -/
theorem times {p : Decoder ε τ α} {word : α → List τ} {as : List α}
    (h : ∀ a ∈ as, Decodes p (word a) a) :
    Decodes (times p as.length) (as.flatMap word) as := by
  induction as with
  | nil => exact pure []
  | cons a as ih =>
      have htail := ih fun b hb => h b (List.mem_cons_of_mem a hb)
      exact bind (h a List.mem_cons_self) (map htail fun as => a :: as)

end Decodes

/-- Where `p` succeeds `q` returns the same, also when more input follows. -/
def Continues (p q : Decoder ε τ α) : Prop :=
  ∀ xs a rest, p xs = .ok (a, rest) → ∀ ys, q (xs ++ ys) = .ok (a, rest ++ ys)

namespace Continues

theorem pure (a : α) : Continues (Pure.pure a : Decoder ε τ α) (Pure.pure a) := by
  intro xs b rest h ys
  obtain ⟨rfl, rfl⟩ := Prod.mk.inj (Except.ok.inj h)
  rfl

theorem throw (e : ε) (q : Decoder ε τ α) : Continues (throw e) q := by
  intro xs a rest h
  cases h

theorem next (e : ε) : Continues (next e : Decoder ε τ τ) (next e) := by
  intro xs a rest h ys
  cases xs with
  | nil => cases h
  | cons x xs =>
      obtain ⟨rfl, rfl⟩ := Prod.mk.inj (Except.ok.inj h)
      rfl

theorem take (e : ε) (n : Nat) : Continues (take e n : Decoder ε τ (List τ)) (take e n) := by
  intro xs a rest h ys
  unfold PrefixDecoding.take at h ⊢
  split at h
  next hle =>
      obtain ⟨rfl, rfl⟩ := Prod.mk.inj (Except.ok.inj h)
      rw [if_pos (by rw [List.length_append]; omega), List.take_append_of_le_length hle,
        List.drop_append_of_le_length hle]
  next => cases h

theorem bind {p p' : Decoder ε τ α} {f f' : α → Decoder ε τ β} (hp : Continues p p')
    (hf : ∀ a, Continues (f a) (f' a)) : Continues (p >>= f) (p' >>= f') := by
  intro xs b rest h ys
  change (p xs).bind _ = _ at h
  change (p' (xs ++ ys)).bind _ = _
  cases hresult : p xs with
  | error e =>
      rw [hresult] at h
      cases h
  | ok r =>
      obtain ⟨a, middle⟩ := r
      rw [hresult] at h
      rw [hp xs a middle hresult ys]
      exact hf a middle b rest h ys

theorem both {p p' : Decoder ε τ α} {q q' : Decoder ε τ β} (hp : Continues p p')
    (hq : Continues q q') : Continues (both p q) (both p' q') :=
  bind hp fun a => bind hq fun b => pure (a, b)

theorem times {p p' : Decoder ε τ α} (hp : Continues p p') (n : Nat) :
    Continues (times p n) (times p' n) := by
  induction n with
  | zero => exact pure []
  | succ n ih => exact bind hp fun a => bind ih fun as => pure (a :: as)

end Continues

/-- Where `p` fails, for another reason than that the input is too short, `q` fails for the
same reason, also when more input follows. -/
def Persists (short : ε) (p q : Decoder ε τ α) : Prop :=
  ∀ xs e, p xs = .error e → e ≠ short → ∀ ys, q (xs ++ ys) = .error e

namespace Persists

variable {short : ε}

theorem pure (a : α) (q : Decoder ε τ α) : Persists short (Pure.pure a) q := by
  intro xs e h
  cases h

theorem throw (e : ε) : Persists short (throw e : Decoder ε τ α) (throw e) := by
  intro xs e' h _ ys
  cases h
  rfl

theorem throw_short (q : Decoder ε τ α) : Persists short (MonadExcept.throw short) q := by
  intro xs e h hne
  cases h
  exact absurd rfl hne

theorem next (q : Decoder ε τ τ) : Persists short (next short) q := by
  intro xs e h hne
  cases xs with
  | nil =>
      cases h
      exact absurd rfl hne
  | cons x xs => cases h

theorem take (n : Nat) (q : Decoder ε τ (List τ)) : Persists short (take short n) q := by
  intro xs e h hne
  unfold PrefixDecoding.take at h
  split at h
  · cases h
  · cases h
    exact absurd rfl hne

theorem bind {p p' : Decoder ε τ α} {f f' : α → Decoder ε τ β} (hp : Persists short p p')
    (hcontinues : Continues p p') (hf : ∀ a, Persists short (f a) (f' a)) :
    Persists short (p >>= f) (p' >>= f') := by
  intro xs e h hne ys
  change (p xs).bind _ = _ at h
  change (p' (xs ++ ys)).bind _ = _
  cases hresult : p xs with
  | error e' =>
      rw [hresult] at h
      cases h
      rw [hp xs e hresult hne ys]
      rfl
  | ok r =>
      obtain ⟨a, middle⟩ := r
      rw [hresult] at h
      rw [hcontinues xs a middle hresult ys]
      exact hf a middle e h hne ys

theorem both {p p' : Decoder ε τ α} {q q' : Decoder ε τ β} (hp : Persists short p p')
    (hcontinues : Continues p p') (hq : Persists short q q') (hcontinues' : Continues q q') :
    Persists short (both p q) (both p' q') :=
  bind hp hcontinues fun a => bind hq hcontinues' fun b => pure (a, b) _

theorem times {p p' : Decoder ε τ α} (hp : Persists short p p') (hcontinues : Continues p p')
    (n : Nat) : Persists short (times p n) (times p' n) := by
  induction n with
  | zero => exact pure [] _
  | succ n ih =>
      exact bind hp hcontinues fun a =>
        bind ih (Continues.times hcontinues n) fun as => pure (a :: as) _

end Persists

/-- A part of a code word is too short, for every decoder that goes on like one of the whole
code word. -/
theorem Decodes.short_of_prefix {short : ε} {p q : Decoder ε τ α} {v w : List τ} {a : α}
    (hw : Decodes q w a) (hcontinues : Continues p q) (hpersists : Persists short p q)
    (hpart : v <+: w) (hne : v ≠ w) : p v = .error short := by
  obtain ⟨ys, rfl⟩ := hpart
  have hwhole := hw []
  rw [List.append_nil] at hwhole
  cases hresult : p v with
  | ok r =>
      obtain ⟨b, rest⟩ := r
      have hrest := (hcontinues v b rest hresult ys).symm.trans hwhole
      have hnone := congrArg Prod.snd (Except.ok.inj hrest)
      obtain ⟨-, rfl⟩ := List.append_eq_nil_iff.mp hnone
      exact absurd (List.append_nil v).symm hne
  | error e =>
      refine congrArg Except.error (Classical.byContradiction fun hother => ?_)
      cases (hpersists v e hresult hother ys).symm.trans hwhole

end Dpaste.PrefixDecoding
