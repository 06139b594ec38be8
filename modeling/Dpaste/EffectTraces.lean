import Mathlib.Init

/-!
Programs that change a state, leave a trace of events and may raise. One value
of `Outcome` records everything that a run leaves behind, so that statements
about traces, about results and about states are statements about one term.
-/

namespace Dpaste.EffectTraces

universe u

/-- What a run leaves behind. The events are listed in the order in which they
happened, also those before an exception. -/
structure Outcome (σ ε ω : Type) (α : Type u) where
  state : σ
  events : List ε
  result : Except ω α

def Prog (σ ε ω : Type) (α : Type u) := σ → Outcome σ ε ω α

variable {σ ε ω : Type} {α β : Type u}

def Outcome.andThen (o : Outcome σ ε ω α) (f : α → Prog σ ε ω β) :
    Outcome σ ε ω β :=
  match o.result with
  | .ok a =>
      let next := f a o.state
      ⟨next.state, o.events ++ next.events, next.result⟩
  | .error e => ⟨o.state, o.events, .error e⟩

instance : Monad (Prog σ ε ω) where
  pure a := fun s => ⟨s, [], .ok a⟩
  bind p f := fun s => (p s).andThen f

def raise (e : ω) : Prog σ ε ω α := fun s => ⟨s, [], .error e⟩

def emit (e : ε) : Prog σ ε ω PUnit := fun s => ⟨s, [e], .ok ⟨⟩⟩

def access (f : σ → α × σ) : Prog σ ε ω α := fun s => ⟨(f s).2, [], .ok (f s).1⟩

def ofExcept : Except ω α → Prog σ ε ω α
  | .ok a => pure a
  | .error e => raise e

/-- Run `p`, and on an exception for which there is a handler, run the handler
in the state that `p` left. Other exceptions pass through. -/
def handle (p : Prog σ ε ω α) (handler : ω → Option (Prog σ ε ω α)) :
    Prog σ ε ω α := fun s =>
  let o := p s
  match o.result with
  | .ok _ => o
  | .error e =>
      match handler e with
      | none => o
      | some h =>
          let next := h o.state
          ⟨next.state, o.events ++ next.events, next.result⟩

/-- Run `p` with other names for its events. -/
def rename {ε' : Type} (g : ε → ε') (p : Prog σ ε ω α) : Prog σ ε' ω α := fun s =>
  ⟨(p s).state, (p s).events.map g, (p s).result⟩

@[simp] theorem pure_apply (a : α) (s : σ) :
    (pure a : Prog σ ε ω α) s = ⟨s, [], .ok a⟩ := rfl

@[simp] theorem bind_apply (p : Prog σ ε ω α) (f : α → Prog σ ε ω β) (s : σ) :
    (p >>= f) s = (p s).andThen f := rfl

@[simp] theorem raise_apply (e : ω) (s : σ) :
    (raise e : Prog σ ε ω α) s = ⟨s, [], .error e⟩ := rfl

@[simp] theorem emit_apply (e : ε) (s : σ) :
    (emit e : Prog σ ε ω PUnit) s = ⟨s, [e], .ok ⟨⟩⟩ := rfl

@[simp] theorem access_apply (f : σ → α × σ) (s : σ) :
    (access f : Prog σ ε ω α) s = ⟨(f s).2, [], .ok (f s).1⟩ := rfl

@[simp] theorem ofExcept_ok (a : α) (s : σ) :
    (ofExcept (.ok a) : Prog σ ε ω α) s = ⟨s, [], .ok a⟩ := rfl

@[simp] theorem ofExcept_error (e : ω) (s : σ) :
    (ofExcept (.error e) : Prog σ ε ω α) s = ⟨s, [], .error e⟩ := rfl

@[simp] theorem ofExcept_result (x : Except ω α) (s : σ) :
    (ofExcept x : Prog σ ε ω α) s = ⟨s, [], x⟩ := by
  cases x <;> rfl

@[simp] theorem rename_apply {ε' : Type} (g : ε → ε') (p : Prog σ ε ω α) (s : σ) :
    rename g p s = ⟨(p s).state, (p s).events.map g, (p s).result⟩ := rfl

namespace Outcome

@[simp] theorem andThen_ok (s : σ) (es : List ε) (a : α) (f : α → Prog σ ε ω β) :
    (⟨s, es, .ok a⟩ : Outcome σ ε ω α).andThen f =
      ⟨(f a s).state, es ++ (f a s).events, (f a s).result⟩ := rfl

@[simp] theorem andThen_error (s : σ) (es : List ε) (e : ω)
    (f : α → Prog σ ε ω β) :
    (⟨s, es, .error e⟩ : Outcome σ ε ω α).andThen f = ⟨s, es, .error e⟩ := rfl

theorem andThen_of_ok {o : Outcome σ ε ω α} {a : α} (h : o.result = .ok a)
    (f : α → Prog σ ε ω β) :
    o.andThen f =
      ⟨(f a o.state).state, o.events ++ (f a o.state).events,
        (f a o.state).result⟩ := by
  simp only [andThen, h]

theorem andThen_of_error {o : Outcome σ ε ω α} {e : ω} (h : o.result = .error e)
    (f : α → Prog σ ε ω β) : o.andThen f = ⟨o.state, o.events, .error e⟩ := by
  simp only [andThen, h]

theorem andThen_result_eq_ok {o : Outcome σ ε ω α} {f : α → Prog σ ε ω β} {b : β} :
    (o.andThen f).result = .ok b ↔
      ∃ a, o.result = .ok a ∧ (f a o.state).result = .ok b := by
  cases h : o.result with
  | ok a => simp [andThen_of_ok h]
  | error e => simp [andThen_of_error h]

theorem mem_andThen_events {o : Outcome σ ε ω α} {f : α → Prog σ ε ω β} {e : ε} :
    e ∈ (o.andThen f).events ↔
      e ∈ o.events ∨ ∃ a, o.result = .ok a ∧ e ∈ (f a o.state).events := by
  cases h : o.result with
  | ok a => simp [andThen_of_ok h]
  | error e => simp [andThen_of_error h]

@[simp] theorem andThen_pure_events (o : Outcome σ ε ω α) (f : α → β) :
    (o.andThen fun a => (pure (f a) : Prog σ ε ω β)).events = o.events := by
  cases h : o.result with
  | ok a => simp [andThen_of_ok h]
  | error e => simp [andThen_of_error h]

end Outcome

theorem handle_of_ok {p : Prog σ ε ω α} {handler : ω → Option (Prog σ ε ω α)} {s : σ}
    {a : α} (h : (p s).result = .ok a) : handle p handler s = p s := by
  simp only [handle, h]

theorem handle_of_error {p : Prog σ ε ω α} {handler : ω → Option (Prog σ ε ω α)}
    {s : σ} {e : ω} {q : Prog σ ε ω α} (h : (p s).result = .error e)
    (hq : handler e = some q) :
    handle p handler s =
      ⟨(q (p s).state).state, (p s).events ++ (q (p s).state).events,
        (q (p s).state).result⟩ := by
  simp only [handle, h, hq]

/-- The frame of a program: it does not change the part `f` of the state, and
every event that it emits satisfies `P`. -/
def Confined {γ : Type} (f : σ → γ) (P : ε → Prop) (p : Prog σ ε ω α) : Prop :=
  ∀ s, f (p s).state = f s ∧ ∀ e ∈ (p s).events, P e

namespace Confined

variable {γ : Type} {f : σ → γ} {P : ε → Prop}

theorem pure (a : α) : Confined f P (pure a : Prog σ ε ω α) :=
  fun _ => ⟨rfl, by simp⟩

theorem raise (x : ω) : Confined f P (raise x : Prog σ ε ω α) :=
  fun _ => ⟨rfl, by simp⟩

theorem emit {e : ε} (h : P e) : Confined f P (emit e : Prog σ ε ω PUnit) :=
  fun _ => ⟨rfl, by simpa using h⟩

theorem access {g : σ → α × σ} (h : ∀ s, f (g s).2 = f s) :
    Confined f P (access g : Prog σ ε ω α) :=
  fun s => ⟨h s, by simp⟩

theorem ofExcept (x : Except ω α) : Confined f P (ofExcept x : Prog σ ε ω α) := by
  cases x with
  | ok a => exact pure a
  | error e => exact raise e

theorem bind {p : Prog σ ε ω α} {k : α → Prog σ ε ω β} (hp : Confined f P p)
    (hk : ∀ a, Confined f P (k a)) : Confined f P (p >>= k) := by
  intro s
  rw [bind_apply]
  constructor
  · cases h : (p s).result with
    | ok a => rw [Outcome.andThen_of_ok h, (hk a _).1, (hp s).1]
    | error e => rw [Outcome.andThen_of_error h, (hp s).1]
  · intro e he
    rcases Outcome.mem_andThen_events.mp he with he | ⟨a, _, he⟩
    · exact (hp s).2 e he
    · exact (hk a _).2 e he

theorem handle {p : Prog σ ε ω α} (handler : ω → Option (Prog σ ε ω α))
    (hp : Confined f P p) (hh : ∀ e q, handler e = some q → Confined f P q) :
    Confined f P (handle p handler) := by
  intro s
  cases hresult : (p s).result with
  | ok a => rw [handle_of_ok hresult]; exact hp s
  | error e =>
      cases hq : handler e with
      | none =>
          simp only [EffectTraces.handle, hresult, hq]
          exact hp s
      | some q =>
          rw [handle_of_error hresult hq]
          refine ⟨((hh e q hq) _).1.trans (hp s).1, ?_⟩
          intro ev hev
          rcases List.mem_append.mp hev with hev | hev
          · exact (hp s).2 ev hev
          · exact ((hh e q hq) _).2 ev hev

theorem state_eq {p : Prog σ ε ω α} (hp : Confined id P p) (s : σ) :
    (p s).state = s := (hp s).1

theorem mono {Q : ε → Prop} {p : Prog σ ε ω α} (hp : Confined f P p)
    (h : ∀ e, P e → Q e) : Confined f Q p :=
  fun s => ⟨(hp s).1, fun e he => h e ((hp s).2 e he)⟩

end Confined

/-- Every exception that the program raises satisfies `Q`. -/
def Raises (Q : ω → Prop) (p : Prog σ ε ω α) : Prop :=
  ∀ s e, (p s).result = .error e → Q e

/-- The run of the program from `s` ends with an exception. -/
def Fails (p : Prog σ ε ω α) (s : σ) : Prop := ∃ e, (p s).result = .error e

section Failures

variable {s : σ}

@[simp] theorem not_fails_pure (a : α) : ¬Fails (pure a : Prog σ ε ω α) s := by
  rintro ⟨e, h⟩
  cases h

@[simp] theorem not_fails_emit (e : ε) : ¬Fails (emit e : Prog σ ε ω PUnit) s := by
  rintro ⟨x, h⟩
  cases h

@[simp] theorem fails_raise (e : ω) : Fails (raise e : Prog σ ε ω α) s := ⟨e, rfl⟩

@[simp] theorem fails_ofExcept {x : Except ω α} :
    Fails (ofExcept x : Prog σ ε ω α) s ↔ ∃ e, x = .error e := by
  cases x <;> simp [Fails]

/-- A sequence fails in its first part, or in the second part from where the first part
has ended. -/
theorem fails_bind {p : Prog σ ε ω α} {f : α → Prog σ ε ω β} :
    Fails (p >>= f) s ↔
      Fails p s ∨ ∃ a, (p s).result = .ok a ∧ Fails (f a) (p s).state := by
  unfold Fails
  rw [bind_apply]
  cases h : (p s).result with
  | ok a => simp [Outcome.andThen_of_ok h]
  | error e => simp [Outcome.andThen_of_error h]

theorem not_fails_of_ok {p : Prog σ ε ω α} {a : α} (h : (p s).result = .ok a) :
    ¬Fails p s := by
  rintro ⟨e, herror⟩
  rw [h] at herror
  cases herror

theorem fails_bind_of_ok {p : Prog σ ε ω α} {f : α → Prog σ ε ω β} {a : α}
    (h : (p s).result = .ok a) : Fails (p >>= f) s ↔ Fails (f a) (p s).state := by
  unfold Fails
  rw [bind_apply, Outcome.andThen_of_ok h]

end Failures

section Sequences

theorem rename_bind {ε' : Type} (g : ε → ε') (p : Prog σ ε ω α) (f : α → Prog σ ε ω β) :
    rename g (p >>= f) = rename g p >>= fun a => rename g (f a) := by
  funext s
  simp only [rename_apply, bind_apply, Outcome.andThen]
  cases (p s).result with
  | ok a => simp
  | error e => rfl

theorem pure_bind_eq (a : α) (f : α → Prog σ ε ω β) : (pure a >>= f) = f a := rfl

theorem bind_bind {γ : Type u} (p : Prog σ ε ω α) (f : α → Prog σ ε ω β)
    (g : β → Prog σ ε ω γ) : p >>= f >>= g = p >>= fun a => f a >>= g := by
  funext s
  simp only [bind_apply, Outcome.andThen]
  cases (p s).result with
  | ok a =>
      dsimp only
      cases (f a (p s).state).result with
      | ok b => simp
      | error e => rfl
  | error e => rfl

end Sequences

section Lifting

/-- A program that needs no state, on any state. -/
def lift (p : Prog Unit ε ω α) : Prog σ ε ω α := fun s => ⟨s, (p ()).events, (p ()).result⟩

@[simp] theorem lift_apply (p : Prog Unit ε ω α) (s : σ) :
    lift p s = ⟨s, (p ()).events, (p ()).result⟩ := rfl

@[simp] theorem lift_pure (a : α) :
    lift (σ := σ) (pure a : Prog Unit ε ω α) = pure a := rfl

@[simp] theorem lift_raise (e : ω) :
    lift (σ := σ) (raise e : Prog Unit ε ω α) = raise e := rfl

@[simp] theorem lift_emit (e : ε) :
    lift (σ := σ) (emit e : Prog Unit ε ω PUnit) = emit e := rfl

@[simp] theorem lift_ofExcept (x : Except ω α) :
    lift (σ := σ) (ofExcept x : Prog Unit ε ω α) = ofExcept x := by
  cases x <;> rfl

@[simp] theorem lift_bind (p : Prog Unit ε ω α) (f : α → Prog Unit ε ω β) :
    lift (σ := σ) (p >>= f) = lift p >>= fun a => lift (f a) := by
  funext s
  simp only [lift_apply, bind_apply, Outcome.andThen]
  cases (p ()).result <;> rfl

theorem lift_handle (p : Prog Unit ε ω α) (handler : ω → Option (Prog Unit ε ω α)) :
    lift (σ := σ) (handle p handler) =
      handle (lift p) fun e => (handler e).map fun q => lift q := by
  funext s
  simp only [lift_apply, handle]
  cases hresult : (p ()).result with
  | ok a => simp only [hresult]
  | error e => cases hq : handler e <;> simp [hresult, hq]

end Lifting

end Dpaste.EffectTraces
