import Dpaste.EffectTraces
import Mathlib.Logic.Relation

/-!
Programs that stop at each question to their surroundings, so that several of them can take
turns. A script that runs alone is a program on the state of its surroundings. Among others,
it meets a postcondition that what the others do cannot break.
-/

namespace Dpaste.InteractivePrograms

open Dpaste.EffectTraces

universe u

/-- The rest of a program: its result, an event and what follows it, or a question and how
it goes on with each answer. -/
inductive Script (ε ω : Type) {κ : Type} (ρ : κ → Type) (α : Type)
  | stop (result : Except ω α)
  | tell (event : ε) (rest : Script ε ω ρ α)
  | ask (question : κ) (resume : ρ question → Script ε ω ρ α)

variable {ε ω κ : Type} {ρ : κ → Type} {α β : Type}

namespace Script

def bind : Script ε ω ρ α → (α → Script ε ω ρ β) → Script ε ω ρ β
  | .stop (.ok a), f => f a
  | .stop (.error e), _ => .stop (.error e)
  | .tell event rest, f => .tell event (rest.bind f)
  | .ask question resume, f => .ask question fun answer => (resume answer).bind f

instance : Monad (Script ε ω ρ) where
  pure a := .stop (.ok a)
  bind := bind

def question (q : κ) : Script ε ω ρ (ρ q) := .ask q pure

/-- The script with other names for its events. -/
def rename {ε' : Type} (g : ε → ε') : Script ε ω ρ α → Script ε' ω ρ α
  | .stop result => .stop result
  | .tell event rest => .tell (g event) (rest.rename g)
  | .ask question resume => .ask question fun answer => (resume answer).rename g

/-- A program that asks nothing and needs no state. -/
def ofProg (p : Prog Unit ε ω α) : Script ε ω ρ α :=
  (p ()).events.foldr .tell (.stop (p ()).result)

@[simp] theorem pure_eq (a : α) : (pure a : Script ε ω ρ α) = .stop (.ok a) := rfl

@[simp] theorem stop_ok_bind (a : α) (f : α → Script ε ω ρ β) :
    (Script.stop (.ok a) >>= f) = f a := rfl

@[simp] theorem stop_error_bind (e : ω) (f : α → Script ε ω ρ β) :
    (Script.stop (.error e) >>= f) = .stop (.error e) := rfl

@[simp] theorem tell_bind (event : ε) (rest : Script ε ω ρ α) (f : α → Script ε ω ρ β) :
    (Script.tell event rest >>= f) = .tell event (rest >>= f) := rfl

@[simp] theorem ask_bind (q : κ) (resume : ρ q → Script ε ω ρ α) (f : α → Script ε ω ρ β) :
    (Script.ask q resume >>= f) = .ask q fun answer => resume answer >>= f := rfl

@[simp] theorem question_bind (q : κ) (f : ρ q → Script ε ω ρ β) :
    (question q >>= f) = .ask q f := rfl

theorem ofProg_bind (p : Prog Unit ε ω α) (f : α → Prog Unit ε ω β) :
    (ofProg (p >>= f) : Script ε ω ρ β) = ofProg p >>= fun a => ofProg (f a) := by
  simp only [ofProg, bind_apply, Outcome.andThen]
  cases (p ()).result with
  | ok a =>
      induction (p ()).events with
      | nil => rfl
      | cons event events ih => exact congrArg (tell event) ih
  | error e =>
      induction (p ()).events with
      | nil => rfl
      | cons event events ih => exact congrArg (tell event) ih

section Alone

variable {σ : Type} (answer : (q : κ) → σ → ρ q × σ)

/-- The run of a script with nobody else around. -/
def run : Script ε ω ρ α → Prog σ ε ω α
  | .stop result => ofExcept result
  | .tell event rest => emit event >>= fun _ => rest.run
  | .ask question resume => access (answer question) >>= fun a => (resume a).run

@[simp] theorem run_stop (result : Except ω α) (s : σ) :
    (stop result : Script ε ω ρ α).run answer s = ⟨s, [], result⟩ :=
  ofExcept_result result s

@[simp] theorem run_tell (event : ε) (rest : Script ε ω ρ α) (s : σ) :
    (tell event rest).run answer s =
      ⟨(rest.run answer s).state, event :: (rest.run answer s).events,
        (rest.run answer s).result⟩ := rfl

@[simp] theorem run_ask (q : κ) (resume : ρ q → Script ε ω ρ α) (s : σ) :
    (ask q resume).run answer s = (resume (answer q s).1).run answer (answer q s).2 := rfl

theorem run_bind (p : Script ε ω ρ α) (f : α → Script ε ω ρ β) :
    (p >>= f).run answer = p.run answer >>= fun a => (f a).run answer := by
  funext s
  induction p generalizing s with
  | stop result => cases result <;> simp
  | tell event rest ih =>
      simp only [tell_bind, run_tell, ih, bind_apply, Outcome.andThen]
      cases (rest.run answer s).result <;> rfl
  | ask q resume ih => simp only [ask_bind, run_ask, ih, bind_apply]

/-- What needs no state does the same on every state. -/
@[simp] theorem run_ofProg (p : Prog Unit ε ω α) (s : σ) :
    (ofProg p : Script ε ω ρ α).run answer s = ⟨s, (p ()).events, (p ()).result⟩ := by
  unfold ofProg
  induction (p ()).events with
  | nil => simp
  | cons event events ih => simp [ih]

theorem run_rename {ε' : Type} (g : ε → ε') (p : Script ε ω ρ α) :
    (p.rename g).run answer = EffectTraces.rename g (p.run answer) := by
  funext s
  induction p generalizing s with
  | stop result => simp [rename]
  | tell event rest ih => simp [rename, ih]
  | ask q resume ih => simp [rename, ih]

end Alone

section Talks

/-- What the surroundings can tell about a script: which questions it asks after which
answers. -/
def talk : Script ε ω ρ α → Script Empty Unit ρ Unit
  | .stop _ => .stop (.ok ())
  | .tell _ rest => rest.talk
  | .ask q resume => .ask q fun answer => (resume answer).talk

@[simp] theorem talk_stop (result : Except ω α) :
    (stop result : Script ε ω ρ α).talk = .stop (.ok ()) := rfl

@[simp] theorem talk_tell (event : ε) (rest : Script ε ω ρ α) :
    (tell event rest).talk = rest.talk := rfl

@[simp] theorem talk_ask (q : κ) (resume : ρ q → Script ε ω ρ α) :
    (ask q resume).talk = .ask q fun answer => (resume answer).talk := rfl

@[simp] theorem talk_ofProg (p : Prog Unit ε ω α) :
    (ofProg p : Script ε ω ρ α).talk = .stop (.ok ()) := by
  unfold ofProg
  induction (p ()).events with
  | nil => rfl
  | cons event events ih => exact ih

/-- What follows without a question is not noticed. -/
theorem talk_bind_silent (p : Script ε ω ρ α) {f : α → Script ε ω ρ β}
    (h : ∀ a, (f a).talk = .stop (.ok ())) : (p >>= f).talk = p.talk := by
  induction p with
  | stop result =>
      cases result with
      | ok a => exact h a
      | error e => rfl
  | tell event rest ih => exact ih
  | ask q resume ih =>
      rw [ask_bind, talk_ask, talk_ask]
      congr 1
      funext answer
      exact ih answer

/-- The state of the surroundings depends on the questions only. -/
theorem run_talk {σ : Type} (answer : (q : κ) → σ → ρ q × σ) (p : Script ε ω ρ α) (s : σ) :
    (p.run answer s).state = (p.talk.run answer s).state := by
  induction p generalizing s with
  | stop result => simp
  | tell event rest ih => exact ih s
  | ask q resume ih => exact ih _ _

theorem run_state_eq {ε' ω' α' σ : Type} (answer : (q : κ) → σ → ρ q × σ)
    {p : Script ε ω ρ α} {p' : Script ε' ω' ρ α'} (h : p.talk = p'.talk) (s : σ) :
    (p.run answer s).state = (p'.run answer s).state := by
  rw [run_talk, h]
  exact (run_talk answer p' s).symm

end Talks

end Script

/-- Every question that the script may ask satisfies `Q`, and every result satisfies `R`,
whatever the answers are. -/
def Asks (Q : κ → Prop) (R : Except ω α → Prop) : Script ε ω ρ α → Prop
  | .stop result => R result
  | .tell _ rest => Asks Q R rest
  | .ask q resume => Q q ∧ ∀ answer, Asks Q R (resume answer)

section Questions

variable {Q Q' : κ → Prop} {R R' : Except ω α → Prop} {p : Script ε ω ρ α}

theorem Asks.mono (h : Asks Q R p) (hQ : ∀ q, Q q → Q' q) (hR : ∀ x, R x → R' x) :
    Asks Q' R' p := by
  induction p with
  | stop result => exact hR result h
  | tell event rest ih => exact ih h
  | ask q resume ih => exact ⟨hQ q h.1, fun answer => ih answer (h.2 answer)⟩

theorem Asks.bind {f : α → Script ε ω ρ β} {S : Except ω β → Prop} (h : Asks Q R p)
    (hok : ∀ a, R (.ok a) → Asks Q S (f a)) (herror : ∀ e, R (.error e) → S (.error e)) :
    Asks Q S (p >>= f) := by
  induction p with
  | stop result =>
      cases result with
      | ok a => exact hok a h
      | error e => exact herror e h
  | tell event rest ih => exact ih h
  | ask q resume ih => exact ⟨h.1, fun answer => ih answer (h.2 answer)⟩

theorem Asks.ofProg {q : Prog Unit ε ω α} (h : R (q ()).result) :
    Asks Q R (Script.ofProg q : Script ε ω ρ α) := by
  unfold Script.ofProg
  induction (q ()).events with
  | nil => exact h
  | cons event events ih => exact ih

theorem Asks.rename {ε' : Type} (g : ε → ε') (h : Asks Q R p) : Asks Q R (p.rename g) := by
  induction p with
  | stop result => exact h
  | tell event rest ih => exact ih h
  | ask q resume ih => exact ⟨h.1, fun answer => ih answer (h.2 answer)⟩

end Questions

/-- The script can end with this result after these questions, in this order, with these
answers. -/
def Leads : Script ε ω ρ α → List ((q : κ) × ρ q) → Except ω α → Prop
  | .stop result, turns, x => turns = [] ∧ result = x
  | .tell _ rest, turns, x => Leads rest turns x
  | .ask q resume, turns, x =>
      ∃ answer rest, turns = ⟨q, answer⟩ :: rest ∧ Leads (resume answer) rest x

section Dialogues

variable {Q : κ → Prop} {R : Except ω α → Prop} {p : Script ε ω ρ α}
  {turns : List ((q : κ) × ρ q)}

theorem Asks.of_leads {x : Except ω α} (h : Asks Q R p) (hleads : Leads p turns x) :
    (∀ turn ∈ turns, Q turn.1) ∧ R x := by
  induction p generalizing turns with
  | stop result =>
      obtain ⟨rfl, rfl⟩ := hleads
      exact ⟨fun _ hturn => absurd hturn List.not_mem_nil, h⟩
  | tell event rest ih => exact ih h hleads
  | ask q resume ih =>
      obtain ⟨answer, rest, rfl, hrest⟩ := hleads
      obtain ⟨hturns, hresult⟩ := ih answer (h.2 answer) hrest
      exact ⟨List.forall_mem_cons.mpr ⟨h.1, hturns⟩, hresult⟩

/-- The dialogue of a sequence that ends well is one of the first part and then one of the
second. -/
theorem Leads.bind_ok {f : α → Script ε ω ρ β} {b : β} (h : Leads (p >>= f) turns (.ok b)) :
    ∃ a first second, turns = first ++ second ∧ Leads p first (.ok a) ∧
      Leads (f a) second (.ok b) := by
  induction p generalizing turns with
  | stop result =>
      cases result with
      | ok a => exact ⟨a, [], turns, rfl, ⟨rfl, rfl⟩, h⟩
      | error e => cases h.2
  | tell event rest ih => exact ih h
  | ask q resume ih =>
      obtain ⟨answer, rest, rfl, hrest⟩ := h
      obtain ⟨a, first, second, rfl, hfirst, hsecond⟩ := ih answer hrest
      exact ⟨a, ⟨q, answer⟩ :: first, second, rfl, ⟨answer, first, rfl, hfirst⟩, hsecond⟩

end Dialogues

/-- The surroundings of the parties: how they answer a question, and what happens in them
without being asked for. -/
structure Surroundings {κ : Type} (ρ : κ → Type) (δ ν : Type) where
  answers : ν → (q : κ) → ρ q → ν → Prop
  drifts : ν → δ → ν → Prop

namespace Surroundings

variable {δ ν : Type} (net : Surroundings ρ δ ν)

inductive Moves (n n' : ν) : Prop
  | answers (q : κ) (answer : ρ q) : net.answers n q answer n' → Moves n n'
  | drifts (change : δ) : net.drifts n change n' → Moves n n'

/-- Any number of moves, whoever causes them. -/
abbrev Reaches : ν → ν → Prop := Relation.ReflTransGen net.Moves

variable {net}

theorem reaches_of_answers {n n' : ν} {q : κ} {answer : ρ q}
    (h : net.answers n q answer n') : net.Reaches n n' := .single (.answers q answer h)

end Surroundings

section Contracts

variable {δ ν : Type} (net : Surroundings ρ δ ν)

/-- The script, started now, ends with a result of which `post` holds, whatever happens
before it starts, between its questions and after its last one. -/
def Meets (post : Except ω α → ν → Prop) : Script ε ω ρ α → ν → Prop
  | .stop result, n => ∀ n', net.Reaches n n' → post result n'
  | .tell _ rest, n => Meets post rest n
  | .ask q resume, n =>
      ∀ n' answer n'', net.Reaches n n' → net.answers n' q answer n'' →
        Meets post (resume answer) n''

variable {net} {post post' : Except ω α → ν → Prop} {p : Script ε ω ρ α} {n n' : ν}

theorem Meets.reaches (h : Meets net post p n) (hreach : net.Reaches n n') :
    Meets net post p n' := by
  induction p with
  | stop result => exact fun m hm => h m (hreach.trans hm)
  | tell event rest ih => exact ih h
  | ask q resume _ => exact fun m answer m' hm => h m answer m' (hreach.trans hm)

/-- Later, a weaker postcondition is enough. -/
theorem Meets.mono (h : Meets net post p n)
    (hpost : ∀ result n', net.Reaches n n' → post result n' → post' result n') :
    Meets net post' p n := by
  induction p generalizing n with
  | stop result => exact fun m hm => hpost result m hm (h m hm)
  | tell event rest ih => exact ih h hpost
  | ask q resume ih =>
      intro m answer m' hm hanswer
      refine ih answer (h m answer m' hm hanswer) fun result m'' hm'' => ?_
      exact hpost result m''
        ((hm.trans (Surroundings.reaches_of_answers hanswer)).trans hm'')

/-- The rule for a sequence: the second part starts somewhere after the first has ended. -/
theorem Meets.bind {f : α → Script ε ω ρ β} {Q : Except ω β → ν → Prop}
    (h : Meets net post p n)
    (hok : ∀ a n', net.Reaches n n' → post (.ok a) n' → Meets net Q (f a) n')
    (herror : ∀ e n', net.Reaches n n' → post (.error e) n' → Q (.error e) n') :
    Meets net Q (p >>= f) n := by
  induction p generalizing n with
  | stop result =>
      cases result with
      | ok a => exact hok a n .refl (h n .refl)
      | error e => exact fun m hm => herror e m hm (h m hm)
  | tell event rest ih => exact ih h hok herror
  | ask q resume ih =>
      intro m answer m' hm hanswer
      have hfirst := hm.trans (Surroundings.reaches_of_answers hanswer)
      refine ih answer (h m answer m' hm hanswer) ?_ ?_
      · exact fun a m'' hm'' => hok a m'' (hfirst.trans hm'')
      · exact fun e m'' hm'' => herror e m'' (hfirst.trans hm'')

theorem Meets.ofProg {q : Prog Unit ε ω α}
    (h : ∀ n', net.Reaches n n' → post (q ()).result n') :
    Meets net post (Script.ofProg q : Script ε ω ρ α) n := by
  unfold Script.ofProg
  induction (q ()).events with
  | nil => exact h
  | cons event events ih => exact ih

theorem Meets.rename {ε' : Type} (g : ε → ε') (h : Meets net post p n) :
    Meets net post (p.rename g) n := by
  induction p generalizing n with
  | stop result => exact h
  | tell event rest ih => exact ih h
  | ask q resume ih => exact fun m answer m' hm hanswer => ih answer (h m answer m' hm hanswer)

theorem Asks.meets {Q : κ → Prop} {R : Except ω α → Prop} (h : Asks Q R p) :
    Meets net (fun result _ => R result) p n := by
  induction p generalizing n with
  | stop result => exact fun _ _ => h
  | tell event rest ih => exact ih h
  | ask q resume ih => exact fun _ answer _ _ _ => ih answer (h.2 answer)

end Contracts

end Dpaste.InteractivePrograms
