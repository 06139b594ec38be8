import Dpaste.InteractivePrograms
import Dpaste.LabelledRuns

/-!
Parties that carry out tasks, one after the other, on shared surroundings, in any order of
their steps. A contract of each task holds of all tasks that end in a run.
-/

namespace Dpaste.ConcurrentParties

open Dpaste.EffectTraces
open Dpaste.InteractivePrograms
open Dpaste.LabelledRuns

/-- What a party is at: nothing, or a task of which a script is left. -/
inductive Activity (τ ε ω : Type) {κ : Type} (ρ : κ → Type) (α : Type)
  | idle
  | busy (task : τ) (left : Script ε ω ρ α)

inductive Label (ι τ ε ω : Type) {κ : Type} (ρ : κ → Type) (α δ : Type)
  | begins (party : ι) (task : τ)
  | tells (party : ι) (event : ε)
  | asks (party : ι) (question : κ) (answer : ρ question)
  | ends (party : ι) (task : τ) (result : Except ω α)
  | drifts (change : δ)

variable {ι τ ε ω κ α δ ν : Type} {ρ : κ → Type}

section Own

variable (program : τ → Script ε ω ρ α) (net : Surroundings ρ δ ν)

/-- The steps of one party: what it is at and the surroundings, before and after. -/
inductive Own (i : ι) : Activity τ ε ω ρ α → ν → Label ι τ ε ω ρ α δ →
    Activity τ ε ω ρ α → ν → Prop
  | begins (task : τ) (n : ν) : Own i .idle n (.begins i task) (.busy task (program task)) n
  | tells (task : τ) (event : ε) (rest : Script ε ω ρ α) (n : ν) :
      Own i (.busy task (.tell event rest)) n (.tells i event) (.busy task rest) n
  | asks (task : τ) {q : κ} (resume : ρ q → Script ε ω ρ α) {answer : ρ q} {n n' : ν} :
      net.answers n q answer n' →
      Own i (.busy task (.ask q resume)) n (.asks i q answer) (.busy task (resume answer)) n'
  | ends (task : τ) (result : Except ω α) (n : ν) :
      Own i (.busy task (.stop result)) n (.ends i task result) .idle n

variable {program net} {i j : ι} {a a' : Activity τ ε ω ρ α} {n n' : ν}

theorem Own.reaches {l : Label ι τ ε ω ρ α δ} (h : Own program net i a n l a' n') :
    net.Reaches n n' := by
  cases h with
  | begins | tells | ends => exact .refl
  | asks _ _ hanswer => exact Surroundings.reaches_of_answers hanswer

theorem Own.ends_inv {task : τ} {result : Except ω α}
    (h : Own program net j a n (.ends i task result) a' n') :
    j = i ∧ a = .busy task (.stop result) ∧ n' = n := by
  cases h
  exact ⟨rfl, rfl, rfl⟩

theorem Own.asks_inv {q : κ} {answer : ρ q}
    (h : Own program net j a n (.asks i q answer) a' n') :
    j = i ∧ (∃ task resume, a = .busy task (.ask q resume)) ∧ net.answers n q answer n' := by
  cases h with
  | asks task resume hanswer => exact ⟨rfl, ⟨task, resume, rfl⟩, hanswer⟩

end Own

structure System (ι τ ε ω : Type) {κ : Type} (ρ : κ → Type) (α ν : Type) where
  parties : ι → Activity τ ε ω ρ α
  net : ν

/-- The system with nobody at work. -/
def System.resting (n : ν) : System ι τ ε ω ρ α ν := ⟨fun _ => .idle, n⟩

variable [DecidableEq ι] {program : τ → Script ε ω ρ α} {net : Surroundings ρ δ ν}
  {s s' : System ι τ ε ω ρ α ν} {l : Label ι τ ε ω ρ α δ}
  {ls : List (Label ι τ ε ω ρ α δ)} {i : ι} {task : τ}

def System.now (s : System ι τ ε ω ρ α ν) (i : ι) (a : Activity τ ε ω ρ α) (n : ν) :
    System ι τ ε ω ρ α ν where
  parties := Function.update s.parties i a
  net := n

@[simp] theorem System.now_net (a : Activity τ ε ω ρ α) (n : ν) : (s.now i a n).net = n := rfl

@[simp] theorem System.now_self (a : Activity τ ε ω ρ α) (n : ν) :
    (s.now i a n).parties i = a := by
  simp [System.now]

theorem System.now_of_ne {j : ι} (h : j ≠ i) (a : Activity τ ε ω ρ α) (n : ν) :
    (s.now i a n).parties j = s.parties j := by
  simp [System.now, h]

inductive Step (program : τ → Script ε ω ρ α) (net : Surroundings ρ δ ν)
    (s : System ι τ ε ω ρ α ν) : Label ι τ ε ω ρ α δ → System ι τ ε ω ρ α ν → Prop
  | own {i : ι} {l : Label ι τ ε ω ρ α δ} {a : Activity τ ε ω ρ α} {n : ν} :
      Own program net i (s.parties i) s.net l a n → Step program net s l (s.now i a n)
  | drifts {change : δ} {n : ν} : net.drifts s.net change n →
      Step program net s (.drifts change) { s with net := n }

theorem Step.reaches (h : Step program net s l s') : net.Reaches s.net s'.net := by
  cases h with
  | own hown => exact hown.reaches
  | @drifts change _ hdrift => exact .single (.drifts change hdrift)

/-- Seen from one party, a step is one of its own or one elsewhere. -/
theorem Step.party (h : Step program net s l s') (i : ι) :
    s'.parties i = s.parties i ∨
      Own program net i (s.parties i) s.net l (s'.parties i) s'.net := by
  cases h with
  | @own j l a n hown =>
      rcases eq_or_ne i j with rfl | hij
      · rw [System.now_self]
        exact .inr hown
      · exact .inl (System.now_of_ne hij a n)
  | drifts _ => exact .inl rfl

theorem Step.ends_inv {result : Except ω α} (h : Step program net s (.ends i task result) s') :
    s.parties i = .busy task (.stop result) ∧ s'.net = s.net := by
  cases h with
  | own hown =>
      obtain ⟨rfl, hbusy, hnet⟩ := hown.ends_inv
      exact ⟨hbusy, hnet⟩

theorem Step.asks_inv {q : κ} {answer : ρ q} (h : Step program net s (.asks i q answer) s') :
    (∃ task resume, s.parties i = .busy task (.ask q resume)) ∧
      net.answers s.net q answer s'.net := by
  cases h with
  | own hown =>
      obtain ⟨rfl, hbusy, hanswer⟩ := hown.asks_inv
      exact ⟨hbusy, hanswer⟩

theorem run_reaches (h : Run (Step program net) s ls s') : net.Reaches s.net s'.net :=
  h.invariant (I := fun m => net.Reaches s.net m.net) .refl fun hm hstep =>
    hm.trans hstep.reaches

section Contracts

variable {post : τ → ν → Except ω α → ν → Prop} {first : ν}

/-- What the script that is left of a task will meet, whatever the others do. -/
def Pledge (net : Surroundings ρ δ ν) (post : τ → ν → Except ω α → ν → Prop) (first : ν)
    (now : ν) : Activity τ ε ω ρ α → Prop
  | .idle => True
  | .busy task left =>
      ∃ start, net.Reaches first start ∧ net.Reaches start now ∧
        Meets net (post task start) left now

/-- One step keeps the pledge of every party: its own steps do by the contract, and those
of the others since contracts allow for them. -/
theorem pledge_step (hmeets : ∀ task n, Meets net (post task n) (program task) n)
    (hfirst : net.Reaches first s.net) (i : ι)
    (hpledge : Pledge net post first s.net (s.parties i)) (h : Step program net s l s') :
    Pledge net post first s'.net (s'.parties i) := by
  have hreach := h.reaches
  rcases h.party i with hsame | hown
  · rw [hsame]
    cases hparty : s.parties i with
    | idle => trivial
    | busy task left =>
        rw [hparty] at hpledge
        obtain ⟨start, hstart, hnow, hleft⟩ := hpledge
        exact ⟨start, hstart, hnow.trans hreach, hleft.reaches hreach⟩
  · generalize s.parties i = a, s'.parties i = a', s.net = n, s'.net = n' at *
    cases hown with
    | begins task => exact ⟨n, hfirst, .refl, hmeets task n⟩
    | tells task event rest => exact hpledge
    | asks task resume hanswer =>
        obtain ⟨start, hstart, hnow, hleft⟩ := hpledge
        exact ⟨start, hstart, hnow.trans hreach, hleft n _ n' .refl hanswer⟩
    | ends task result => trivial

theorem run_pledge (hmeets : ∀ task n, Meets net (post task n) (program task) n)
    (hidle : s.parties i = .idle) (h : Run (Step program net) s ls s') :
    Pledge net post s.net s'.net (s'.parties i) := by
  induction h with
  | nil =>
      rw [hidle]
      trivial
  | snoc hrun hlast ih => exact pledge_step hmeets (run_reaches hrun) i ih hlast

/-- The contract of a task holds when it ends: of the surroundings in which it began and of
those in which it has ended, both on the way of the run. -/
theorem run_ends (hmeets : ∀ task n, Meets net (post task n) (program task) n)
    {result : Except ω α} (hidle : s.parties i = .idle)
    (h : Run (Step program net) s ls s') (hend : .ends i task result ∈ ls) :
    ∃ start stop, net.Reaches s.net start ∧ net.Reaches start stop ∧
      net.Reaches stop s'.net ∧ post task start result stop := by
  induction h with
  | nil => exact absurd hend List.not_mem_nil
  | @snoc ls l m m' hrun hlast ih =>
      rcases List.mem_append.mp hend with hend | hend
      · obtain ⟨start, stop, hstart, hstop, hrest, hpost⟩ := ih hend
        exact ⟨start, stop, hstart, hstop, hrest.trans hlast.reaches, hpost⟩
      · obtain rfl := List.mem_singleton.mp hend
        have hpledge := run_pledge hmeets hidle hrun
        rw [hlast.ends_inv.1] at hpledge
        obtain ⟨start, hstart, hnow, hleft⟩ := hpledge
        exact ⟨start, m.net, hstart, hnow, hlast.reaches, hleft m.net .refl⟩

end Contracts

section Dialogues

/-- What the party asks, with the answers that it is given. -/
def turns (i : ι) (ls : List (Label ι τ ε ω ρ α δ)) : List ((q : κ) × ρ q) :=
  ls.filterMap fun
    | .asks j q answer => if j = i then some ⟨q, answer⟩ else none
    | _ => none

theorem turns_append (i : ι) (ls ls' : List (Label ι τ ε ω ρ α δ)) :
    turns i (ls ++ ls') = turns i ls ++ turns i ls' := List.filterMap_append

theorem asks_of_mem_turns {q : κ} {answer : ρ q} (h : ⟨q, answer⟩ ∈ turns i ls) :
    .asks i q answer ∈ ls := by
  obtain ⟨l, hl, hturn⟩ := List.mem_filterMap.mp h
  split at hturn
  next j q' answer' =>
      obtain ⟨rfl, hsame⟩ := Option.ite_none_right_eq_some.mp hturn
      cases hsame
      exact hl
  next => cases hturn

/-- How the labels since a party has begun its task lead to what is left of the task. -/
def Underway (program : τ → Script ε ω ρ α) (i : ι) (ls : List (Label ι τ ε ω ρ α δ)) :
    Activity τ ε ω ρ α → Prop
  | .idle => True
  | .busy task left => ∃ before during, ls = before ++ .begins i task :: during ∧
      (∀ task', .begins i task' ∉ during) ∧
      ∀ rest x, Leads left rest x → Leads (program task) (turns i during ++ rest) x

omit [DecidableEq ι] in
theorem not_begins_snoc {during : List (Label ι τ ε ω ρ α δ)}
    (h : ∀ task, .begins i task ∉ during) (hl : ∀ task, l ≠ .begins i task) (task : τ) :
    .begins i task ∉ during ++ [l] := by
  simp [h task, (hl task).symm]

theorem Underway.snoc {a : Activity τ ε ω ρ α} (h : Underway program i ls a)
    (hl : turns i [l] = []) (hbegins : ∀ task, l ≠ .begins i task) :
    Underway program i (ls ++ [l]) a := by
  cases a with
  | idle => trivial
  | busy task left =>
      obtain ⟨before, during, rfl, hlast, hleads⟩ := h
      refine ⟨before, during ++ [l], by simp, not_begins_snoc hlast hbegins, ?_⟩
      rw [turns_append, hl, List.append_nil]
      exact hleads

theorem Underway.snoc_of_ne {j : ι} {a b b' : Activity τ ε ω ρ α} {n n' : ν}
    (hunderway : Underway program i ls a) (hji : j ≠ i) (h : Own program net j b n l b' n') :
    Underway program i (ls ++ [l]) a := by
  cases h with
  | begins task => exact hunderway.snoc rfl fun _ hsame => hji (Label.begins.inj hsame).1
  | tells | ends => exact hunderway.snoc rfl fun _ hsame => nomatch hsame
  | asks => exact hunderway.snoc (by simp [turns, hji]) fun _ hsame => nomatch hsame

theorem underway_step (hunderway : Underway program i ls (s.parties i))
    (h : Step program net s l s') : Underway program i (ls ++ [l]) (s'.parties i) := by
  cases h with
  | drifts _ => exact hunderway.snoc rfl fun _ hsame => nomatch hsame
  | @own j l a n hown =>
      rcases eq_or_ne j i with rfl | hji
      · rw [System.now_self]
        generalize s.parties j = a₀, s.net = n₀ at *
        cases hown with
        | begins task => exact ⟨ls, [], rfl, fun _ => List.not_mem_nil, fun _ _ hleads => hleads⟩
        | tells task event rest =>
            exact hunderway.snoc (a := .busy task rest) rfl fun _ hsame => nomatch hsame
        | @asks task q resume answer _ _ hanswer =>
            obtain ⟨before, during, rfl, hlast, hleads⟩ := hunderway
            refine ⟨before, during ++ [.asks j q answer], by simp,
              not_begins_snoc hlast (fun _ hsame => nomatch hsame), ?_⟩
            intro rest x hrest
            have hturns : turns j (during ++ [.asks j q answer]) ++ rest =
                turns j during ++ ⟨q, answer⟩ :: rest := by
              simp [turns]
            rw [hturns]
            exact hleads _ x ⟨answer, rest, rfl, hrest⟩
        | ends => trivial
      · rw [System.now_of_ne hji.symm]
        exact hunderway.snoc_of_ne hji hown

theorem run_underway (hidle : s.parties i = .idle) (h : Run (Step program net) s ls s') :
    Underway program i ls (s'.parties i) := by
  induction h with
  | nil =>
      rw [hidle]
      trivial
  | snoc _ hlast ih => exact underway_step ih hlast

/-- Between its begin and its end, a task asks what its script asks, whatever the others do,
and ends with the result to which the answers lead. -/
theorem run_leads {result : Except ω α} (hidle : s.parties i = .idle)
    (h : Run (Step program net) s ls s') (hend : .ends i task result ∈ ls) :
    ∃ before during after,
      ls = before ++ .begins i task :: (during ++ .ends i task result :: after) ∧
        Leads (program task) (turns i during) result := by
  obtain ⟨first, after, rfl⟩ := List.append_of_mem hend
  obtain ⟨m, _, hrun, hlast, _⟩ := h.step_inv
  have hunderway := run_underway hidle hrun
  rw [hlast.ends_inv.1] at hunderway
  obtain ⟨before, during, rfl, _, hleads⟩ := hunderway
  refine ⟨before, during, after, by simp, ?_⟩
  have hdone := hleads [] result ⟨rfl, rfl⟩
  rwa [List.append_nil] at hdone

end Dialogues

section Questions

variable {Q : τ → κ → Prop} {R : τ → Except ω α → Prop}

/-- What is left of a party's task keeps to what the task may ask. -/
def Engaged (Q : τ → κ → Prop) (R : τ → Except ω α → Prop) : Activity τ ε ω ρ α → Prop
  | .idle => True
  | .busy task left => Asks (Q task) (R task) left

theorem engaged_step (hasks : ∀ task, Asks (Q task) (R task) (program task)) (i : ι)
    (hengaged : Engaged Q R (s.parties i)) (h : Step program net s l s') :
    Engaged Q R (s'.parties i) := by
  rcases h.party i with hsame | hown
  · rw [hsame]
    exact hengaged
  · generalize s.parties i = a, s'.parties i = a', s.net = n, s'.net = n' at *
    cases hown with
    | begins task => exact hasks task
    | tells task event rest => exact hengaged
    | asks task resume hanswer => exact hengaged.2 _
    | ends task result => trivial

theorem run_engaged (hasks : ∀ task, Asks (Q task) (R task) (program task))
    (hidle : s.parties i = .idle) (h : Run (Step program net) s ls s') :
    Engaged Q R (s'.parties i) := by
  refine h.invariant (I := fun m => Engaged Q R (m.parties i)) ?_ ?_
  · rw [hidle]
    trivial
  · intro m l m' hm hstep
    exact engaged_step hasks i hm hstep

/-- Every question of a run is asked for the task that the party has begun last, and is one
that this task may ask. -/
theorem run_asks_last (hasks : ∀ task, Asks (Q task) (R task) (program task)) {q : κ}
    {answer : ρ q} {first after : List (Label ι τ ε ω ρ α δ)} (hidle : s.parties i = .idle)
    (h : Run (Step program net) s (first ++ .asks i q answer :: after) s') :
    ∃ before task during, first = before ++ .begins i task :: during ∧
      (∀ task', .begins i task' ∉ during) ∧ Q task q := by
  obtain ⟨m, _, hrun, hstep, _⟩ := h.step_inv
  obtain ⟨⟨task, resume, hbusy⟩, _⟩ := hstep.asks_inv
  have hengaged := run_engaged hasks hidle hrun
  have hunderway := run_underway hidle hrun
  rw [hbusy] at hengaged hunderway
  obtain ⟨before, during, hfirst, hlast, _⟩ := hunderway
  exact ⟨before, task, during, hfirst, hlast, hengaged.1⟩

theorem run_asks (hasks : ∀ task, Asks (Q task) (R task) (program task)) {q : κ}
    {answer : ρ q} (hidle : s.parties i = .idle) (h : Run (Step program net) s ls s')
    (hask : .asks i q answer ∈ ls) : ∃ task, .begins i task ∈ ls ∧ Q task q := by
  obtain ⟨first, after, rfl⟩ := List.append_of_mem hask
  obtain ⟨before, task, during, rfl, _, hq⟩ := run_asks_last hasks hidle h
  exact ⟨task, by simp, hq⟩

end Questions

section Alone

variable {σ : Type} (answer : (q : κ) → σ → ρ q × σ) {f : σ → ν}

/-- The labels of a task that goes on undisturbed. -/
def alone (i : ι) (task : τ) : Script ε ω ρ α → σ → List (Label ι τ ε ω ρ α δ)
  | .stop result, _ => [.ends i task result]
  | .tell event rest, w => .tells i event :: alone i task rest w
  | .ask q resume, w =>
      .asks i q (answer q w).1 :: alone i task (resume (answer q w).1) (answer q w).2

omit [DecidableEq ι] in
theorem ends_mem_alone (left : Script ε ω ρ α) (w : σ) :
    (.ends i task (left.run answer w).result : Label ι τ ε ω ρ α δ) ∈
      alone answer i task left w := by
  induction left generalizing w with
  | stop result => simp [alone]
  | tell event rest ih => exact List.mem_cons_of_mem _ (ih w)
  | ask q resume ih => exact List.mem_cons_of_mem _ (ih _ _)

/-- What a task says and asks while it goes on, and its end. -/
inductive Continuing (i : ι) (task : τ) : Label ι τ ε ω ρ α δ → Prop
  | tells (event : ε) : Continuing i task (.tells i event)
  | asks (q : κ) (answer : ρ q) : Continuing i task (.asks i q answer)
  | ends (result : Except ω α) : Continuing i task (.ends i task result)

omit [DecidableEq ι] in
theorem continuing_of_mem_alone {left : Script ε ω ρ α} {w : σ}
    (h : l ∈ alone answer i task left w) : Continuing i task l := by
  induction left generalizing w with
  | stop result =>
      rw [List.mem_singleton.mp h]
      exact .ends result
  | tell event rest ih =>
      rcases List.mem_cons.mp h with rfl | h
      · exact .tells event
      · exact ih h
  | ask q resume ih =>
      rcases List.mem_cons.mp h with rfl | h
      · exact .asks q _
      · exact ih _ h

theorem System.now_now (s : System ι τ ε ω ρ α ν) (a a' : Activity τ ε ω ρ α) (n n' : ν) :
    (s.now i a n).now i a' n' = s.now i a' n' := by
  simp [System.now]

theorem Own.run {l : Label ι τ ε ω ρ α δ} {a a' : Activity τ ε ω ρ α} {n n' : ν}
    (hparty : s.parties i = a) (hnet : s.net = n) (h : Own program net i a n l a' n') :
    Run (Step program net) s [l] (s.now i a' n') := by
  subst hparty hnet
  exact Run.nil.snoc (.own h)

theorem run_of_busy (hanswer : ∀ q w, net.answers (f w) q (answer q w).1 (f (answer q w).2))
    {left : Script ε ω ρ α} {w : σ} (hbusy : s.parties i = .busy task left)
    (hnet : s.net = f w) :
    Run (Step program net) s (alone answer i task left w)
      (s.now i .idle (f (left.run answer w).state)) := by
  induction left generalizing s w with
  | stop result =>
      rw [Script.run_stop]
      exact (Own.ends task result (f w)).run hbusy hnet
  | tell event rest ih =>
      have hrest := ih (s := s.now i (.busy task rest) (f w)) (System.now_self _ _) rfl
      rw [System.now_now] at hrest
      exact ((Own.tells task event rest (f w)).run hbusy hnet).trans hrest
  | ask q resume ih =>
      have hrest := ih (answer q w).1
        (s := s.now i (.busy task (resume (answer q w).1)) (f (answer q w).2))
        (System.now_self _ _) rfl
      rw [System.now_now] at hrest
      exact ((Own.asks task resume (hanswer q w)).run hbusy hnet).trans hrest

/-- A task that a party carries out undisturbed does what its script does alone, where `f`
tells what the surroundings are. -/
theorem run_alone (hanswer : ∀ q w, net.answers (f w) q (answer q w).1 (f (answer q w).2))
    (task : τ) {w : σ} (hidle : s.parties i = .idle) (hnet : s.net = f w) :
    Run (Step program net) s (.begins i task :: alone answer i task (program task) w)
      (s.now i .idle (f ((program task).run answer w).state)) := by
  have hbusy := System.now_self (s := s) (i := i) (.busy task (program task)) (f w)
  have hrest : Run (Step program net) _ _ _ := run_of_busy answer hanswer hbusy rfl
  rw [System.now_now] at hrest
  exact ((Own.begins task (f w)).run hidle hnet).trans hrest

end Alone

section Simulation

variable {ν' : Type} {net' : Surroundings ρ δ ν'} {f : ν → ν'}

/-- Surroundings that look, through `f`, like others. -/
structure Refines (f : ν → ν') (net : Surroundings ρ δ ν) (net' : Surroundings ρ δ ν') :
    Prop where
  answers : ∀ {n q answer n'}, net.answers n q answer n' → net'.answers (f n) q answer (f n')
  drifts : ∀ {n change n'}, net.drifts n change n' → net'.drifts (f n) change (f n')

theorem Refines.reaches (hrefines : Refines f net net') {n n' : ν} (h : net.Reaches n n') :
    net'.Reaches (f n) (f n') := by
  refine h.lift f fun _ _ hmove => ?_
  cases hmove with
  | answers q answer h => exact .answers q answer (hrefines.answers h)
  | drifts change h => exact .drifts change (hrefines.drifts h)

def System.map (f : ν → ν') (s : System ι τ ε ω ρ α ν) : System ι τ ε ω ρ α ν' :=
  ⟨s.parties, f s.net⟩

theorem Refines.step (hrefines : Refines f net net') (h : Step program net s l s') :
    Step program net' (s.map f) l (s'.map f) := by
  cases h with
  | @own i l a n hown =>
      have hown' : Own program net' i (s.parties i) (f s.net) l a (f n) := by
        generalize s.parties i = b, s.net = m at hown
        cases hown with
        | begins task => exact .begins task _
        | tells task event rest => exact .tells task event rest _
        | asks task resume hanswer => exact .asks task resume (hrefines.answers hanswer)
        | ends task result => exact .ends task result _
      exact .own (s := s.map f) hown'
  | drifts hdrift => exact .drifts (hrefines.drifts hdrift)

/-- A run on surroundings that refine others is a run on the others, with the same labels. -/
theorem Refines.run (hrefines : Refines f net net') (h : Run (Step program net) s ls s') :
    Run (Step program net') (s.map f) ls (s'.map f) := by
  induction h with
  | nil => exact .nil
  | snoc _ hlast ih => exact ih.snoc (hrefines.step hlast)

end Simulation

end Dpaste.ConcurrentParties
