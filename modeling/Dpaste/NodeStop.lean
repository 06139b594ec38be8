import Dpaste.BlockingPaste

/-!
`Node::stop`: the caller waits on a condition variable until the callback that it gave to
`shutdown` has set a flag, and joins the threads of the DHT. The callback notifies while it
holds the mutex. The DHT may call it at any time from the call of `shutdown` on.
-/

namespace Dpaste.NodeStop

open Dpaste.LabelledRuns
open Dpaste.BlockingPaste (Party)

/-- What the caller does next: call `node_.shutdown`, acquire `m`, evaluate the predicate of
`cv.wait`, be blocked there without the mutex, acquire the mutex again, call `node_.join`,
and clear `running_` and end the lifetime of the locals, where the mutex is released. -/
inductive CallerAt
  | shutdown
  | lock
  | test
  | waiting
  | woken
  | join
  | leave
  | returned
  deriving DecidableEq

/-- What the callback does next, once the DHT has called it: acquire `m`, write `done`, call
`cv.notify_all`, and release `m`. -/
inductive CallbackAt
  | absent
  | pending
  | lock
  | setDone
  | notify
  | unlock
  | finished
  deriving DecidableEq

/-- The two threads, the caller's locals and `running_`. `late` records that the callback has
touched the locals after the return. -/
structure State where
  caller : CallerAt
  callback : CallbackAt
  owner : Option Party
  done : Bool
  running_ : Bool
  late : Bool
  deriving DecidableEq

def State.initial (running : Bool) : State where
  caller := .shutdown
  callback := .absent
  owner := none
  done := false
  running_ := running
  late := false

def CallerAt.wakeUp : CallerAt → CallerAt
  | .waiting => .woken
  | c => c

def State.touched (s s' : State) : State :=
  { s' with late := s.late || s.caller == .returned }

/-- `node_.join` waits for the thread that runs the callback. -/
def callerStep (s : State) : Option State :=
  match s.caller with
  | .shutdown => some { s with caller := .lock, callback := .pending }
  | .lock =>
      if s.owner = none then some { s with caller := .test, owner := some .caller } else none
  | .test =>
      if s.done then some { s with caller := .join }
      else some { s with caller := .waiting, owner := none }
  | .waiting => none
  | .woken =>
      if s.owner = none then some { s with caller := .test, owner := some .caller } else none
  | .join => if s.callback = .finished then some { s with caller := .leave } else none
  | .leave => some { s with caller := .returned, owner := none, running_ := false }
  | .returned => none

def callbackStep (s : State) : Option State :=
  match s.callback with
  | .absent | .pending | .finished => none
  | .lock =>
      if s.owner = none then
        some (s.touched { s with callback := .setDone, owner := some .callback })
      else none
  | .setDone => some (s.touched { s with callback := .notify, done := true })
  | .notify => some (s.touched { s with callback := .unlock, caller := s.caller.wakeUp })
  | .unlock => some (s.touched { s with callback := .finished, owner := none })

inductive Action
  | caller
  | wake
  | call
  | callback
  deriving DecidableEq

def next (s : State) : Action → Option State
  | .caller => callerStep s
  | .wake => if s.caller = .waiting then some { s with caller := .woken } else none
  | .call => if s.callback = .pending then some { s with callback := .lock } else none
  | .callback => callbackStep s

def Step (s : State) (a : Action) (s' : State) : Prop := next s a = some s'

def CallerAt.holds : CallerAt → Bool
  | .test | .join | .leave => true
  | _ => false

def CallerAt.pastWait : CallerAt → Bool
  | .join | .leave | .returned => true
  | _ => false

def CallbackAt.holds : CallbackAt → Bool
  | .setDone | .notify | .unlock => true
  | _ => false

def CallbackAt.pastWrite : CallbackAt → Bool
  | .notify | .unlock | .finished => true
  | _ => false

/-- The invariant of all interleavings. A caller that has seen `done` holds the mutex, or
has returned, and so the callback is over. -/
structure Inv (s : State) : Prop where
  callerHolds : s.owner = some .caller ↔ s.caller.holds = true
  callbackHolds : s.owner = some .callback ↔ s.callback.holds = true
  started : s.caller = .shutdown ↔ s.callback = .absent
  written : s.done = s.callback.pastWrite
  notified : s.caller = .waiting → s.callback ≠ .unlock ∧ s.callback ≠ .finished
  outlived : s.caller.pastWait = true → s.callback = .finished
  stopped : s.caller = .returned → s.running_ = false
  intime : s.late = false

theorem inv_initial (running : Bool) : Inv (State.initial running) := by
  constructor <;> simp [State.initial, CallerAt.holds, CallbackAt.holds, CallbackAt.pastWrite,
    CallerAt.pastWait]

theorem CallerAt.wakeUp_ne_waiting (c : CallerAt) : c.wakeUp ≠ .waiting := by
  cases c <;> simp [wakeUp]

namespace Inv

variable {s s' : State} (h : Inv s)

include h

/-- A caller that holds the mutex and sees the flag finds the callback at its end. -/
theorem finished_of_done (hdone : s.done = true) (hholds : s.caller.holds = true) :
    s.callback = .finished := by
  have howner : s.owner = some .caller := h.callerHolds.mpr hholds
  have hfree : ¬s.callback.holds = true := mt h.callbackHolds.mpr (by simp [howner])
  have hwritten := h.written
  rw [hdone] at hwritten
  cases hcallback : s.callback with
  | finished => rfl
  | absent | pending | lock | setDone =>
      rw [hcallback] at hwritten
      cases hwritten
  | notify | unlock =>
      rw [hcallback] at hfree
      exact absurd rfl hfree

theorem callback_not_holds (howner : s.owner ≠ some .callback) : ¬s.callback.holds = true :=
  mt h.callbackHolds.mpr howner

/-- A step of the caller that keeps to the mutex, once the callback is given to the DHT. -/
theorem move {c : CallerAt} {owner : Option Party} (hstarted : s.caller ≠ .shutdown)
    (hc : c ≠ .shutdown ∧ c ≠ .returned) (hcaller : owner = some .caller ↔ c.holds = true)
    (hcallback : owner = some .callback ↔ s.callback.holds = true)
    (hnotified : c = .waiting → s.callback ≠ .unlock ∧ s.callback ≠ .finished)
    (houtlived : c.pastWait = true → s.callback = .finished) :
    Inv { s with caller := c, owner := owner } :=
  { h with
    callerHolds := hcaller
    callbackHolds := hcallback
    started := iff_of_false hc.1 (mt h.started.mpr hstarted)
    notified := hnotified
    outlived := houtlived
    stopped := fun hreturned => absurd hreturned hc.2 }

theorem callerStep (hstep : NodeStop.callerStep s = some s') : Inv s' := by
  unfold NodeStop.callerStep at hstep
  cases hcaller : s.caller with
  | waiting | returned =>
      rw [hcaller] at hstep
      cases hstep
  | shutdown =>
      rw [hcaller] at hstep
      obtain rfl := Option.some.inj hstep
      have habsent := h.started.mp hcaller
      have hcallerHolds := h.callerHolds
      have hcallbackHolds := h.callbackHolds
      have hwritten := h.written
      rw [hcaller] at hcallerHolds
      rw [habsent] at hcallbackHolds hwritten
      exact { h with
        callerHolds := hcallerHolds
        callbackHolds := hcallbackHolds
        started := iff_of_false (by simp) (by simp)
        written := hwritten
        notified := fun hwaiting => by cases hwaiting
        outlived := fun hpast => absurd hpast Bool.false_ne_true
        stopped := fun hreturned => by cases hreturned }
  | lock | woken =>
      rw [hcaller] at hstep
      obtain ⟨howner, hs'⟩ := Option.ite_none_right_eq_some.mp hstep
      obtain rfl := Option.some.inj hs'
      exact h.move (by simp [hcaller]) (by simp) (iff_of_true rfl rfl)
        (iff_of_false (by simp) (h.callback_not_holds (by simp [howner])))
        (fun hwaiting => by cases hwaiting) (fun hpast => absurd hpast Bool.false_ne_true)
  | test =>
      rw [hcaller] at hstep
      have hholds : s.caller.holds = true := by rw [hcaller]; rfl
      have howner : s.owner = some .caller := h.callerHolds.mpr hholds
      have hfree := h.callback_not_holds (by simp [howner])
      by_cases hdone : s.done = true
      · obtain rfl := Option.some.inj ((if_pos hdone).symm.trans hstep)
        exact h.move (by simp [hcaller]) (by simp) (iff_of_true howner rfl) h.callbackHolds
          (fun hwaiting => by cases hwaiting) (fun _ => h.finished_of_done hdone hholds)
      · obtain rfl := Option.some.inj ((if_neg hdone).symm.trans hstep)
        have hwritten : ¬s.callback.pastWrite = true := by rwa [← h.written]
        refine h.move (by simp [hcaller]) (by simp) (iff_of_false (by simp) Bool.false_ne_true)
          (iff_of_false (by simp) hfree) (fun _ => ⟨?_, ?_⟩)
          (fun hpast => absurd hpast Bool.false_ne_true)
        · rintro hunlock
          exact hwritten (by rw [hunlock]; rfl)
        · rintro hfinished
          exact hwritten (by rw [hfinished]; rfl)
  | join =>
      rw [hcaller] at hstep
      obtain ⟨hfinished, hs'⟩ := Option.ite_none_right_eq_some.mp hstep
      obtain rfl := Option.some.inj hs'
      have howner : s.owner = some .caller := h.callerHolds.mpr (by rw [hcaller]; rfl)
      exact h.move (by simp [hcaller]) (by simp) (iff_of_true howner rfl) h.callbackHolds
        (fun hwaiting => by cases hwaiting) (fun _ => hfinished)
  | leave =>
      rw [hcaller] at hstep
      obtain rfl := Option.some.inj hstep
      have hfinished := h.outlived (by rw [hcaller]; rfl)
      exact { h with
        callerHolds := iff_of_false (by simp) Bool.false_ne_true
        callbackHolds := iff_of_false (by simp) (by simp [hfinished, CallbackAt.holds])
        started := iff_of_false (by simp) (by simp [hfinished])
        notified := fun hwaiting => by cases hwaiting
        outlived := fun _ => hfinished
        stopped := fun _ => rfl }

theorem wake (hcaller : s.caller = .waiting) : Inv { s with caller := .woken } :=
  h.move (by simp [hcaller]) (by simp) (h.callerHolds.trans (by rw [hcaller]; rfl))
    h.callbackHolds (fun hwaiting => by cases hwaiting)
    (fun hpast => absurd hpast Bool.false_ne_true)

theorem not_returned (hrunning : s.callback ≠ .finished) : s.caller ≠ .returned := by
  intro hreturned
  exact hrunning (h.outlived (by rw [hreturned]; rfl))

theorem touched_eq (hrunning : s.callback ≠ .finished) (s' : State) :
    s.touched s' = { s' with late := s.late } := by
  simp [State.touched, h.not_returned hrunning]

/-- A step of the running callback that keeps to the mutex and writes `done` when it says. -/
theorem advance {c : CallbackAt} {owner : Option Party} {done : Bool}
    (hrunning : s.callback ≠ .finished) (hpresent : s.callback ≠ .absent ∧ c ≠ .absent)
    (hwritten : done = c.pastWrite) (hcaller : owner = some .caller ↔ s.caller.holds = true)
    (hcallback : owner = some .callback ↔ c.holds = true)
    (hnotified : s.caller = .waiting → c ≠ .unlock ∧ c ≠ .finished) :
    Inv { s with callback := c, owner := owner, done := done } :=
  { h with
    callerHolds := hcaller
    callbackHolds := hcallback
    started := h.started.trans (iff_of_false hpresent.1 hpresent.2)
    written := hwritten
    notified := hnotified
    outlived := fun hpast => absurd (h.outlived hpast) hrunning }

theorem callbackStep (hstep : NodeStop.callbackStep s = some s') : Inv s' := by
  unfold NodeStop.callbackStep at hstep
  have hholds := h.callbackHolds
  have hwritten := h.written
  have hnotified := h.notified
  cases hcallback : s.callback with
  | absent | pending | finished =>
      rw [hcallback] at hstep
      cases hstep
  | lock =>
      have hrunning : s.callback ≠ .finished := by simp [hcallback]
      rw [hcallback] at hstep hwritten
      obtain ⟨howner, hs'⟩ := Option.ite_none_right_eq_some.mp hstep
      obtain rfl := Option.some.inj hs'
      rw [h.touched_eq hrunning]
      have hfree : ¬s.caller.holds = true := mt h.callerHolds.mpr (by simp [howner])
      exact h.advance hrunning (by simp [hcallback]) hwritten (iff_of_false (by simp) hfree)
        (iff_of_true rfl rfl) fun _ => by simp
  | setDone =>
      have hrunning : s.callback ≠ .finished := by simp [hcallback]
      rw [hcallback] at hstep hholds
      obtain rfl := Option.some.inj hstep
      rw [h.touched_eq hrunning]
      exact h.advance hrunning (by simp [hcallback]) rfl h.callerHolds hholds fun _ => by simp
  | notify =>
      have hrunning : s.callback ≠ .finished := by simp [hcallback]
      rw [hcallback] at hstep hholds hwritten
      obtain rfl := Option.some.inj hstep
      rw [h.touched_eq hrunning]
      -- the caller is woken first, then the callback goes on
      have hwoken : Inv { s with caller := s.caller.wakeUp } := by
        cases hcaller : s.caller with
        | waiting => exact h.wake hcaller
        | shutdown | lock | test | woken | join | leave | returned =>
            simpa only [CallerAt.wakeUp, ← hcaller] using h
      exact hwoken.advance hrunning (by simp [hcallback]) hwritten hwoken.callerHolds hholds
        fun hwaiting => absurd hwaiting s.caller.wakeUp_ne_waiting
  | unlock =>
      have hrunning : s.callback ≠ .finished := by simp [hcallback]
      rw [hcallback] at hstep hnotified hwritten
      obtain rfl := Option.some.inj hstep
      rw [h.touched_eq hrunning]
      have howner : s.owner = some .callback := h.callbackHolds.mpr (by rw [hcallback]; rfl)
      have hfree : ¬s.caller.holds = true := mt h.callerHolds.mpr (by simp [howner])
      exact h.advance hrunning (by simp [hcallback]) hwritten (iff_of_false (by simp) hfree)
        (iff_of_false (by simp) Bool.false_ne_true) fun hwaiting =>
          absurd rfl (hnotified hwaiting).1

end Inv

theorem inv_step {s s' : State} {a : Action} (h : Inv s) (hstep : Step s a s') : Inv s' := by
  cases a with
  | caller => exact h.callerStep hstep
  | callback => exact h.callbackStep hstep
  | wake =>
      obtain ⟨hcaller, hs'⟩ := Option.ite_none_right_eq_some.mp hstep
      obtain rfl := Option.some.inj hs'
      exact h.wake hcaller
  | call =>
      obtain ⟨hcallback, hs'⟩ := Option.ite_none_right_eq_some.mp hstep
      obtain rfl := Option.some.inj hs'
      have hrunning := h.not_returned (by simp [hcallback])
      exact { h with
        callbackHolds := h.callbackHolds.trans (by rw [hcallback]; rfl)
        started := h.started.trans (iff_of_false (by simp [hcallback]) (by simp))
        written := h.written.trans (by rw [hcallback]; rfl)
        notified := fun _ => by simp
        outlived := fun hpast => absurd ((h.outlived hpast).symm.trans hcallback) (by simp) }

/-- No thread can go on, and the DHT has no callback to call. Spurious wake-ups do not
count. -/
def Stuck (s : State) : Prop := ∀ a, a ≠ .wake → next s a = none

/-- No wake-up is lost, and nobody waits for the mutex forever. -/
theorem Inv.returned_of_stuck {s : State} (h : Inv s) (hstuck : Stuck s) :
    s.caller = .returned := by
  have hcaller : NodeStop.callerStep s = none := hstuck .caller (by decide)
  have hcall : next s .call = none := hstuck .call (by decide)
  have hcallback : NodeStop.callbackStep s = none := hstuck .callback (by decide)
  have hpending : s.callback ≠ .pending := by
    intro hp
    simp [next, hp] at hcall
  -- the callback is absent, at its end, or waits for the mutex
  have hends : s.callback = .absent ∨ s.callback = .finished ∨
      s.callback = .lock ∧ s.owner ≠ none := by
    cases hc : s.callback with
    | absent => exact .inl rfl
    | finished => exact .inr (.inl rfl)
    | pending => exact absurd hc hpending
    | lock =>
        refine .inr (.inr ⟨rfl, fun howner => ?_⟩)
        simp [NodeStop.callbackStep, hc, howner] at hcallback
    | setDone | notify | unlock => simp [NodeStop.callbackStep, hc] at hcallback
  have hfree : s.owner ≠ some .callback := by
    intro howner
    have hholds := h.callbackHolds.mp howner
    rcases hends with hc | hc | ⟨hc, -⟩ <;> simp [hc, CallbackAt.holds] at hholds
  cases hc : s.caller with
  | returned => rfl
  | shutdown | leave => simp [NodeStop.callerStep, hc] at hcaller
  | test =>
      rw [NodeStop.callerStep, hc] at hcaller
      dsimp only at hcaller
      split at hcaller <;> cases hcaller
  | join =>
      have houtlived := h.outlived (by rw [hc]; rfl)
      simp [NodeStop.callerStep, hc, houtlived] at hcaller
  | lock | woken =>
      cases howner : s.owner with
      | none => simp [NodeStop.callerStep, hc, howner] at hcaller
      | some party =>
          cases party with
          | caller => simpa [hc, CallerAt.holds] using h.callerHolds.mp howner
          | callback => exact absurd howner hfree
  | waiting =>
      have hnotified := h.notified hc
      rcases hends with he | he | ⟨-, howner⟩
      · have := h.started.mpr he
        simp [hc] at this
      · exact absurd he hnotified.2
      · cases howner' : s.owner with
        | none => exact absurd howner' howner
        | some party =>
            cases party with
            | caller => simpa [hc, CallerAt.holds] using h.callerHolds.mp howner'
            | callback => exact absurd howner' hfree

/-- What is left to do for the two threads, if nobody is woken without cause. -/
def CallerAt.left : CallerAt → Nat
  | .shutdown => 6
  | .lock | .woken => 5
  | .test => 4
  | .waiting => 3
  | .join => 2
  | .leave => 1
  | .returned => 0

def CallbackAt.left : CallbackAt → Nat
  | .absent | .pending => 7
  | .lock => 6
  | .setDone => 5
  | .notify => 4
  | .unlock => 1
  | .finished => 0

theorem CallerAt.left_wakeUp (c : CallerAt) : c.wakeUp.left ≤ c.left + 2 := by
  cases c <;> decide

/-- A spurious wake-up is the only step after which more is left to do. -/
theorem left_step {s s' : State} {a : Action} (h : Inv s) (hstep : Step s a s') :
    s'.caller.left + s'.callback.left + 1 ≤
      s.caller.left + s.callback.left + if a == .wake then 3 else 0 := by
  cases a with
  | wake =>
      obtain ⟨hcaller, hs'⟩ := Option.ite_none_right_eq_some.mp hstep
      obtain rfl := Option.some.inj hs'
      rw [hcaller]
      show 5 + s.callback.left + 1 ≤ 3 + s.callback.left + 3
      omega
  | call =>
      obtain ⟨hcallback, hs'⟩ := Option.ite_none_right_eq_some.mp hstep
      obtain rfl := Option.some.inj hs'
      rw [hcallback]
      exact Nat.le_refl _
  | caller =>
      rw [Step, next, callerStep] at hstep
      cases hcaller : s.caller with
      | waiting | returned =>
          rw [hcaller] at hstep
          cases hstep
      | shutdown =>
          have habsent := h.started.mp hcaller
          rw [hcaller] at hstep
          obtain rfl := Option.some.inj hstep
          rw [habsent]
          exact Nat.le_refl _
      | leave =>
          rw [hcaller] at hstep
          obtain rfl := Option.some.inj hstep
          show 0 + s.callback.left + 1 ≤ 1 + s.callback.left
          omega
      | lock | woken =>
          rw [hcaller] at hstep
          obtain ⟨-, hs'⟩ := Option.ite_none_right_eq_some.mp hstep
          obtain rfl := Option.some.inj hs'
          show 4 + s.callback.left + 1 ≤ 5 + s.callback.left
          omega
      | join =>
          rw [hcaller] at hstep
          obtain ⟨-, hs'⟩ := Option.ite_none_right_eq_some.mp hstep
          obtain rfl := Option.some.inj hs'
          show 1 + s.callback.left + 1 ≤ 2 + s.callback.left
          omega
      | test =>
          rw [hcaller] at hstep
          by_cases hdone : s.done = true
          · obtain rfl := Option.some.inj ((if_pos hdone).symm.trans hstep)
            show 2 + s.callback.left + 1 ≤ 4 + s.callback.left
            omega
          · obtain rfl := Option.some.inj ((if_neg hdone).symm.trans hstep)
            show 3 + s.callback.left + 1 ≤ 4 + s.callback.left
            omega
  | callback =>
      rw [Step, next, callbackStep] at hstep
      cases hcallback : s.callback with
      | absent | pending | finished =>
          rw [hcallback] at hstep
          cases hstep
      | lock =>
          rw [hcallback] at hstep
          obtain ⟨-, hs'⟩ := Option.ite_none_right_eq_some.mp hstep
          obtain rfl := Option.some.inj hs'
          exact Nat.le_refl _
      | setDone =>
          rw [hcallback] at hstep
          obtain rfl := Option.some.inj hstep
          exact Nat.le_refl _
      | notify =>
          -- the caller has more to do, but the callback much less
          rw [hcallback] at hstep
          obtain rfl := Option.some.inj hstep
          have hwoken := s.caller.left_wakeUp
          show s.caller.wakeUp.left + 1 + 1 ≤ s.caller.left + 4
          omega
      | unlock =>
          rw [hcallback] at hstep
          obtain rfl := Option.some.inj hstep
          exact Nat.le_refl _

/-- `Node::stop` comes back: every interleaving ends unless the caller is woken without cause
again and again, and it ends with the return of the caller. By then the callback is over and
has never used a local of a call that had returned. -/
theorem stop_completes (running : Bool) (actions : List Action) (s : State)
    (h : Run Step (State.initial running) actions s) :
    (s.caller = .returned → s.callback = .finished ∧ s.running_ = false) ∧ s.late = false ∧
      (Stuck s → s.caller = .returned) ∧
      actions.length ≤ 13 + 3 * actions.countP (· == .wake) := by
  have hinv : Inv s := h.invariant (inv_initial running) fun hs hstep => inv_step hs hstep
  have hlength := h.length_le (inv_initial running) (fun hs hstep => inv_step hs hstep)
    fun hs hstep => left_step hs hstep
  refine ⟨fun hreturned => ⟨?_, hinv.stopped hreturned⟩, hinv.intime, hinv.returned_of_stuck, ?_⟩
  · exact hinv.outlived (by rw [hreturned]; rfl)
  · have hinitial :
        (State.initial running).caller.left + (State.initial running).callback.left = 13 := rfl
    omega

def hurried : List Action :=
  [.caller, .caller, .caller, .wake, .caller, .caller, .call, .callback, .callback, .callback,
    .callback, .caller, .caller, .caller, .caller]

theorem stop_completes_sample :
    follow next (State.initial true) hurried =
        some ⟨.returned, .finished, none, true, false, false⟩ ∧
      hurried.length ≤ 13 + 3 * hurried.countP (· == .wake) :=
  ⟨rfl, (stop_completes true hurried _ (run_of_follow rfl)).2.2.2⟩

end Dpaste.NodeStop
