import Dpaste.LabelledRuns

/-!
`Node::paste` without a callback: the caller waits on a condition variable until the
callback that it gave to the DHT has reported. Caller and callback run in two threads, and
the callback captures the caller's locals by reference.
-/

namespace Dpaste.BlockingPaste

open Dpaste.LabelledRuns

inductive Party
  | caller
  | callback
  deriving DecidableEq

/-- What the caller does next: acquire `mtx`, call `node_.put`, evaluate the predicate of
`cv.wait`, be blocked there without the mutex, acquire the mutex again, read `success_`, and
release the mutex at the end of the lifetime of the locals. -/
inductive CallerAt
  | lock
  | put
  | test
  | waiting
  | woken
  | read
  | leave (value : Bool)
  | returned (value : Bool)
  deriving DecidableEq

/-- What the callback does next. Before `put` it is absent, and pending until the DHT calls
it; then it looks at the flag and writes `success_` or reports the failure, acquires `mtx`,
writes `done`, releases `mtx` and calls `cv.notify_all`. -/
inductive CallbackAt
  | absent
  | pending
  | called (success : Bool)
  | lock
  | setDone
  | unlock
  | notify
  | finished
  deriving DecidableEq

/-- The two threads and the caller's locals. `given` is the flag with which the callback was
called. `late` records that the callback has touched the locals after the return. -/
structure State where
  caller : CallerAt
  callback : CallbackAt
  owner : Option Party
  done : Bool
  success_ : Bool
  given : Option Bool
  late : Bool
  deriving DecidableEq

/-- The start of the blocking branch. The local `done` has no initialiser. -/
def State.initial (done : Bool) : State where
  caller := .lock
  callback := .absent
  owner := none
  done := done
  success_ := false
  given := none
  late := false

def CallerAt.hasReturned : CallerAt → Bool
  | .returned _ => true
  | _ => false

/-- `notify_all` wakes a caller that is blocked. -/
def CallerAt.wakeUp : CallerAt → CallerAt
  | .waiting => .woken
  | c => c

/-- The state after a step of the callback that uses the caller's locals. -/
def State.touched (s s' : State) : State :=
  { s' with late := s.late || s.caller.hasReturned }

def callerStep (s : State) : Option State :=
  match s.caller with
  | .lock =>
      if s.owner = none then some { s with caller := .put, owner := some .caller } else none
  | .put => some { s with caller := .test, callback := .pending }
  | .test =>
      if s.done then some { s with caller := .read }
      else some { s with caller := .waiting, owner := none }
  | .waiting => none
  | .woken =>
      if s.owner = none then some { s with caller := .test, owner := some .caller } else none
  | .read => some { s with caller := .leave s.success_ }
  | .leave value => some { s with caller := .returned value, owner := none }
  | .returned _ => none

def callbackStep (s : State) : Option State :=
  match s.callback with
  | .absent | .pending | .finished => none
  | .called true => some (s.touched { s with callback := .lock, success_ := true })
  | .called false => some { s with callback := .lock }
  | .lock =>
      if s.owner = none then
        some (s.touched { s with callback := .setDone, owner := some .callback })
      else none
  | .setDone => some (s.touched { s with callback := .unlock, done := true })
  | .unlock => some (s.touched { s with callback := .notify, owner := none })
  | .notify =>
      some (s.touched { s with callback := .finished, caller := s.caller.wakeUp })

/-- The scheduler's choices. `wake` is a spurious wake-up, and `call` the call that the DHT
makes once, with some flag. -/
inductive Action
  | caller
  | wake
  | call (success : Bool)
  | callback
  deriving DecidableEq

def next (s : State) : Action → Option State
  | .caller => callerStep s
  | .wake => if s.caller = .waiting then some { s with caller := .woken } else none
  | .call success =>
      if s.callback = .pending then
        some { s with callback := .called success, given := some success }
      else none
  | .callback => callbackStep s

def Step (s : State) (a : Action) (s' : State) : Prop := next s a = some s'

/-- If the caller has returned, it has returned the flag of the callback, and the callback has
not touched the locals since. -/
def Safe (s : State) : Prop :=
  (∀ value, s.caller = .returned value → s.given = some value) ∧ s.late = false

/-- The caller does not return between the callback's release of the mutex and the end of
its `notify_all`. -/
def Admits (s : State) (a : Action) : Prop :=
  a = .caller → ∀ value, s.caller = .leave value → s.callback ≠ .notify

instance (s : State) (a : Action) : Decidable (Admits s a) :=
  inferInstanceAs (Decidable (a = .caller → ∀ value, s.caller = .leave value →
    s.callback ≠ .notify))

def CallerAt.pastWait : CallerAt → Bool
  | .read | .leave _ | .returned _ => true
  | _ => false

def CallerAt.holds : CallerAt → Bool
  | .put | .test | .read | .leave _ => true
  | _ => false

def CallbackAt.holds : CallbackAt → Bool
  | .setDone | .unlock => true
  | _ => false

def CallbackAt.pastWrite : CallbackAt → Bool
  | .unlock | .notify | .finished => true
  | _ => false

/-- The invariant of all interleavings, whatever `done` holds at the start: who holds the
mutex, and that no notification is lost. -/
structure Live (s : State) : Prop where
  callerHolds : s.owner = some .caller ↔ s.caller.holds = true
  callbackHolds : s.owner = some .callback ↔ s.callback.holds = true
  started : s.caller = .lock ∨ s.caller = .put ↔ s.callback = .absent
  written : s.callback.pastWrite = true → s.done = true
  notified : s.caller = .waiting → s.callback ≠ .finished

theorem live_initial (done : Bool) : Live (State.initial done) := by
  constructor <;> simp [State.initial, CallerAt.holds, CallbackAt.holds, CallbackAt.pastWrite]

theorem CallerAt.wakeUp_ne_waiting (c : CallerAt) : c.wakeUp ≠ .waiting := by
  cases c <;> simp [wakeUp]

namespace Live

variable {s s' : State} (h : Live s)

include h

theorem callback_not_holds (howner : s.owner ≠ some .callback) : ¬s.callback.holds = true :=
  mt h.callbackHolds.mpr howner

theorem caller_not_holds (howner : s.owner ≠ some .caller) : ¬s.caller.holds = true :=
  mt h.callerHolds.mpr howner

/-- A step of the caller that keeps to the mutex. Nothing else of the state matters. -/
theorem move {c : CallerAt} {owner : Option Party}
    (hstarted : c = .lock ∨ c = .put ↔ s.callback = .absent)
    (hcaller : owner = some .caller ↔ c.holds = true)
    (hcallback : owner = some .callback ↔ s.callback.holds = true)
    (hnotified : c = .waiting → s.callback ≠ .finished) :
    Live { s with caller := c, owner := owner } :=
  { h with
    callerHolds := hcaller
    callbackHolds := hcallback
    started := hstarted
    notified := hnotified }

theorem started_of_ne (hlock : s.caller ≠ .lock) (hput : s.caller ≠ .put) {c : CallerAt}
    (hlock' : c ≠ .lock) (hput' : c ≠ .put) : c = .lock ∨ c = .put ↔ s.callback = .absent :=
  (iff_of_false (not_or.mpr ⟨hlock', hput'⟩) (not_or.mpr ⟨hlock, hput⟩)).trans h.started

theorem callerStep (hstep : BlockingPaste.callerStep s = some s') : Live s' := by
  unfold BlockingPaste.callerStep at hstep
  have hstarted := h.started
  cases hcaller : s.caller with
  | waiting | returned v =>
      rw [hcaller] at hstep
      cases hstep
  | lock =>
      rw [hcaller] at hstep hstarted
      obtain ⟨howner, hs'⟩ := Option.ite_none_right_eq_some.mp hstep
      obtain rfl := Option.some.inj hs'
      exact h.move (iff_of_true (.inr rfl) (hstarted.mp (.inl rfl))) (iff_of_true rfl rfl)
        (iff_of_false (by simp) (h.callback_not_holds (by simp [howner])))
        fun hwaiting => by cases hwaiting
  | woken =>
      rw [hcaller] at hstep
      obtain ⟨howner, hs'⟩ := Option.ite_none_right_eq_some.mp hstep
      obtain rfl := Option.some.inj hs'
      exact h.move
        (h.started_of_ne (by simp [hcaller]) (by simp [hcaller]) (by simp) (by simp))
        (iff_of_true rfl rfl)
        (iff_of_false (by simp) (h.callback_not_holds (by simp [howner])))
        fun hwaiting => by cases hwaiting
  | put =>
      rw [hcaller] at hstep hstarted
      obtain rfl := Option.some.inj hstep
      have habsent := hstarted.mp (.inr rfl)
      have howner : s.owner = some .caller := h.callerHolds.mpr (by rw [hcaller]; rfl)
      exact { h with
        callerHolds := iff_of_true howner rfl
        callbackHolds := h.callbackHolds.trans (by rw [habsent]; rfl)
        started := iff_of_false (by simp) (by simp)
        written := fun hpast => absurd hpast Bool.false_ne_true
        notified := fun hwaiting => by cases hwaiting }
  | test =>
      rw [hcaller] at hstep
      have howner : s.owner = some .caller := h.callerHolds.mpr (by rw [hcaller]; rfl)
      by_cases hdone : s.done = true
      · obtain rfl := Option.some.inj ((if_pos hdone).symm.trans hstep)
        exact h.move
          (h.started_of_ne (by simp [hcaller]) (by simp [hcaller]) (by simp) (by simp))
          (iff_of_true howner rfl) h.callbackHolds fun hwaiting => by cases hwaiting
      · obtain rfl := Option.some.inj ((if_neg hdone).symm.trans hstep)
        refine h.move
          (h.started_of_ne (by simp [hcaller]) (by simp [hcaller]) (by simp) (by simp))
          (iff_of_false (by simp) Bool.false_ne_true)
          (iff_of_false (by simp) (h.callback_not_holds (by simp [howner]))) ?_
        rintro _ hfinished
        exact hdone (h.written (by rw [hfinished]; rfl))
  | read =>
      rw [hcaller] at hstep
      obtain rfl := Option.some.inj hstep
      exact h.move
        (h.started_of_ne (by simp [hcaller]) (by simp [hcaller]) (by simp) (by simp))
        (iff_of_true (h.callerHolds.mpr (by rw [hcaller]; rfl)) rfl) h.callbackHolds
        fun hwaiting => by cases hwaiting
  | leave v =>
      rw [hcaller] at hstep
      obtain rfl := Option.some.inj hstep
      have howner : s.owner = some .caller := h.callerHolds.mpr (by rw [hcaller]; rfl)
      exact h.move
        (h.started_of_ne (by simp [hcaller]) (by simp [hcaller]) (by simp) (by simp))
        (iff_of_false (by simp) Bool.false_ne_true)
        (iff_of_false (by simp) (h.callback_not_holds (by simp [howner])))
        fun hwaiting => by cases hwaiting

theorem wake (hcaller : s.caller = .waiting) : Live { s with caller := .woken } :=
  h.move (h.started_of_ne (by simp [hcaller]) (by simp [hcaller]) (by simp) (by simp))
    (h.callerHolds.trans (by rw [hcaller]; rfl)) h.callbackHolds
    fun hwaiting => by cases hwaiting

theorem call (success : Bool) (hcallback : s.callback = .pending) :
    Live { s with callback := .called success, given := some success } :=
  { h with
    callbackHolds := h.callbackHolds.trans (by rw [hcallback]; rfl)
    started := h.started.trans (iff_of_false (by simp [hcallback]) (by simp))
    written := fun hpast => absurd hpast Bool.false_ne_true
    notified := fun _ => by simp }

/-- A step of the running callback that keeps to the mutex and writes `done` when it says. -/
theorem advance {c : CallbackAt} {owner : Option Party} {done success late : Bool}
    (hpresent : s.callback ≠ .absent ∧ c ≠ .absent)
    (hwritten : c.pastWrite = true → done = true)
    (hcaller : owner = some .caller ↔ s.caller.holds = true)
    (hcallback : owner = some .callback ↔ c.holds = true)
    (hnotified : s.caller = .waiting → c ≠ .finished) :
    Live { s with
      callback := c, owner := owner, done := done, success_ := success, late := late } :=
  { h with
    callerHolds := hcaller
    callbackHolds := hcallback
    started := h.started.trans (iff_of_false hpresent.1 hpresent.2)
    written := hwritten
    notified := hnotified }

theorem callbackStep (hstep : BlockingPaste.callbackStep s = some s') : Live s' := by
  unfold BlockingPaste.callbackStep at hstep
  have hholds := h.callbackHolds
  have hwritten := h.written
  cases hcallback : s.callback with
  | absent | pending | finished =>
      rw [hcallback] at hstep
      cases hstep
  | called success =>
      rw [hcallback] at hstep hholds
      cases success with
      | false =>
          obtain rfl := Option.some.inj hstep
          exact h.advance (by simp [hcallback]) (fun hpast => absurd hpast Bool.false_ne_true)
            h.callerHolds hholds fun _ => by simp
      | true =>
          obtain rfl := Option.some.inj hstep
          exact h.advance (by simp [hcallback]) (fun hpast => absurd hpast Bool.false_ne_true)
            h.callerHolds hholds fun _ => by simp
  | lock =>
      rw [hcallback] at hstep
      obtain ⟨howner, hs'⟩ := Option.ite_none_right_eq_some.mp hstep
      obtain rfl := Option.some.inj hs'
      exact h.advance (by simp [hcallback]) (fun hpast => absurd hpast Bool.false_ne_true)
        (iff_of_false (by simp) (h.caller_not_holds (by simp [howner]))) (iff_of_true rfl rfl)
        fun _ => by simp
  | setDone =>
      rw [hcallback] at hstep hholds
      obtain rfl := Option.some.inj hstep
      exact h.advance (by simp [hcallback]) (fun _ => rfl) h.callerHolds hholds
        fun _ => by simp
  | unlock =>
      rw [hcallback] at hstep hwritten
      obtain rfl := Option.some.inj hstep
      have howner : s.owner = some .callback := h.callbackHolds.mpr (by rw [hcallback]; rfl)
      exact h.advance (by simp [hcallback]) (fun _ => hwritten rfl)
        (iff_of_false (by simp) (h.caller_not_holds (by simp [howner])))
        (iff_of_false (by simp) Bool.false_ne_true) fun _ => by simp
  | notify =>
      rw [hcallback] at hstep hholds hwritten
      obtain rfl := Option.some.inj hstep
      -- the caller is woken first, then the callback ends
      have hwoken : Live { s with caller := s.caller.wakeUp } := by
        cases hcaller : s.caller with
        | waiting => exact h.wake hcaller
        | lock | put | test | woken | read | leave | returned =>
            simpa only [CallerAt.wakeUp, ← hcaller] using h
      exact hwoken.advance (by simp [hcallback]) (fun _ => hwritten rfl) hwoken.callerHolds
        hholds fun hwaiting => absurd hwaiting s.caller.wakeUp_ne_waiting

end Live

theorem live_step {s s' : State} {a : Action} (h : Live s) (hstep : Step s a s') :
    Live s' := by
  cases a with
  | caller => exact h.callerStep hstep
  | callback => exact h.callbackStep hstep
  | wake =>
      obtain ⟨hcaller, hs'⟩ := Option.ite_none_right_eq_some.mp hstep
      obtain rfl := Option.some.inj hs'
      exact h.wake hcaller
  | call success =>
      obtain ⟨hcallback, hs'⟩ := Option.ite_none_right_eq_some.mp hstep
      obtain rfl := Option.some.inj hs'
      exact h.call success hcallback

/-- `success_` and the flag, as far as the callback has come. -/
def Reported (s : State) : Prop :=
  match s.callback with
  | .absent | .pending => s.given = none ∧ s.success_ = false
  | .called success => s.given = some success ∧ s.success_ = false
  | _ => s.given = some s.success_

/-- The invariant of the interleavings that start with `done` unset. -/
structure Inv (s : State) : Prop extends Live s where
  reported : Reported s
  announced : s.done = true → s.callback.pastWrite = true
  awaited : s.caller.pastWait = true → s.done = true
  value : ∀ value, s.caller = .leave value ∨ s.caller = .returned value →
    s.given = some value
  outlived : s.caller.hasReturned = true → s.callback = .finished
  intime : s.late = false

theorem inv_initial : Inv (State.initial false) where
  toLive := live_initial false
  reported := ⟨rfl, rfl⟩
  announced hdone := absurd hdone Bool.false_ne_true
  awaited hpast := absurd hpast Bool.false_ne_true
  value := by rintro v (hv | hv) <;> cases hv
  outlived hpast := absurd hpast Bool.false_ne_true
  intime := rfl

namespace Inv

variable {s s' : State} (h : Inv s)

include h

theorem not_returned (hrunning : s.callback ≠ .finished) :
    s.caller.hasReturned = false := by
  simpa using mt h.outlived hrunning

theorem not_done (hcallback : s.callback.pastWrite = false) : s.done = false := by
  simpa using mt h.announced (by simp [hcallback])

theorem given_of_done (hdone : s.done = true) : s.given = some s.success_ := by
  have hwritten := h.announced hdone
  have hreported := h.reported
  unfold Reported at hreported
  cases hcallback : s.callback with
  | unlock | notify | finished => simpa [hcallback] using hreported
  | absent | pending | called success | lock | setDone =>
      simp [hcallback, CallbackAt.pastWrite] at hwritten

/-- A caller that holds the mutex and has seen `done` finds the callback at its
notification or at its end. -/
theorem notify_or_finished (hdone : s.done = true) (howner : s.owner = some .caller) :
    s.callback = .notify ∨ s.callback = .finished := by
  have hwritten := h.announced hdone
  have hfree := h.callback_not_holds (by simp [howner])
  cases hcallback : s.callback with
  | notify => exact .inl rfl
  | finished => exact .inr rfl
  | absent | pending | called success | lock | setDone | unlock =>
      simp [hcallback, CallbackAt.pastWrite, CallbackAt.holds] at hwritten hfree

/-- A step of a caller that stays in front of the end of its wait. -/
theorem waits {c : CallerAt} {owner : Option Party} (hearly : c.pastWait = false)
    (hlive : Live { s with caller := c, owner := owner }) :
    Inv { s with caller := c, owner := owner } :=
  { h with
    toLive := hlive
    awaited := fun hpast => absurd (hearly.symm.trans hpast) Bool.false_ne_true
    value := by rintro v (rfl | rfl) <;> cases hearly
    outlived := by
      intro hpast
      cases c <;> simp [CallerAt.pastWait, CallerAt.hasReturned] at hearly hpast }

theorem callerStep (hguard : Admits s .caller)
    (hstep : BlockingPaste.callerStep s = some s') : Inv s' := by
  have hlive := h.toLive.callerStep hstep
  unfold BlockingPaste.callerStep at hstep
  cases hcaller : s.caller with
  | waiting | returned v =>
      rw [hcaller] at hstep
      cases hstep
  | lock | woken =>
      rw [hcaller] at hstep
      obtain ⟨_, hs'⟩ := Option.ite_none_right_eq_some.mp hstep
      obtain rfl := Option.some.inj hs'
      exact h.waits rfl hlive
  | put =>
      rw [hcaller] at hstep
      obtain rfl := Option.some.inj hstep
      have habsent := h.started.mp (.inr hcaller)
      have hnotDone := h.not_done (by rw [habsent]; rfl)
      exact { h with
        toLive := hlive
        reported := by simpa [Reported, habsent] using h.reported
        announced := fun hdone => absurd (hnotDone.symm.trans hdone) Bool.false_ne_true
        awaited := fun hpast => absurd hpast Bool.false_ne_true
        value := by rintro v (hv | hv) <;> cases hv
        outlived := fun hpast => absurd hpast Bool.false_ne_true }
  | test =>
      rw [hcaller] at hstep
      by_cases hdone : s.done = true
      · obtain rfl := Option.some.inj ((if_pos hdone).symm.trans hstep)
        exact { h with
          toLive := hlive
          awaited := fun _ => hdone
          value := by rintro v (hv | hv) <;> cases hv
          outlived := fun hpast => absurd hpast Bool.false_ne_true }
      · obtain rfl := Option.some.inj ((if_neg hdone).symm.trans hstep)
        exact h.waits rfl hlive
  | read =>
      rw [hcaller] at hstep
      obtain rfl := Option.some.inj hstep
      have hdone := h.awaited (by rw [hcaller]; rfl)
      exact { h with
        toLive := hlive
        awaited := fun _ => hdone
        value := by
          rintro v (hv | hv)
          · rw [← CallerAt.leave.inj hv]
            exact h.given_of_done hdone
          · cases hv
        outlived := fun hpast => absurd hpast Bool.false_ne_true }
  | leave v =>
      rw [hcaller] at hstep
      obtain rfl := Option.some.inj hstep
      have hdone := h.awaited (by rw [hcaller]; rfl)
      have howner : s.owner = some .caller := h.callerHolds.mpr (by rw [hcaller]; rfl)
      exact { h with
        toLive := hlive
        awaited := fun _ => hdone
        value := by
          rintro w (hw | hw)
          · cases hw
          · exact h.value w (.inl (by rw [hcaller, CallerAt.returned.inj hw]))
        outlived := fun _ => (h.notify_or_finished hdone howner).resolve_left
          (hguard rfl v hcaller) }

theorem call (success : Bool) (hcallback : s.callback = .pending) :
    Inv { s with callback := .called success, given := some success } := by
  have hnone : s.given = none ∧ s.success_ = false := by
    simpa [Reported, hcallback] using h.reported
  have hnotDone := h.not_done (by rw [hcallback]; rfl)
  exact { h with
    toLive := h.toLive.call success hcallback
    reported := ⟨rfl, hnone.2⟩
    announced := fun hdone => absurd (hnotDone.symm.trans hdone) Bool.false_ne_true
    value := fun v hv => absurd (hnone.1.symm.trans (h.value v hv)) (by simp)
    outlived := fun hpast => absurd (hcallback.symm.trans (h.outlived hpast)) (by decide) }

theorem touched_eq (hrunning : s.callback ≠ .finished) (s' : State) :
    s.touched s' = { s' with late := s.late } := by
  simp [State.touched, h.not_returned hrunning]

/-- A step of the running callback keeps the invariant if it writes `done` last. -/
theorem advance {c : CallbackAt} {owner : Option Party} {done success : Bool}
    (hrunning : s.callback ≠ .finished)
    (hlive : Live { s with callback := c, owner := owner, done := done, success_ := success })
    (hreported : Reported
      { s with callback := c, owner := owner, done := done, success_ := success })
    (hdone : s.done = true → done = true) (hannounced : done = true → c.pastWrite = true) :
    Inv { s with callback := c, owner := owner, done := done, success_ := success } :=
  { h with
    toLive := hlive
    reported := hreported
    announced := hannounced
    awaited := fun hpast => hdone (h.awaited hpast)
    outlived := fun hpast =>
      absurd ((h.not_returned hrunning).symm.trans hpast) Bool.false_ne_true }

theorem callbackStep (hstep : BlockingPaste.callbackStep s = some s') : Inv s' := by
  have hlive := h.toLive.callbackStep hstep
  have hreported := h.reported
  unfold BlockingPaste.callbackStep at hstep
  unfold Reported at hreported
  cases hcallback : s.callback with
  | absent | pending | finished =>
      rw [hcallback] at hstep
      cases hstep
  | called success =>
      have hrunning : s.callback ≠ .finished := by simp [hcallback]
      have hnotDone := h.not_done (by rw [hcallback]; rfl)
      rw [hcallback] at hstep hreported
      cases success with
      | true =>
          obtain rfl := Option.some.inj hstep
          rw [h.touched_eq hrunning] at hlive ⊢
          exact h.advance hrunning hlive hreported.1 id
            (fun hdone => absurd (hnotDone.symm.trans hdone) Bool.false_ne_true)
      | false =>
          obtain rfl := Option.some.inj hstep
          exact h.advance hrunning hlive
            (hreported.1.trans (congrArg some hreported.2.symm)) id
            (fun hdone => absurd (hnotDone.symm.trans hdone) Bool.false_ne_true)
  | lock =>
      have hrunning : s.callback ≠ .finished := by simp [hcallback]
      have hnotDone := h.not_done (by rw [hcallback]; rfl)
      rw [hcallback] at hstep hreported
      obtain ⟨_, hs'⟩ := Option.ite_none_right_eq_some.mp hstep
      obtain rfl := Option.some.inj hs'
      rw [h.touched_eq hrunning] at hlive ⊢
      exact h.advance hrunning hlive hreported id
        (fun hdone => absurd (hnotDone.symm.trans hdone) Bool.false_ne_true)
  | setDone | unlock =>
      have hrunning : s.callback ≠ .finished := by simp [hcallback]
      rw [hcallback] at hstep hreported
      obtain rfl := Option.some.inj hstep
      rw [h.touched_eq hrunning] at hlive ⊢
      exact h.advance hrunning hlive hreported (fun hdone => by simp [hdone]) (fun _ => rfl)
  | notify =>
      have hrunning : s.callback ≠ .finished := by simp [hcallback]
      rw [hcallback] at hstep hreported
      obtain rfl := Option.some.inj hstep
      rw [h.touched_eq hrunning] at hlive ⊢
      -- the caller is woken first, then the callback ends
      have hwoken : Inv { s with caller := s.caller.wakeUp } := by
        cases hcaller : s.caller with
        | waiting => exact h.waits rfl (h.toLive.wake hcaller)
        | lock | put | test | woken | read | leave | returned =>
            simpa only [CallerAt.wakeUp, ← hcaller] using h
      exact hwoken.advance hrunning hlive hreported id (fun _ => rfl)

end Inv

theorem inv_step {s s' : State} {a : Action} (h : Inv s) (hguard : Admits s a)
    (hstep : Step s a s') : Inv s' := by
  cases a with
  | caller => exact h.callerStep hguard hstep
  | wake =>
      obtain ⟨hcaller, hs'⟩ := Option.ite_none_right_eq_some.mp hstep
      obtain rfl := Option.some.inj hs'
      exact h.waits rfl (h.toLive.wake hcaller)
  | call success =>
      obtain ⟨hcallback, hs'⟩ := Option.ite_none_right_eq_some.mp hstep
      obtain rfl := Option.some.inj hs'
      exact h.call success hcallback
  | callback => exact h.callbackStep hstep

theorem Inv.safe {s : State} (h : Inv s) : Safe s :=
  ⟨fun v hv => h.value v (.inr hv), h.intime⟩

/-- If `done` happens to be unset at the start, and the caller never returns between the
callback's release of the mutex and the end of its `notify_all`, then every interleaving is
safe: the caller waits for the callback, returns its flag, and its locals are not used after
the return. -/
theorem paste_waits (actions : List Action) (s : State)
    (h : Run (Guarded Admits Step) (State.initial false) actions s) : Safe s := by
  refine (h.invariant inv_initial ?_).safe
  rintro s a s' hinv ⟨hguard, hstep⟩
  exact inv_step hinv hguard hstep

/-- The condition is exact: in every run, a return before the notification can be followed by
a notification that uses the condition variable after the end of its lifetime. -/
theorem late_of_not_admits {done : Bool} {actions : List Action} {s : State}
    (h : Run Step (State.initial done) actions s) (hguard : ∃ a, ¬Admits s a) :
    ∃ s', Run Step (State.initial done) (actions ++ [.caller, .callback]) s' ∧ ¬Safe s' := by
  obtain ⟨a, ha⟩ := hguard
  simp only [Admits, not_forall, not_not] at ha
  obtain ⟨_, v, hcaller, hcallback⟩ := ha
  obtain ⟨_, _, owner, flag, success, given, late⟩ := s
  obtain rfl : _ = CallerAt.leave v := hcaller
  obtain rfl : _ = CallbackAt.notify := hcallback
  refine ⟨⟨.returned v, .finished, none, flag, success, given, late || true⟩,
    h.trans (run_of_follow rfl), fun hsafe => ?_⟩
  simpa using hsafe.2

def orderly : List Action :=
  [.caller, .caller, .caller, .call true, .callback, .callback, .callback, .callback,
    .callback, .caller, .caller, .caller, .caller]

def hasty : List Action :=
  [.caller, .caller, .caller, .call true, .callback, .callback, .callback, .callback, .wake,
    .caller, .caller, .caller, .caller, .callback]

theorem paste_waits_sample :
    Safe ⟨.returned true, .finished, none, true, true, some true, false⟩ :=
  paste_waits orderly _ (run_of_follow_guarded rfl)

/-- If `done` happens to be set at the start, the caller returns a failure before the DHT has
answered. If it is unset, a spurious wake-up lets the caller return before the callback's
`notify_all`, which then uses a dead condition variable. -/
theorem paste_waits_counterexample :
    Run Step (State.initial true) [.caller, .caller, .caller, .caller, .caller]
        ⟨.returned false, .pending, none, true, false, none, false⟩ ∧
      ¬Safe ⟨.returned false, .pending, none, true, false, none, false⟩ ∧
      Run Step (State.initial false) hasty
        ⟨.returned true, .finished, none, true, true, some true, true⟩ ∧
      ¬Safe ⟨.returned true, .finished, none, true, true, some true, true⟩ := by
  refine ⟨run_of_follow rfl, fun h => ?_, run_of_follow rfl, fun h => ?_⟩
  · exact absurd (h.1 false rfl) (by decide)
  · exact absurd h.2 (by decide)

end Dpaste.BlockingPaste
