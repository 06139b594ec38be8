import Dpaste.BlockingPaste

/-!
`Node::paste` without a callback comes back, whatever value `done` has at the start: no
notification is lost, and no thread waits for the mutex forever.
-/

namespace Dpaste.BlockingPaste

open Dpaste.LabelledRuns

/-- No thread can go on, and the DHT has no callback to call. Spurious wake-ups do not
count. -/
def Stuck (s : State) : Prop := ∀ a, a ≠ .wake → next s a = none

/-- A callback that cannot go on has not been given to the DHT, is at its end, or waits for
the mutex. -/
theorem callback_of_stuck {s : State} (hstuck : Stuck s) :
    s.callback = .absent ∨ s.callback = .finished ∨ s.callback = .lock ∧ s.owner ≠ none := by
  have hcall : next s (.call true) = none := hstuck (.call true) (by simp)
  have hcallback : BlockingPaste.callbackStep s = none := hstuck .callback (by simp)
  cases hc : s.callback with
  | absent => exact .inl rfl
  | finished => exact .inr (.inl rfl)
  | pending => simp [next, hc] at hcall
  | lock =>
      refine .inr (.inr ⟨rfl, fun howner => ?_⟩)
      simp [callbackStep, hc, howner] at hcallback
  | called success => cases success <;> simp [callbackStep, hc] at hcallback
  | setDone | notify | unlock => simp [callbackStep, hc] at hcallback

theorem Live.owner_of_stuck {s : State} (h : Live s) (hstuck : Stuck s) :
    s.owner ≠ some .callback := by
  intro howner
  have hholds := h.callbackHolds.mp howner
  rcases callback_of_stuck hstuck with hc | hc | ⟨hc, -⟩ <;>
    simp [hc, CallbackAt.holds] at hholds

theorem Live.returned_of_stuck {s : State} (h : Live s) (hstuck : Stuck s) :
    s.caller.hasReturned = true := by
  have hcaller : BlockingPaste.callerStep s = none := hstuck .caller (by simp)
  have hfree := h.owner_of_stuck hstuck
  cases hc : s.caller with
  | returned v => rfl
  | put | read | leave v => simp [BlockingPaste.callerStep, hc] at hcaller
  | test =>
      rw [BlockingPaste.callerStep, hc] at hcaller
      dsimp only at hcaller
      split at hcaller <;> cases hcaller
  | lock | woken =>
      cases howner : s.owner with
      | none => simp [BlockingPaste.callerStep, hc, howner] at hcaller
      | some party =>
          cases party with
          | caller => simpa [hc, CallerAt.holds] using h.callerHolds.mp howner
          | callback => exact absurd howner hfree
  | waiting =>
      rcases callback_of_stuck hstuck with he | he | ⟨-, howner⟩
      · simpa [hc] using h.started.mpr he
      · exact absurd he (h.notified hc)
      · cases howner' : s.owner with
        | none => exact absurd howner' howner
        | some party =>
            cases party with
            | caller => simpa [hc, CallerAt.holds] using h.callerHolds.mp howner'
            | callback => exact absurd howner' hfree

/-- What is left to do for the two threads, if nobody is woken without cause. -/
def CallerAt.left : CallerAt → Nat
  | .lock => 6
  | .put | .woken => 5
  | .test => 4
  | .waiting => 3
  | .read => 2
  | .leave _ => 1
  | .returned _ => 0

def CallbackAt.left : CallbackAt → Nat
  | .absent | .pending => 8
  | .called _ => 7
  | .lock => 6
  | .setDone => 5
  | .unlock => 4
  | .notify => 3
  | .finished => 0

theorem CallerAt.left_wakeUp (c : CallerAt) : c.wakeUp.left ≤ c.left + 2 := by
  cases c <;> simp [wakeUp, left]

/-- A spurious wake-up is the only step after which more is left to do. -/
theorem left_step {s s' : State} {a : Action} (h : Live s) (hstep : Step s a s') :
    s'.caller.left + s'.callback.left + 1 ≤
      s.caller.left + s.callback.left + if a == .wake then 3 else 0 := by
  cases a with
  | wake =>
      obtain ⟨hcaller, hs'⟩ := Option.ite_none_right_eq_some.mp hstep
      obtain rfl := Option.some.inj hs'
      rw [hcaller]
      show 5 + s.callback.left + 1 ≤ 3 + s.callback.left + 3
      omega
  | call success =>
      obtain ⟨hcallback, hs'⟩ := Option.ite_none_right_eq_some.mp hstep
      obtain rfl := Option.some.inj hs'
      rw [hcallback]
      exact Nat.le_refl _
  | caller =>
      rw [Step, next, callerStep] at hstep
      cases hcaller : s.caller with
      | waiting | returned v =>
          rw [hcaller] at hstep
          cases hstep
      | put =>
          have habsent := h.started.mp (.inr hcaller)
          rw [hcaller] at hstep
          obtain rfl := Option.some.inj hstep
          rw [habsent]
          exact Nat.le_refl _
      | read =>
          rw [hcaller] at hstep
          obtain rfl := Option.some.inj hstep
          show 1 + s.callback.left + 1 ≤ 2 + s.callback.left
          omega
      | leave v =>
          rw [hcaller] at hstep
          obtain rfl := Option.some.inj hstep
          show 0 + s.callback.left + 1 ≤ 1 + s.callback.left
          omega
      | lock =>
          rw [hcaller] at hstep
          obtain ⟨-, hs'⟩ := Option.ite_none_right_eq_some.mp hstep
          obtain rfl := Option.some.inj hs'
          show 5 + s.callback.left + 1 ≤ 6 + s.callback.left
          omega
      | woken =>
          rw [hcaller] at hstep
          obtain ⟨-, hs'⟩ := Option.ite_none_right_eq_some.mp hstep
          obtain rfl := Option.some.inj hs'
          show 4 + s.callback.left + 1 ≤ 5 + s.callback.left
          omega
      | test =>
          rw [hcaller] at hstep
          by_cases hdone : s.done = true
          · obtain rfl := Option.some.inj ((if_pos hdone).symm.trans hstep)
            show 2 + s.callback.left + 1 ≤ 4 + s.callback.left
            omega
          · obtain rfl := Option.some.inj ((if_neg hdone).symm.trans hstep)
            show 3 + s.callback.left + 1 ≤ 4 + s.callback.left
            omega
  | callback =>
      rw [Step, next, callbackStep] at hstep
      cases hcallback : s.callback with
      | absent | pending | finished =>
          rw [hcallback] at hstep
          cases hstep
      | called success =>
          rw [hcallback] at hstep
          cases success with
          | false =>
              obtain rfl := Option.some.inj hstep
              exact Nat.le_refl _
          | true =>
              obtain rfl := Option.some.inj hstep
              exact Nat.le_refl _
      | lock =>
          rw [hcallback] at hstep
          obtain ⟨-, hs'⟩ := Option.ite_none_right_eq_some.mp hstep
          obtain rfl := Option.some.inj hs'
          exact Nat.le_refl _
      | setDone | unlock =>
          rw [hcallback] at hstep
          obtain rfl := Option.some.inj hstep
          exact Nat.le_refl _
      | notify =>
          -- the caller has more to do, but the callback much less
          rw [hcallback] at hstep
          obtain rfl := Option.some.inj hstep
          have hwoken := s.caller.left_wakeUp
          show s.caller.wakeUp.left + 0 + 1 ≤ s.caller.left + 3
          omega

/-- Every interleaving of the blocking paste ends, unless the caller is woken without cause
again and again, and it ends with the return of the caller. -/
theorem paste_completes (done : Bool) (actions : List Action) (s : State)
    (h : Run Step (State.initial done) actions s) :
    (Stuck s → s.caller.hasReturned = true) ∧
      actions.length ≤ 14 + 3 * actions.countP (· == .wake) := by
  have hlive : Live s := h.invariant (live_initial done) fun hs hstep => live_step hs hstep
  have hlength := h.length_le (live_initial done) (fun hs hstep => live_step hs hstep)
    fun hs hstep => left_step hs hstep
  refine ⟨hlive.returned_of_stuck, ?_⟩
  have hinitial : (State.initial done).caller.left + (State.initial done).callback.left = 14 :=
    rfl
  omega

theorem paste_completes_sample :
    hasty.length ≤ 14 + 3 * hasty.countP (· == .wake) :=
  (paste_completes false hasty ⟨.returned true, .finished, none, true, true, some true, true⟩
    (run_of_follow rfl)).2

end Dpaste.BlockingPaste
