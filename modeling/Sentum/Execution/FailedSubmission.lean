import Sentum.Execution.TestnetRuns

/-!
# Submissions that throw

`on_price` sets `active_order_` and calls `venue_->submit`; nothing but an
update of an order clears it again.  A `submit` that throws has published no
update that does, so `active_order_` is never empty afterwards and no later
price is looked at (`failedSubmission_sticks`).

Besides the actions of `TestnetSystem` the answer to an accepted placement may
be lost.
-/

namespace Sentum.Execution

open Sentum Sentum.Order OrderManager Run
open TestnetStrategyRuntime (clears)

inductive FailureAction where
  | runtime (a : TestnetAction)
  /-- the exchange accepts the order, and `place_market_order` throws -/
  | lostAnswer (what : String) (e : Json)

namespace TestnetSystem

def failureStep (s : TestnetSystem) : FailureAction → TestnetSystem
  | .runtime a => s.step a
  | .lostAnswer what e =>
    match s.call with
    | some ⟨request, price, .place⟩ =>
      { s.enter request e with call := some ⟨request, price, .settle true (.error what)⟩ }
    | _ => s

/-- The action is the one in which `venue_->submit` throws: a check fails or
the entry is not inserted, or the entry is gone when the placement is over. -/
def submitThrows (s : TestnetSystem) : TestnetAction → Bool
  | .submit now =>
    match s.call with
    | some ⟨request, _, .submit⟩ => !s.ready || !(s.orders.manager.submitBegin request now).result.isOk
    | _ => false
  | .settle now =>
    match s.call with
    | some ⟨request, _, .settle _ reply⟩ => !(s.settled request reply now).result.isOk
    | _ => false
  | _ => false

/-- While a `submit` goes on, `active_order_` is set. -/
def Guards (s : TestnetSystem) : Prop := s.call.isSome = true → s.runtime.activeOrder ≠ ""

/-! ## What a step does to the guard -/

/-- An outcome that throws has published nothing. -/
theorem submitSettle_throws {m : OrderManager} {id : String} {reply : Except String Json} {now : TimePoint}
    (h : (m.submitSettle returns id reply now).result.isOk = false) :
    (m.submitSettle returns id reply now).published = [] := by
  have hreject : ∀ what, (rejectSubmission returns m [] id what now).result.isOk = false →
      (rejectSubmission returns m [] id what now).published = [] := by
    intro what hr
    unfold rejectSubmission at hr ⊢
    cases hc : m.orders.lookup id with
    | none => rfl
    | some c =>
      rw [hc] at hr
      cases hr
  unfold submitSettle at h ⊢
  cases reply with
  | error what => exact hreject what h
  | ok ack =>
    dsimp only at h ⊢
    cases hk : acknowledge m id ack now with
    | error what =>
      rw [hk] at h
      exact hreject what h
    | ok c =>
      rw [hk] at h
      cases h

theorem guards_price {s : TestnetSystem} (h : Guards s) (e : PriceEvent) : Guards (s.step (.price e)) := by
  obtain ⟨-, hs⟩ | ⟨hidle, strategy, hs⟩ | ⟨-, request, runtime, hsub, hs⟩ := step_price_cases s e <;> rw [hs]
  · exact h
  · intro hcall
    rw [hidle] at hcall
    cases hcall
  · intro _
    obtain ⟨strategy, exitReason, rfl⟩ := hsub.only
    exact hsub.named

/-- **Step lemma.**  The guard stays set while a `submit` goes on. -/
theorem guards_step {s : TestnetSystem} (ht : Truthful s) (h : Guards s) (a : TestnetAction) : Guards (s.step a) := by
  by_cases hb : background a = true
  · rcases step_background ht hb with ⟨i, o, e, -, hs⟩ | ⟨-, hcall, running, hruntime⟩
    · rw [hs]
      exact h
    · unfold Guards
      rw [hcall, hruntime]
      exact h
  · cases a with
    | price e => exact guards_price h e
    | submit now =>
      simp only [step]
      split
      · next request price hcall =>
        have hset : s.runtime.activeOrder ≠ "" := h (by rw [hcall]; rfl)
        repeat' split
        all_goals exact fun _ => hset
      · exact h
    | publish =>
      simp only [step]
      split
      · next request price now hcall =>
        intro _
        dsimp only
        rw [notify_quiet (pending_quiet request now)]
        exact h (by rw [hcall]; rfl)
      · exact h
    | place accepted reply e =>
      simp only [step]
      split
      · next request price hcall =>
        have hset : s.runtime.activeOrder ≠ "" := h (by rw [hcall]; rfl)
        split
        · exact h
        · intro _
          cases accepted with
          | true =>
            dsimp only
            rw [if_pos rfl, enter_runtime]
            exact hset
          | false => exact hset
      · exact h
    | settle now =>
      simp only [step]
      split
      · exact fun hc => absurd hc (by simp)
      · exact h
    | update =>
      simp only [step]
      split
      · exact h
      · next hidle =>
        split
        · exact h
        · exact fun hc => absurd hc hidle
    | _ => exact absurd rfl hb

theorem lostAnswer_inv {s : TestnetSystem} (ht : Truthful s) (h : Guards s) (what : String) (e : Json) :
    Truthful (s.failureStep (.lostAnswer what e)) ∧ Guards (s.failureStep (.lostAnswer what e)) := by
  simp only [failureStep]
  split
  · next request price hcall =>
    have he := ht.enter request e
    refine ⟨he.of_eq rfl rfl rfl rfl he.cancelling, fun _ => ?_⟩
    dsimp only
    rw [enter_runtime]
    exact h (by rw [hcall]; rfl)
  · exact ⟨ht, h⟩

/-- Every state that is reached. -/
theorem guards_exec (runtime : TestnetStrategyRuntime) (manager : OrderManager) (as : List FailureAction) :
    Truthful (exec failureStep (start runtime manager) as) ∧ Guards (exec failureStep (start runtime manager) as) := by
  refine @exec_inv _ _ failureStep (fun s => Truthful s ∧ Guards s) (fun s a h => ?_) _
    ⟨truthful_start runtime manager, fun hc => (nomatch hc)⟩ as
  cases a with
  | runtime a => exact ⟨h.1.step a, guards_step h.1 h.2 a⟩
  | lostAnswer what e => exact lostAnswer_inv h.1 h.2 what e

/-- The step in which `submit` throws leaves the runtime as it was. -/
theorem throws_runtime {s : TestnetSystem} {a : TestnetAction} (h : submitThrows s a = true) :
    s.call.isSome = true ∧ (s.step a).runtime = s.runtime ∧ (s.step a).call = none := by
  cases a with
  | submit now =>
    simp only [submitThrows] at h
    split at h
    · next request price hcall =>
      refine ⟨by rw [hcall]; rfl, ?_⟩
      simp only [step, hcall]
      cases hready : s.ready with
      | false => exact ⟨rfl, rfl⟩
      | true =>
        rw [hready] at h
        simp only [Bool.not_true, Bool.false_eq_true, if_false]
        cases hr : (s.orders.manager.submitBegin request now).result with
        | error what => exact ⟨rfl, rfl⟩
        | ok p =>
          rw [hr] at h
          cases h
    · cases h
  | settle now =>
    simp only [submitThrows] at h
    split at h
    · next request price accepted reply hcall =>
      have hp := submitSettle_throws (by simpa [settled] using h)
      refine ⟨by rw [hcall]; rfl, ?_, ?_⟩
      · simp only [step, hcall, settled]
        rw [hp]
        rfl
      · simp only [step, hcall]
    · cases h
  | _ => cases h

theorem onPrice_of_active {r : TestnetStrategyRuntime} (h : r.activeOrder ≠ "") (ready : Bool) (e : PriceEvent) :
    r.onPrice ready e = (r, none) := by
  unfold TestnetStrategyRuntime.onPrice
  rw [if_pos h, ite_self]

/-- While the guard is set no price is looked at. -/
theorem price_ignored {s : TestnetSystem} (h : s.runtime.activeOrder ≠ "") (e : PriceEvent) :
    s.step (.price e) = s := by
  simp only [step]
  split
  · rfl
  · rw [onPrice_of_active h]

/-- **A submission that throws sticks.**  In every run, the `active_order_` of
a submission that throws is still set afterwards, and no later price does
anything. -/
theorem failedSubmission_sticks (runtime : TestnetStrategyRuntime) (manager : OrderManager) (as : List FailureAction)
    (a : TestnetAction) (h : submitThrows (exec failureStep (start runtime manager) as) a = true) :
    ((exec failureStep (start runtime manager) as).step a).runtime.activeOrder ≠ "" ∧
      ∀ e, ((exec failureStep (start runtime manager) as).step a).step (.price e) =
        (exec failureStep (start runtime manager) as).step a := by
  obtain ⟨hcall, hruntime, -⟩ := throws_runtime h
  have hset : ((exec failureStep (start runtime manager) as).step a).runtime.activeOrder ≠ "" := by
    rw [hruntime]
    exact (guards_exec runtime manager as).2 hcall
  exact ⟨hset, price_ignored hset⟩

/-! ## Readiness lost between the check and the submission -/

/-- Prices that rise until the strategy buys; then the session is not ready any more. -/
def readyLost : List FailureAction := ((List.range 20).map priceAt ++ [TestnetAction.ready false]).map .runtime

theorem readyLost_stuck : submitThrows (exec failureStep btcStart readyLost) (.submit 1) = true ∧
    ((exec failureStep btcStart readyLost).step (.submit 1)).runtime.activeOrder ≠ "" := by
  decide +kernel

theorem readyLost_sticks : ((exec failureStep btcStart readyLost).step (.submit 1)).runtime.activeOrder ≠ "" ∧
    ∀ e, ((exec failureStep btcStart readyLost).step (.submit 1)).step (.price e) =
      (exec failureStep btcStart readyLost).step (.submit 1) := by
  have hthrows : submitThrows (exec failureStep btcStart readyLost) (.submit 1) = true := by decide +kernel
  exact failedSubmission_sticks btcStart.runtime btcStart.orders.manager readyLost (.submit 1) hthrows

end TestnetSystem

end Sentum.Execution
