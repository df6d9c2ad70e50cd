import Sentum.Core.EngineSteps

/-!
# Control changes wait for the position

`apply_runtime_control` tests the position once and then stops the engine,
destroys it and makes another one, in sections between which the trader thread
goes on taking events.  `position_deferred`: no engine with an open position
is stopped or destroyed in a run in which the trader thread does not enter a
position after the test.
-/

namespace Sentum.Core

open Sentum.Market Sentum.Strategy Sentum.Risk Sentum.Trader Run

namespace Routine

/-- `apply_runtime_control` is past the test of the position and has not put
the new engine in its place. -/
def checked : Routine → Bool
  | controlMode _ | controlManual _ _ | controlStrategy _ _ _ | controlSymbol _ _ _ | controlStop _ _ => true
  | start c _ | startJoin c _ | startLoad c _ | startMake c _ _ _ _ => c.generation?.isSome
  | stopTrader c | stopTotal c | stopDelta c _ | stopApply c _ | stopAccount c | stopEngine c | stopJoinable c
  | stopJoin c | stopReset c => c.generation?.isSome
  | _ => false

/-- It stops, destroys or replaces the engine. -/
def drops : Routine → Bool
  | stopEngine c | stopReset c => c.generation?.isSome
  | startMake c _ _ _ _ => c.generation?.isSome
  | _ => false

theorem checked_of_drops {r : Routine} (h : r.drops = true) : r.checked = true := by
  cases r <;> first | exact h | cases h

@[simp] theorem checked_started (c : StartCaller) : (started c).checked = false := by
  cases c <;> rfl

theorem checked_stopped {c : StopCaller} (h : (stopped c).checked = true) : c.generation?.isSome = true := by
  cases c with
  | control generation symbol => rfl
  | stop => cases h

end Routine

/-- Past the test means that the position was closed when it was tested. -/
theorem Next.checked {s : ExecutionEngine} {r r' : Routine} (h : Next s r r') (hr' : r'.checked = true) :
    r.checked = true ∨ s.positionOpen = false := by
  cases h with
  | controlNoTrader hnone =>
    have hcur : s.current = none := by simp [ExecutionEngine.current, hnone]
    exact .inr (by simp [ExecutionEngine.positionOpen, hcur])
  | controlPosition hclosed => exact .inr hclosed
  | controlNoStop => exact .inl rfl
  | startThread =>
    rw [Routine.checked_started] at hr'
    cases hr'
  | stopReset => exact .inl (Routine.checked_stopped hr')
  | _ => first | exact .inl hr' | exact .inl rfl | cases hr'

namespace ExecutionEngine

/-- The trader thread opens a position behind the back of `apply_runtime_control`. -/
def entersLate (s : ExecutionEngine) (a : Action) : Bool :=
  s.enters a && decide (∃ t, (s.threads t).checked = true)

/-- `apply_runtime_control` stops or destroys an engine whose position is open. -/
def discards (s : ExecutionEngine) : Action → Bool
  | .advance t _ => (s.threads t).drops && s.positionOpen
  | _ => false

/-! ## Who opens the position -/

section
variable {s s' : ExecutionEngine} {t : Thread} {r : Routine}

theorem positionOpen_of_current {tr : Trader} (h : s.current = some tr) :
    s.positionOpen = tr.engine.position.isOpen := by
  unfold positionOpen
  rw [h]

theorem current_of_positionOpen (h : s.positionOpen = true) :
    ∃ tr, s.current = some tr ∧ tr.engine.position.isOpen = true := by
  unfold positionOpen at h
  cases hcur : s.current with
  | none =>
    rw [hcur] at h
    cases h
  | some tr =>
    rw [hcur] at h
    exact ⟨tr, rfl, h⟩

theorem positionOpen_congr (htraders : s'.traders = s.traders) (htrader : s'.trader = s.trader) :
    s'.positionOpen = s.positionOpen := by
  unfold positionOpen current
  rw [htraders, htrader]

/-- An engine has been changed in place. -/
theorem positionOpen_set {i : Nat} {tr₀ tr₁ : Trader} (h : s'.positionOpen = true)
    (hi : s.traders[i]? = some tr₀) (htraders : s'.traders = s.traders.set i tr₁) (htrader : s'.trader = s.trader) :
    s.positionOpen = true ∨ tr₀.engine.position.isOpen = false ∧ tr₁.engine.position.isOpen = true := by
  obtain ⟨tr, hcur, hopen⟩ := current_of_positionOpen h
  rcases current_set hcur hi htraders htrader with hold | ⟨-, hold, rfl⟩
  · rw [positionOpen_of_current hold]
    exact .inl hopen
  · rw [positionOpen_of_current hold]
    cases tr₀.engine.position.isOpen with
    | true => exact .inl rfl
    | false => exact .inr ⟨rfl, hopen⟩

/-- No section opens a position. -/
theorem positionOpen_advance {o : Outside} (h : (s.advance t o r).positionOpen = true) : s.positionOpen = true := by
  obtain ⟨tr', hcur, hopen⟩ := current_of_positionOpen h
  rcases current_advance hcur with ⟨tr, hbefore, -, hsame⟩ | ⟨_, _, _, _, _, -, -, -, hflat⟩
  · rw [positionOpen_of_current hbefore, ← hsame, hopen]
  · rw [hflat] at hopen
    cases hopen

/-- The trader thread opens one only when it enters. -/
theorem TraderStep.positionOpen {a : Action} (h : TraderStep s a s') (hopen : s'.positionOpen = true) :
    s.positionOpen = true ∨ s.enters a = true := by
  rcases h.traders with hsame | ⟨i, tr₀, tr₁, hi, hset, -, hopens⟩
  · rw [positionOpen_congr hsame h.trader] at hopen
    exact .inl hopen
  · rcases positionOpen_set hopen hi hset h.trader with hbefore | ⟨hflat, hafter⟩
    · exact .inl hbefore
    · exact .inr ((hopens hafter).resolve_left (by simp [hflat]))

/-! ## Runs -/

/-- **Invariant**: past the test, the position is closed. -/
def Deferred (s : ExecutionEngine) : Prop := ∀ t, (s.threads t).checked = true → s.positionOpen = false

theorem deferred_started (account : PaperAccount) (settings : RuntimeSettings) (pendingSymbol : String) :
    Deferred (started account settings pendingSymbol) := by
  intro t ht
  cases t <;> cases ht

/-- Other routines, none of them past the test, and the same engines. -/
theorem Deferred.goto (h : Deferred s) (hr : r.checked = false) : Deferred (s.goto t r) := by
  have hno : r.checked = true → s.positionOpen = false := by
    rw [hr]
    intro hc
    cases hc
  exact goto_forall (P := fun _ r => r.checked = true → s.positionOpen = false) h hno

theorem Deferred.advance (h : Deferred s) (o : Outside) : Deferred (s.advance t o (s.threads t)) := by
  intro u hu
  have hmoves := moves_advance s t o (s.threads t)
  have hclosed : s.positionOpen = false := by
    by_cases hut : u = t
    · subst hut
      revert hu
      refine hmoves.threads_self (P := fun r => r.checked = true → s.positionOpen = false) (h u) ?_
      intro r' hnext hr'
      rcases hnext.checked hr' with hbefore | hclosed
      · exact h u hbefore
      · exact hclosed
    · rw [hmoves.threads_ne hut] at hu
      exact h u hu
  by_contra hno
  rw [positionOpen_advance (Bool.eq_true_of_not_eq_false hno)] at hclosed
  cases hclosed

/-- **Step lemma.** -/
theorem deferred_step (h : Deferred s) {a : Action} (hg : s.entersLate a = false) : Deferred (s.step a) := by
  refine step_of_parts h ?_ ?_ (h.goto rfl) (fun _ => h.goto rfl) ?_
  · intro t o _
    exact h.advance o
  · intro ha hwork t ht
    rw [hwork.threads] at ht
    have hclosed := h t ht
    by_contra hno
    rcases hwork.positionOpen (Bool.eq_true_of_not_eq_false hno) with hopen | henters
    · rw [hopen] at hclosed
      cases hclosed
    · have hlate : s.entersLate a = true := by
        simp only [entersLate, henters, Bool.true_and, decide_eq_true_eq]
        exact ⟨t, ht⟩
      rw [hlate] at hg
      cases hg
  · intro c _
    cases c <;> exact h

end

/-- **Control changes discard no position** in a run in which the trader thread
never enters a position between the test of `apply_runtime_control` and the
making of its new engine. -/
theorem position_deferred (account : PaperAccount) (settings : RuntimeSettings) (pendingSymbol : String)
    (as : List Action)
    (hg : Guarded step (fun s a => s.entersLate a = false) (started account settings pendingSymbol) as) :
    Guarded step (fun s a => s.discards a = false) (started account settings pendingSymbol) as := by
  have hkeep : ∀ s a, Deferred s → s.entersLate a = false → Deferred (step s a) := fun s a h hga => deferred_step h hga
  refine guarded_of_inv hkeep ?_ (deferred_started account settings pendingSymbol) hg
  intro s a h hga
  cases a with
  | advance t o =>
    show ((s.threads t).drops && s.positionOpen) = false
    cases hdrops : (s.threads t).drops with
    | false => rfl
    | true => exact h t (Routine.checked_of_drops hdrops)
  | _ => rfl

/-! ### A position entered during a control change -/

/-- The scanner starts a trader, which has taken one price and is about to take the next. -/
def waitingRun : List Action :=
  sections .scanner 12 ++ [.traderRun true, .traderLoop, tick (btcEvent 1 100), .traderLoop]

/-- The trader buys, a strategy is set and deferred, the position is closed, the strategy is applied. -/
def deferredRun : List Action :=
  waitingRun ++ [tick (btcEvent 2 101), .command (.setStrategy quickMomentumDocument)] ++ sections .main 7 ++
    [.traderLoop, tick (btcEvent 3 110)] ++ sections .main 16 ++ .traderLoop :: sections .main 9

example : (exec step paper deferredRun).appliedGeneration = 1 := by decide +kernel

theorem position_deferred_deferredRun : Guarded step (fun s a => s.discards a = false) paper deferredRun :=
  position_deferred { equity := 1000 } { strategy := quickMomentumDocument } "BTCUSDT" deferredRun (by decide +kernel)

/-- A strategy is set, the main loop finds no open position, the trader buys,
the main loop stops the engine. -/
def lateEntryRun : List Action :=
  waitingRun ++ .command (.setStrategy quickMomentumDocument) :: sections .main 4 ++ tick (btcEvent 2 101) ::
    sections .main 10

theorem lateEntryRun_discards : ¬ Guarded step (fun s a => s.discards a = false) paper lateEntryRun := by
  decide +kernel

end ExecutionEngine

end Sentum.Core
