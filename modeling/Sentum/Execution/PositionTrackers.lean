import Sentum.Execution.TestnetStrategyRuntime
import Sentum.Lib.Run
import Sentum.Order.ConfirmedPositionLedger

/-!
# Two position trackers

The session gives every update of the account to its ledger and then to the
runtime.  The ledger keeps a sum per symbol; the runtime overwrites its one
quantity by the last confirmed fill, of whatever symbol.  `trackersAgree_iff`
is the exact condition under which the two still say the same.
-/

namespace Sentum.Execution

open Sentum Sentum.Order Strategy Risk Run
open TestnetStrategyRuntime (heldAfter)
open ConfirmedPositionLedger (afterFill dust)

structure Trackers where
  runtime : TestnetStrategyRuntime
  ledger : ConfirmedPositionLedger := {}

namespace Trackers

/-- The handler that `LiveOrderSession::start` installs. -/
def deliver (t : Trackers) (update : Snapshot) : Trackers :=
  { runtime := t.runtime.onOrderUpdate update, ledger := t.ledger.onOrderUpdate update }

/-- The quantity the ledger has for the runtime's symbol. -/
def ledgerQuantity (t : Trackers) : ℚ := t.ledger.quantity t.runtime.symbol

def Agree (t : Trackers) : Prop := t.runtime.confirmedQuantity = t.ledgerQuantity

instance (t : Trackers) : Decidable t.Agree :=
  inferInstanceAs (Decidable (t.runtime.confirmedQuantity = t.ledgerQuantity))

/-- Overwriting what is held does what the ledger does; `own`: the fill is of
the runtime's symbol. -/
def inStep (held executed : ℚ) (side : Side) (own : Bool) : Bool :=
  match side, own with
  | .buy, true => decide (held = 0)
  | .sell, true => decide (held - executed ≤ dust)
  | .buy, false => decide (held = executed)
  | .sell, false => decide (held = 0)

/-- The update is no confirmed fill, or one that both trackers take alike. -/
def InStep (t : Trackers) (update : Snapshot) : Prop :=
  update.exchangeConfirmedFill = true →
    inStep t.runtime.confirmedQuantity update.executedQuantity update.side
      (decide (update.symbol = t.runtime.symbol)) = true

instance (t : Trackers) (update : Snapshot) : Decidable (t.InStep update) :=
  inferInstanceAs (Decidable (_ → _ = true))

theorem heldAfter_eq_iff (held executed : ℚ) (side : Side) (own : Bool) :
    heldAfter side executed = (if own then afterFill side held executed else held) ↔
      inStep held executed side own = true := by
  have hdust := ConfirmedPositionLedger.dust_pos
  cases side with
  | buy =>
    cases own with
    | true =>
      simp only [heldAfter, afterFill, inStep, if_true, decide_eq_true_eq]
      constructor <;> intro h <;> linarith
    | false =>
      simp only [heldAfter, inStep, Bool.false_eq_true, if_false, decide_eq_true_eq]
      exact eq_comm
  | sell =>
    cases own with
    | true =>
      simp only [heldAfter, afterFill, inStep, if_true, decide_eq_true_eq]
      by_cases hsold : held - executed ≤ dust
      · simp [hsold]
      · -- the ledger keeps more than dust, so it does not keep 0
        refine iff_of_false (fun h => ?_) hsold
        rw [if_neg hsold] at h
        linarith
    | false =>
      simp only [heldAfter, inStep, Bool.false_eq_true, if_false, decide_eq_true_eq]
      exact eq_comm

/-- **One delivery** to trackers that agree. -/
theorem deliver_agree_iff {t : Trackers} (h : t.Agree) (update : Snapshot) :
    (t.deliver update).Agree ↔ t.InStep update := by
  unfold Agree ledgerQuantity InStep
  simp only [deliver, TestnetStrategyRuntime.onOrderUpdate_symbol,
    TestnetStrategyRuntime.onOrderUpdate_confirmedQuantity]
  by_cases hf : update.exchangeConfirmedFill = true
  · rw [if_pos hf, ConfirmedPositionLedger.onOrderUpdate_quantity hf]
    rw [show t.ledger.quantity t.runtime.symbol = t.runtime.confirmedQuantity from h.symm]
    simp only [hf, true_imp_iff]
    rw [← heldAfter_eq_iff]
    simp only [decide_eq_true_eq, eq_comm (a := update.symbol)]
  · rw [if_neg hf, ConfirmedPositionLedger.onOrderUpdate_of_not_fill (by simpa using hf)]
    exact iff_of_true h (fun hf' => absurd hf' hf)

/-- **When the trackers agree.**  Trackers that agree at first do so after
every delivery exactly when every confirmed fill finds them in step: a buy of
the runtime's symbol with nothing held, a sell of it that leaves at most dust,
a buy of another symbol of just what is held, a sell of another symbol with
nothing held. -/
theorem trackersAgree_iff {t : Trackers} (h : t.Agree) (us : List Snapshot) :
    Along deliver Agree t us ↔ Guarded deliver InStep t us := by
  have hkeep : ∀ t u, Agree t → InStep t u → Agree (deliver t u) :=
    fun _ u ht hg => (deliver_agree_iff ht u).mpr hg
  have hbreak : ∀ t u, Agree t → ¬ InStep t u → ¬ Agree (deliver t u) :=
    fun _ u ht hg => (deliver_agree_iff ht u).not.mpr hg
  exact along_iff_guarded (fun _ ht => ht) hkeep hbreak h

end Trackers

/-! ## A fill of another symbol -/

/-- The runtime of `testnet_main`, before the first update. -/
def btcTrackers : Trackers :=
  { runtime := { symbol := "BTCUSDT", risk := shippedRisk, strategy := .momentum (.init 20 (1 / 1000)) } }

def ethFill : Snapshot :=
  { symbol := "ETHUSDT", clientOrderId := "manual-1", exchangeOrderId := 9, side := .buy, state := .filled
    requestedQuantity := 2, executedQuantity := 2, cumulativeQuoteQuantity := 40, averageFillPrice := 20 }

def btcFill (side : Side) : Snapshot :=
  { symbol := "BTCUSDT", clientOrderId := "sentum-1", exchangeOrderId := 7, side, state := .filled
    requestedQuantity := 1, executedQuantity := 1, cumulativeQuoteQuantity := 100, averageFillPrice := 100 }

theorem ethFill_disagrees : btcTrackers.Agree ∧ ¬ Along Trackers.deliver Trackers.Agree btcTrackers [ethFill] := by
  decide +kernel

/-- A purchase and its sale. -/
theorem btcFills_agree :
    Along Trackers.deliver Trackers.Agree btcTrackers [btcFill .buy, btcFill .sell] :=
  (Trackers.trackersAgree_iff (by decide +kernel) _).mpr (by decide +kernel)

end Sentum.Execution
