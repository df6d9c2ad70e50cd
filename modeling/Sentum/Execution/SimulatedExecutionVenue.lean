import Mathlib.Algebra.Order.Ring.Rat
import Mathlib.Tactic.NormNum
import Mathlib.Tactic.Positivity
import Sentum.Order.OrderTypes

/-!
# The simulated venue

A market order fills at once, in full, at the touch price moved by half the
spread and the slippage.
-/

namespace Sentum.Execution

open Sentum.Order

structure SimulatedExecutionVenue where
  name : String := "paper"
  ready : Bool := false
  killed : Bool := false
  nextId : Nat := 0
  marketPrice : ℚ := 0
  spreadPercent : ℚ := 0
  slippagePercent : ℚ := 0
  marketTime : TimePoint := 0
deriving DecidableEq

namespace SimulatedExecutionVenue

def start (v : SimulatedExecutionVenue) : SimulatedExecutionVenue := { v with killed := false, ready := true }

def stop (v : SimulatedExecutionVenue) : SimulatedExecutionVenue := { v with ready := false }

def setMarket (v : SimulatedExecutionVenue) (price : ℚ) (timestamp : TimePoint) : SimulatedExecutionVenue :=
  { v with marketPrice := price, marketTime := timestamp }

def setFillModel (v : SimulatedExecutionVenue) (spreadPercent slippagePercent : ℚ) : SimulatedExecutionVenue :=
  { v with spreadPercent := max 0 spreadPercent, slippagePercent := max 0 slippagePercent }

def fillPrice (v : SimulatedExecutionVenue) (side : Side) : ℚ :=
  let halfSpread := v.spreadPercent * (1 / 2)
  match side with
  | .buy => v.marketPrice * (1 + halfSpread) * (1 + v.slippagePercent)
  | .sell => v.marketPrice * (1 - halfSpread) * (1 - v.slippagePercent)

/-- The fill of an accepted request. -/
def filled (v : SimulatedExecutionVenue) (request : Request) : Snapshot :=
  { symbol := request.symbol, clientOrderId := request.clientOrderId, exchangeOrderId := v.nextId + 1
    side := request.side, state := .filled, requestedQuantity := request.quantity
    executedQuantity := request.quantity, averageFillPrice := v.fillPrice request.side
    cumulativeQuoteQuantity := request.quantity * v.fillPrice request.side, updatedAt := v.marketTime }

def submit (v : SimulatedExecutionVenue) (request : Request) :
    SimulatedExecutionVenue × Except String Snapshot :=
  if !v.ready || v.killed then (v, .error "Simulated venue is not ready")
  else if request.quantity ≤ 0 ∨ v.marketPrice ≤ 0 then (v, .error "Invalid simulated order")
  else ({ v with nextId := v.nextId + 1 }, .ok (v.filled request))

/-- The venue takes the order. -/
def accepts (v : SimulatedExecutionVenue) (request : Request) : Bool :=
  v.ready && !v.killed && decide (0 < request.quantity) && decide (0 < v.marketPrice)

theorem submit_of_accepts {v : SimulatedExecutionVenue} {request : Request} (h : v.accepts request = true) :
    v.submit request = ({ v with nextId := v.nextId + 1 }, .ok (v.filled request)) := by
  simp only [accepts, Bool.and_eq_true, Bool.not_eq_true', decide_eq_true_eq] at h
  obtain ⟨⟨⟨hr, hk⟩, hq⟩, hp⟩ := h
  unfold submit
  rw [if_neg (by simp [hr, hk]), if_neg (by simp [hq, hp])]

theorem submit_of_not_accepts {v : SimulatedExecutionVenue} {request : Request}
    (h : v.accepts request = false) : ∃ what, v.submit request = (v, .error what) := by
  unfold submit
  split
  · exact ⟨_, rfl⟩
  · next hopen =>
    split
    · exact ⟨_, rfl⟩
    · next hvalid =>
      simp only [Bool.or_eq_true, Bool.not_eq_true', not_or, Bool.not_eq_false, Bool.not_eq_true] at hopen
      simp only [not_or, not_le] at hvalid
      simp [accepts, hopen, hvalid] at h

/-- **An accepted order is a confirmed fill** of what was asked for. -/
theorem filled_confirmed {v : SimulatedExecutionVenue} {request : Request} (h : v.accepts request = true) :
    (v.filled request).exchangeConfirmedFill = true := by
  simp only [accepts, Bool.and_eq_true, decide_eq_true_eq] at h
  rw [Snapshot.exchangeConfirmedFill_iff]
  refine ⟨rfl, ?_, h.1.2⟩
  have hid : (0 : Int) < v.nextId + 1 := by omega
  exact hid

end SimulatedExecutionVenue

end Sentum.Execution
