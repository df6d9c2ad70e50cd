import Mathlib.Data.Rat.Defs
import Sentum.Time.Clock

/-!
# Orders

A `Snapshot` is the local view of one order, a `Request` what the strategy
runtime asks for.  Quantities and prices are exact.
-/

namespace Sentum.Order

inductive Side where
  | buy
  | sell
deriving DecidableEq, Repr

inductive State where
  | pending
  | acknowledged
  | partiallyFilled
  | filled
  | cancelling
  | cancelled
  | rejected
deriving DecidableEq, Repr

def State.toString : State → String
  | pending => "pending"
  | acknowledged => "acknowledged"
  | partiallyFilled => "partially_filled"
  | filled => "filled"
  | cancelling => "cancelling"
  | cancelled => "cancelled"
  | rejected => "rejected"

/-- An order in one of these states is over at the exchange. -/
def State.Terminal (s : State) : Prop := s = filled ∨ s = cancelled ∨ s = rejected

instance (s : State) : Decidable s.Terminal :=
  inferInstanceAs (Decidable (s = .filled ∨ s = .cancelled ∨ s = .rejected))

structure Request where
  symbol : String := ""
  side : Side := .buy
  quantity : ℚ := 0
  clientOrderId : String := ""
deriving DecidableEq

structure Snapshot where
  symbol : String := ""
  clientOrderId : String := ""
  exchangeOrderId : Int := 0
  side : Side := .buy
  state : State := .pending
  requestedQuantity : ℚ := 0
  executedQuantity : ℚ := 0
  cumulativeQuoteQuantity : ℚ := 0
  averageFillPrice : ℚ := 0
  rejectionReason : String := ""
  updatedAt : TimePoint := 0
deriving DecidableEq

namespace Snapshot

def exchangeConfirmedFill (s : Snapshot) : Bool :=
  decide (s.state = .filled) && decide (0 < s.exchangeOrderId) && decide (0 < s.executedQuantity)

theorem exchangeConfirmedFill_iff (s : Snapshot) : s.exchangeConfirmedFill = true ↔
    s.state = .filled ∧ 0 < s.exchangeOrderId ∧ 0 < s.executedQuantity := by
  simp [exchangeConfirmedFill, and_assoc]

theorem exchangeConfirmedFill_of_state {s : Snapshot} (h : s.state ≠ .filled) :
    s.exchangeConfirmedFill = false := by
  simp [exchangeConfirmedFill, h]

end Snapshot

end Sentum.Order
