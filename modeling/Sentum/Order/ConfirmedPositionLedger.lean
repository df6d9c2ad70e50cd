import Mathlib.Algebra.Order.Field.Rat
import Mathlib.Data.List.AList
import Mathlib.Tactic.Linarith
import Sentum.Order.OrderTypes

/-!
# The confirmed position ledger

The ledger sees every snapshot the order manager publishes and acts on
exchange-confirmed fills only: a buy adds the executed quantity to its symbol,
a sell takes it off and drops what is left at or below `dust`.

`quantity` is the ledger as a function of the symbol, 0 where it has no entry;
`onOrderUpdate_quantity` is all that one update does to it.
-/

namespace Sentum.Order

structure ConfirmedPosition where
  symbol : String := ""
  quantity : ℚ := 0
  averageEntryPrice : ℚ := 0
  entryExchangeOrderId : Int := 0
  entryClientOrderId : String := ""
deriving DecidableEq

/-- `std::unordered_map<std::string, ConfirmedPosition>` -/
structure ConfirmedPositionLedger where
  positions : AList (fun _ : String => ConfirmedPosition) := ∅

namespace ConfirmedPositionLedger

/-- `1e-12` -/
def dust : ℚ := 1 / 10 ^ 12

theorem dust_pos : 0 < dust := by norm_num [dust]

def bought (position : ConfirmedPosition) (order : Snapshot) : ConfirmedPosition :=
  let previousQuote := position.quantity * position.averageEntryPrice
  let addedQuote := order.executedQuantity * order.averageFillPrice
  let quantity := position.quantity + order.executedQuantity
  { symbol := order.symbol, quantity
    averageEntryPrice := if 0 < quantity then (previousQuote + addedQuote) / quantity else 0
    entryExchangeOrderId := order.exchangeOrderId
    entryClientOrderId := order.clientOrderId }

def onOrderUpdate (l : ConfirmedPositionLedger) (order : Snapshot) : ConfirmedPositionLedger :=
  if !order.exchangeConfirmedFill then l
  else
    match order.side with
    | .buy => ⟨l.positions.insert order.symbol (bought ((l.positions.lookup order.symbol).getD {}) order)⟩
    | .sell =>
      match l.positions.lookup order.symbol with
      | none => l
      | some position =>
        let quantity := position.quantity - order.executedQuantity
        if quantity ≤ dust then ⟨l.positions.erase order.symbol⟩
        else ⟨l.positions.insert order.symbol { position with quantity }⟩

def get (l : ConfirmedPositionLedger) (symbol : String) : Option ConfirmedPosition :=
  l.positions.lookup symbol

/-- The ledger's quantity, 0 where it has no entry. -/
def quantity (l : ConfirmedPositionLedger) (symbol : String) : ℚ :=
  ((l.get symbol).map ConfirmedPosition.quantity).getD 0

@[simp] theorem quantity_empty (symbol : String) : quantity {} symbol = 0 := rfl

theorem onOrderUpdate_of_not_fill {order : Snapshot} (h : order.exchangeConfirmedFill = false)
    (l : ConfirmedPositionLedger) : l.onOrderUpdate order = l := by
  simp [onOrderUpdate, h]

theorem onOrderUpdate_of_state {order : Snapshot} (h : order.state ≠ .filled)
    (l : ConfirmedPositionLedger) : l.onOrderUpdate order = l :=
  onOrderUpdate_of_not_fill (Snapshot.exchangeConfirmedFill_of_state h) l

theorem foldl_onOrderUpdate_of_state {us : List Snapshot} (h : ∀ u ∈ us, u.state ≠ .filled)
    (l : ConfirmedPositionLedger) : us.foldl onOrderUpdate l = l := by
  induction us with
  | nil => rfl
  | cons u us ih =>
    rw [List.foldl_cons, onOrderUpdate_of_state (h u List.mem_cons_self),
      ih (fun v hv => h v (List.mem_cons_of_mem _ hv))]

/-- What a fill leaves of a quantity. -/
def afterFill (side : Side) (held executed : ℚ) : ℚ :=
  match side with
  | .buy => held + executed
  | .sell => if held - executed ≤ dust then 0 else held - executed

/-- **One confirmed fill** changes the quantity of its symbol and no other. -/
theorem onOrderUpdate_quantity {order : Snapshot} (h : order.exchangeConfirmedFill = true)
    (l : ConfirmedPositionLedger) (symbol : String) :
    (l.onOrderUpdate order).quantity symbol =
      if symbol = order.symbol then afterFill order.side (l.quantity symbol) order.executedQuantity
      else l.quantity symbol := by
  obtain ⟨-, -, hex⟩ := (Snapshot.exchangeConfirmedFill_iff order).mp h
  have hdust := dust_pos
  unfold onOrderUpdate
  simp only [h, Bool.not_true, Bool.false_eq_true, if_false]
  cases hs : order.side with
  | buy =>
    by_cases hsym : symbol = order.symbol
    · subst hsym
      cases hl : l.positions.lookup order.symbol <;>
        simp [quantity, get, hl, bought, afterFill]
    · simp [quantity, get, hsym]
  | sell =>
    by_cases hsym : symbol = order.symbol
    · subst hsym
      cases hl : l.positions.lookup order.symbol with
      | none =>
        have h0 : -order.executedQuantity ≤ dust := by linarith
        simp [quantity, get, hl, afterFill, h0]
      | some position =>
        by_cases hq : position.quantity - order.executedQuantity ≤ dust
        · simp only [hq, if_true]
          simp [quantity, get, hl, afterFill, hq]
        · simp only [hq, if_false]
          simp [quantity, get, hl, afterFill, hq]
    · cases hl : l.positions.lookup order.symbol with
      | none => simp [hsym]
      | some position =>
        simp only
        split <;> simp [quantity, get, hsym]

end ConfirmedPositionLedger

end Sentum.Order
