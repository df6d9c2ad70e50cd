import Sentum.Order.OrderTypes
import Sentum.Risk.RiskManager

/-!
# The testnet strategy runtime

`onPrice` is what one price makes the runtime do up to its call of
`venue_->submit`: the request is the one it submits, and `activeOrder` is
already its id.  `onOrderUpdate` is what an account update does to the
runtime's own fields; a failed save stops the venue and touches none of them.

The runtime reads the clock for itself, for the entry check and for the id, so
a `PriceEvent` carries three readings.
-/

namespace Sentum.Execution

open Sentum Sentum.Order Strategy Risk Market

structure TestnetStrategyRuntime where
  symbol : String
  risk : RiskConfig
  strategy : IStrategy
  running : Bool := true
  activeOrder : String := ""
  exitReason : String := ""
  confirmedQuantity : ℚ := 0
  entryPrice : ℚ := 0
  entryTime : TimePoint := 0
  lastExit : TimePoint := 0

structure PriceEvent where
  price : ℚ
  /-- `system_clock::now()` in `on_price`, in `approve_entry` and in `id` -/
  now : TimePoint
  riskNow : TimePoint
  idNow : TimePoint

namespace TestnetStrategyRuntime

/-- `id(symbol, side)`, at the time `now` -/
def id (symbol side : String) (now : TimePoint) : String :=
  "sentum-" ++ symbol ++ "-" ++ side ++ "-" ++ toString (toMicroseconds now)

/-- `strategy_->on_price(price, now)` -/
def askStrategy (r : TestnetStrategyRuntime) (e : PriceEvent) : IStrategy × StrategySignal :=
  r.strategy.onEvent { price := e.price, close := e.price, timestamp := e.now }

/-- `confirmed_quantity_ <= 0` -/
def enter (r : TestnetStrategyRuntime) (e : PriceEvent) : TestnetStrategyRuntime × Option Request :=
  let (strategy, signal) := r.askStrategy e
  let r := { r with strategy }
  if signal.action ≠ .buy then (r, none)
  else
    let decision := RiskManager.approveEntry r.risk signal e.price e.now r.lastExit e.riskNow
    if !decision.approved then (r, none)
    else
      let request : Request :=
        { symbol := r.symbol, side := .buy, quantity := decision.quantity
          clientOrderId := id r.symbol "buy" e.idNow }
      ({ r with activeOrder := request.clientOrderId }, some request)

def stopHit (r : TestnetStrategyRuntime) (e : PriceEvent) : Bool :=
  decide (e.price ≤ r.entryPrice * (1 - r.risk.stopLossPercent))

def targetHit (r : TestnetStrategyRuntime) (e : PriceEvent) : Bool :=
  decide (r.entryPrice * (1 + r.risk.takeProfitPercent) ≤ e.price)

def timeoutHit (r : TestnetStrategyRuntime) (e : PriceEvent) : Bool :=
  decide (r.entryTime ≠ 0) && decide (seconds r.risk.maxHoldingSeconds ≤ e.now - r.entryTime)

/-- `confirmed_quantity_ > 0` -/
def exit (r : TestnetStrategyRuntime) (e : PriceEvent) : TestnetStrategyRuntime × Option Request :=
  if r.entryPrice ≤ 0 then (r, none)
  else if !r.stopHit e && !r.targetHit e && !r.timeoutHit e then (r, none)
  else
    let request : Request :=
      { symbol := r.symbol, side := .sell, quantity := r.confirmedQuantity
        clientOrderId := id r.symbol "sell" e.idNow }
    ({ r with
       exitReason :=
         if r.stopHit e then "stop_loss" else if r.targetHit e then "take_profit" else "maximum_holding_time"
       activeOrder := request.clientOrderId }, some request)

/-- `ready` is `venue_->ready()`. -/
def onPrice (r : TestnetStrategyRuntime) (ready : Bool) (e : PriceEvent) :
    TestnetStrategyRuntime × Option Request :=
  if !r.running || !ready || decide (e.price ≤ 0) then (r, none)
  else if r.activeOrder ≠ "" then (r, none)
  else if r.confirmedQuantity ≤ 0 then r.enter e
  else r.exit e

/-- The fields after a confirmed fill. -/
def fill (r : TestnetStrategyRuntime) (update : Snapshot) : TestnetStrategyRuntime :=
  match update.side with
  | .buy =>
    { r with
      confirmedQuantity := update.executedQuantity
      entryPrice := update.averageFillPrice
      entryTime := update.updatedAt
      activeOrder := "" }
  | .sell =>
    { r with
      confirmedQuantity := 0
      entryPrice := 0
      entryTime := 0
      lastExit := update.updatedAt
      strategy := r.strategy.reset
      activeOrder := "" }

def onOrderUpdate (r : TestnetStrategyRuntime) (update : Snapshot) : TestnetStrategyRuntime :=
  if update.state = .rejected ∨ update.state = .cancelled then { r with activeOrder := "" }
  else if !update.exchangeConfirmedFill then r
  else r.fill update

/-- The updates that clear `active_order_`, whatever their order is. -/
def clears (update : Snapshot) : Bool :=
  decide (update.state = .rejected) || decide (update.state = .cancelled) || update.exchangeConfirmedFill

/-! ## What one update does -/

section
variable (r : TestnetStrategyRuntime) (u : Snapshot)

@[simp] theorem onOrderUpdate_symbol : (r.onOrderUpdate u).symbol = r.symbol := by
  unfold onOrderUpdate fill
  repeat' split
  all_goals rfl

@[simp] theorem onOrderUpdate_risk : (r.onOrderUpdate u).risk = r.risk := by
  unfold onOrderUpdate fill
  repeat' split
  all_goals rfl

/-- An update that clears nothing changes nothing. -/
theorem onOrderUpdate_of_not_clears {u : Snapshot} (h : clears u = false) : r.onOrderUpdate u = r := by
  simp only [clears, Bool.or_eq_false_iff, decide_eq_false_iff_not] at h
  obtain ⟨⟨hr, hc⟩, hf⟩ := h
  unfold onOrderUpdate
  rw [if_neg (by simp [hr, hc]), if_pos (by simp [hf])]

/-- What is held after a confirmed fill. -/
def heldAfter (side : Side) (executed : ℚ) : ℚ :=
  match side with
  | .buy => executed
  | .sell => 0

/-- **One update** sets the quantity by a confirmed fill, of whatever symbol. -/
theorem onOrderUpdate_confirmedQuantity : (r.onOrderUpdate u).confirmedQuantity =
    if u.exchangeConfirmedFill then heldAfter u.side u.executedQuantity else r.confirmedQuantity := by
  by_cases hf : u.exchangeConfirmedFill = true
  · have hfilled := ((Snapshot.exchangeConfirmedFill_iff u).mp hf).1
    unfold onOrderUpdate
    rw [if_neg (by simp [hfilled]), if_neg (by simp [hf]), if_pos hf]
    cases hs : u.side <;> simp [fill, heldAfter, hs]
  · rw [if_neg hf]
    unfold onOrderUpdate
    split
    · rfl
    · rw [if_pos (by simpa using hf)]

end

/-! ## What one price does -/

theorem id_ne_empty (symbol side : String) (now : TimePoint) : id symbol side now ≠ "" := by
  intro h
  have hlen := congrArg String.length h
  have h0 : ("" : String).length = 0 := rfl
  have h7 : ("sentum-" : String).length = 7 := rfl
  simp only [id, String.length_append, h7, h0] at hlen
  omega

/-- The sizes the runtime asks for: the entry the risk settings allow at the
price, or all that is held. -/
inductive Sized (r : TestnetStrategyRuntime) (price : ℚ) : Request → Prop
  | entry {request : Request} (hside : request.side = .buy)
      (happroved : (RiskManager.entrySize r.risk price).approved = true)
      (hquantity : request.quantity = (RiskManager.entrySize r.risk price).quantity) : Sized r price request
  | exit {request : Request} (hside : request.side = .sell) (hheld : 0 < r.confirmedQuantity)
      (hquantity : request.quantity = r.confirmedQuantity) : Sized r price request

/-- A price that submits nothing. -/
structure Waits (r r' : TestnetStrategyRuntime) : Prop where
  only : ∃ strategy, r' = { r with strategy }

/-- A price that submits `request`. -/
structure Submits (r r' : TestnetStrategyRuntime) (price : ℚ) (request : Request) : Prop where
  idle : r.activeOrder = ""
  sized : Sized r price request
  symbol : request.symbol = r.symbol
  named : request.clientOrderId ≠ ""
  only : ∃ strategy exitReason, r' = { r with strategy, exitReason, activeOrder := request.clientOrderId }

theorem Waits.refl (r : TestnetStrategyRuntime) : Waits r r := ⟨r.strategy, rfl⟩

theorem enter_cases {r : TestnetStrategyRuntime} (hidle : r.activeOrder = "") (e : PriceEvent) :
    ((r.enter e).2 = none ∧ Waits r (r.enter e).1) ∨
      ∃ request, (r.enter e).2 = some request ∧ Submits r (r.enter e).1 e.price request := by
  unfold enter
  simp only
  split
  · exact Or.inl ⟨rfl, _, rfl⟩
  · split
    · exact Or.inl ⟨rfl, _, rfl⟩
    · next happroved =>
      simp only [Bool.not_eq_true', Bool.not_eq_false] at happroved
      obtain ⟨-, hsize⟩ := RiskManager.approveEntry_approved happroved
      refine Or.inr ⟨_, rfl, hidle, ?_, rfl, id_ne_empty _ _ _, _, _, rfl⟩
      exact .entry rfl (hsize ▸ happroved) (congrArg RiskDecision.quantity hsize)

theorem exit_cases {r : TestnetStrategyRuntime} (hidle : r.activeOrder = "") (hheld : 0 < r.confirmedQuantity)
    (e : PriceEvent) : ((r.exit e).2 = none ∧ Waits r (r.exit e).1) ∨
      ∃ request, (r.exit e).2 = some request ∧ Submits r (r.exit e).1 e.price request := by
  unfold exit
  split
  · exact Or.inl ⟨rfl, .refl r⟩
  · split
    · exact Or.inl ⟨rfl, .refl r⟩
    · exact Or.inr ⟨_, rfl, hidle, .exit rfl hheld rfl, rfl, id_ne_empty _ _ _, _, _, rfl⟩

/-- **One price** leaves the position alone; it submits at most one request,
and only while `active_order_` is empty. -/
theorem onPrice_cases (r : TestnetStrategyRuntime) (ready : Bool) (e : PriceEvent) :
    ((r.onPrice ready e).2 = none ∧ Waits r (r.onPrice ready e).1) ∨
      ∃ request, (r.onPrice ready e).2 = some request ∧
        Submits r (r.onPrice ready e).1 e.price request := by
  unfold onPrice
  split
  · exact Or.inl ⟨rfl, .refl r⟩
  · split
    · exact Or.inl ⟨rfl, .refl r⟩
    · next hidle =>
      split
      · exact enter_cases (not_not.mp hidle) e
      · next hheld => exact exit_cases (not_not.mp hidle) (not_le.mp hheld) e

end TestnetStrategyRuntime

end Sentum.Execution
