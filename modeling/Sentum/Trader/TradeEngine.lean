import Sentum.Execution.SimulatedExecutionVenue
import Sentum.Risk.RiskManager

/-!
# The trade engine

One call of `process_event`, as the source computes it: what it read from
outside is an argument (the injected clock, `system_clock::now` as
`approve_entry` reads it, the runtime control, the outcome of the database
write), and the engine it returns is the one an exception leaves behind too.

`processEvent_effect` is everything such a call can do to an engine.
-/

namespace Sentum.Trader

open Sentum.Order Sentum.Market Sentum.Strategy Sentum.Risk Sentum.Execution

/-- `RuntimeControl`, as far as the engine reads it. -/
structure RuntimeControl where
  entriesPaused : Bool := false
  manualClose : Bool := false
deriving DecidableEq

/-- `consume_manual_close` leaves the flag unset. -/
def RuntimeControl.consumed (c : RuntimeControl) : RuntimeControl := { c with manualClose := false }

structure TradePosition where
  isOpen : Bool := false
  simulated : Bool := false
  riskApproved : Bool := false
  symbol : String := ""
  source : String := ""
  strategy : String := ""
  signalReason : String := ""
  riskReason : String := ""
  referencePrice : ℚ := 0
  entryPrice : ℚ := 0
  quantity : ℚ := 0
  executedPrice : ℚ := 0
  signalTime : TimePoint := 0
  entryTime : TimePoint := 0
  highestPrice : ℚ := 0
  lowestPrice : ℚ := 0
  stopLossPrice : ℚ := 0
  takeProfitPrice : ℚ := 0
  exitPrice : ℚ := 0
  exitTime : TimePoint := 0
  grossProfit : ℚ := 0
  netProfit : ℚ := 0
  feeEntry : ℚ := 0
  feeExit : ℚ := 0
  capitalAtRisk : ℚ := 0
  riskPerTrade : ℚ := 0
  stopLossPercent : ℚ := 0
  trailingSlEnabled : Bool := false
  trailingSlPercent : ℚ := 0
  takeProfitPercent : ℚ := 0
  buyFeePercent : ℚ := 0
  sellFeePercent : ℚ := 0
  closeReason : String := ""
  stopLossTriggered : Bool := false
  takeProfitTriggered : Bool := false
deriving DecidableEq

namespace TradePosition

/-- The position a filled entry opens. -/
def entered (risk : RiskConfig) (symbol source : String) (signal : StrategySignal) (decision : RiskDecision)
    (fill : Snapshot) : TradePosition :=
  { isOpen := true, simulated := true, riskApproved := true, symbol, source
    strategy := signal.strategy, signalReason := signal.reason, riskReason := decision.reason
    referencePrice := signal.referencePrice
    entryPrice := fill.averageFillPrice, executedPrice := fill.averageFillPrice
    entryTime := fill.updatedAt, signalTime := signal.createdAt, quantity := fill.executedQuantity
    highestPrice := fill.averageFillPrice, lowestPrice := fill.averageFillPrice
    stopLossPrice := fill.averageFillPrice * (1 - risk.stopLossPercent)
    takeProfitPrice := fill.averageFillPrice * (1 + risk.takeProfitPercent)
    riskPerTrade := risk.riskPerTrade, capitalAtRisk := risk.maxTotalCapital * risk.riskPerTrade
    stopLossPercent := risk.stopLossPercent, takeProfitPercent := risk.takeProfitPercent
    trailingSlEnabled := risk.trailingSlEnabled, trailingSlPercent := risk.trailingSlPercent
    buyFeePercent := risk.buyFeePercent, sellFeePercent := risk.sellFeePercent
    feeEntry := fill.averageFillPrice * fill.executedQuantity * risk.buyFeePercent }

/-- A new high, which a trailing stop follows. -/
def raised (p : TradePosition) (price : ℚ) : TradePosition :=
  if p.highestPrice < price then
    { p with
      highestPrice := price
      stopLossPrice := if p.trailingSlEnabled then price * (1 - p.trailingSlPercent) else p.stopLossPrice }
  else p

def lowered (p : TradePosition) (price : ℚ) : TradePosition :=
  if price < p.lowestPrice then { p with lowestPrice := price } else p

/-- The extremes after one more price. -/
def mark (p : TradePosition) (price : ℚ) : TradePosition := (p.raised price).lowered price

/-- The rule that closes the position at this price and time, if any. -/
def exitReason (risk : RiskConfig) (p : TradePosition) (price : ℚ) (now : TimePoint) : Option String :=
  if price ≤ p.stopLossPrice then some "stop_loss"
  else if p.takeProfitPrice ≤ price then some "take_profit"
  else if seconds risk.maxHoldingSeconds ≤ now - p.entryTime then some "maximum_holding_time"
  else none

/-- The position with its exit fill. -/
def settled (risk : RiskConfig) (p : TradePosition) (fill : Snapshot) (reason : String) : TradePosition :=
  let gross := (fill.averageFillPrice - p.entryPrice) * p.quantity
  let feeExit := fill.averageFillPrice * p.quantity * risk.sellFeePercent
  { p with
    exitPrice := fill.averageFillPrice, exitTime := fill.updatedAt, closeReason := reason
    stopLossTriggered := decide (reason = "stop_loss")
    takeProfitTriggered := decide (reason = "take_profit")
    grossProfit := gross, feeExit, netProfit := gross - p.feeEntry - feeExit }

@[simp] theorem mark_isOpen (p : TradePosition) (price : ℚ) : (p.mark price).isOpen = p.isOpen := by
  unfold mark lowered raised
  repeat' split
  all_goals rfl

@[simp] theorem mark_quantity (p : TradePosition) (price : ℚ) : (p.mark price).quantity = p.quantity := by
  unfold mark lowered raised
  repeat' split
  all_goals rfl

end TradePosition

structure TradeEngine where
  symbol : String
  /-- the engine of a network run -/
  api : Bool := false
  risk : RiskConfig
  position : TradePosition := {}
  totalProfit : ℚ := 0
  winCount : Nat := 0
  loseCount : Nat := 0
  strategy : IStrategy
  venue : SimulatedExecutionVenue
  completed : List TradePosition := []
  lastExit : TimePoint := 0
  latestPrice : ℚ := 0

/-- What a call found outside the engine. -/
structure Surroundings where
  /-- `clock->now()` -/
  clockNow : TimePoint
  /-- `system_clock::now()` in `approve_entry` -/
  systemNow : TimePoint
  control : RuntimeControl := {}
  /-- `history->save` does not throw -/
  saves : Bool := true

structure Processed where
  engine : TradeEngine
  control : RuntimeControl
  result : Except String TradeAction

namespace TradeEngine

/-- The constructor and `initialize_components`. -/
def init (symbol : String) (api : Bool) (risk : RiskConfig) (strategy : IStrategy) : TradeEngine :=
  { symbol, api, risk, strategy
    venue := ({ name := if api then "paper" else "replay" } : SimulatedExecutionVenue).setFillModel
      risk.spreadPercent risk.slippagePercent |>.start }

def source (e : TradeEngine) : String := if e.api then "binance-websocket" else "replay"

def request (e : TradeEngine) (side : Side) (quantity : ℚ) (now : TimePoint) (purpose : String) : Request :=
  { symbol := e.symbol, side, quantity
    clientOrderId := "sentum-" ++ e.symbol ++ "-" ++ purpose ++ "-" ++ toString (toMicroseconds now) }

def execute (e : TradeEngine) (side : Side) (quantity price : ℚ) (now : TimePoint) (purpose : String) :
    SimulatedExecutionVenue × Except String Snapshot :=
  (e.venue.setMarket price now).submit (e.request side quantity now purpose)

/-- `close_position` up to the database write: the position is settled and booked. -/
def booked (e : TradeEngine) (fill : Snapshot) (reason : String) : TradeEngine :=
  let position := e.position.settled e.risk fill reason
  { e with
    position
    totalProfit := e.totalProfit + position.netProfit
    winCount := if 0 ≤ position.netProfit then e.winCount + 1 else e.winCount
    loseCount := if 0 ≤ position.netProfit then e.loseCount else e.loseCount + 1 }

/-- `close_position` after the database write. -/
def retired (e : TradeEngine) : TradeEngine :=
  { e with
    completed := e.completed ++ [e.position]
    lastExit := e.position.exitTime
    position := { e.position with isOpen := false }
    strategy := e.strategy.reset }

def closePosition (e : TradeEngine) (marketPrice : ℚ) (reason : String) (now : TimePoint) (saves : Bool) :
    TradeEngine × Except String TradeAction :=
  match e.execute .sell e.position.quantity marketPrice now "sell" with
  | (venue, .error what) => ({ e with venue }, .error what)
  | (venue, .ok fill) =>
    let e := { e with venue }
    if !fill.exchangeConfirmedFill then (e, .ok .none)
    else
      let e := e.booked fill reason
      if !saves then (e, .error "Failed to persist trade history") else (e.retired, .ok .sell)

/-- The flat branch of `evaluate_at`, once entries are not paused. -/
def tryEntry (e : TradeEngine) (price : ℚ) (now systemNow : TimePoint) (event : MarketEvent) :
    TradeEngine × Except String TradeAction :=
  let (strategy, signal) := e.strategy.onEvent event
  let e := { e with strategy }
  if signal.action ≠ .buy then (e, .ok .none)
  else
    let decision := RiskManager.approveEntry e.risk signal price now e.lastExit systemNow
    if !decision.approved then (e, .ok .none)
    else
      match e.execute .buy decision.quantity price now "buy" with
      | (venue, .error what) => ({ e with venue }, .error what)
      | (venue, .ok fill) =>
        let e := { e with venue }
        if !fill.exchangeConfirmedFill then (e, .ok .none)
        else
          ({ e with position := .entered e.risk e.symbol e.source signal decision fill }, .ok .buy)

def evaluateAt (e : TradeEngine) (s : Surroundings) (price : ℚ) (now : TimePoint) (event : MarketEvent) :
    Processed :=
  if e.position.isOpen then
    if s.control.manualClose then
      let (e, result) := e.closePosition price "manual_close" now s.saves
      { engine := e, control := s.control.consumed, result }
    else
      let e := { e with position := e.position.mark price }
      match e.position.exitReason e.risk price now with
      | some reason =>
        let (e, result) := e.closePosition price reason now s.saves
        { engine := e, control := s.control.consumed, result }
      | none => { engine := e, control := s.control.consumed, result := .ok .none }
  -- a close request issued while flat is dropped
  else if s.control.entriesPaused then { engine := e, control := s.control.consumed, result := .ok .none }
  else
    let (e, result) := e.tryEntry price now s.systemNow event
    { engine := e, control := s.control.consumed, result }

/-- The event is for this engine, has a price and is not stale. -/
def takes (e : TradeEngine) (clockNow : TimePoint) (event : MarketEvent) : Bool :=
  decide (event.symbol = e.symbol) && decide (0 < event.price) &&
    decide (clockNow - event.timestamp ≤ milliseconds e.risk.maxDataAgeMs)

def processEvent (e : TradeEngine) (s : Surroundings) (event : MarketEvent) : Processed :=
  if e.takes s.clockNow event then
    { e with latestPrice := event.price }.evaluateAt s event.price event.timestamp event
  else { engine := e, control := s.control, result := .ok .none }

/-! ## What a call can do -/

/-- The engine's position is to be closed at this price and time. -/
def exits (e : TradeEngine) (s : Surroundings) (event : MarketEvent) : Bool :=
  s.control.manualClose ||
    ((e.position.mark event.price).exitReason e.risk event.price event.timestamp).isSome

/-- The venue takes the sell. -/
def sells (e : TradeEngine) (event : MarketEvent) : Bool :=
  (e.venue.setMarket event.price event.timestamp).accepts
    (e.request .sell e.position.quantity event.timestamp "sell")

/-- The call reaches the booking of a closed position. -/
def closes (e : TradeEngine) (s : Surroundings) (event : MarketEvent) : Bool :=
  e.takes s.clockNow event && e.position.isOpen && e.exits s event && e.sells event

structure SameBooks (e e' : TradeEngine) : Prop where
  totalProfit : e'.totalProfit = e.totalProfit
  wins : e'.winCount = e.winCount
  losses : e'.loseCount = e.loseCount
  completed : e'.completed = e.completed

/-- What a call does to the books and to whether a position is open; `closes`
says that it reaches the booking, `saves` that the database takes it. -/
inductive Effect (e : TradeEngine) (saves : Bool) : Bool → TradeEngine → Prop
  | kept {e' : TradeEngine} (hbooks : SameBooks e e') (hopen : e'.position.isOpen = e.position.isOpen) :
      Effect e saves false e'
  | entered {e' : TradeEngine} (hbooks : SameBooks e e') (hflat : e.position.isOpen = false)
      (hopen : e'.position.isOpen = true) : Effect e saves false e'
  | closed {e' : TradeEngine} (p : TradePosition) (hopen : e.position.isOpen = true) (hsaves : saves = true)
      (hprofit : e'.totalProfit = e.totalProfit + p.netProfit)
      (hcount : e'.winCount + e'.loseCount = e.winCount + e.loseCount + 1)
      (hcompleted : e'.completed = e.completed ++ [p]) (hflat : e'.position.isOpen = false) :
      Effect e saves true e'
  | bookedOnly {e' : TradeEngine} (p : TradePosition) (hopen : e.position.isOpen = true)
      (hsaves : saves = false) (hprofit : e'.totalProfit = e.totalProfit + p.netProfit)
      (hcount : e'.winCount + e'.loseCount = e.winCount + e.loseCount + 1)
      (hcompleted : e'.completed = e.completed) (hstill : e'.position.isOpen = true) :
      Effect e saves true e'

/-- Only the books and the open position of the engine before matter. -/
theorem Effect.rebase {e e₀ e' : TradeEngine} {saves closes : Bool} (hb : SameBooks e e₀)
    (ho : e₀.position.isOpen = e.position.isOpen) (h : Effect e₀ saves closes e') : Effect e saves closes e' := by
  obtain ⟨hp, hw, hl, hc⟩ := hb
  cases h with
  | kept hbooks hopen =>
    obtain ⟨hp', hw', hl', hc'⟩ := hbooks
    exact .kept ⟨hp'.trans hp, hw'.trans hw, hl'.trans hl, hc'.trans hc⟩ (hopen.trans ho)
  | entered hbooks hflat hopen =>
    obtain ⟨hp', hw', hl', hc'⟩ := hbooks
    exact .entered ⟨hp'.trans hp, hw'.trans hw, hl'.trans hl, hc'.trans hc⟩ (ho ▸ hflat) hopen
  | closed p hopen hsaves hprofit hcount hcompleted hflat =>
    exact .closed p (ho ▸ hopen) hsaves (hp ▸ hprofit) (hw ▸ hl ▸ hcount) (hc ▸ hcompleted) hflat
  | bookedOnly p hopen hsaves hprofit hcount hcompleted hstill =>
    exact .bookedOnly p (ho ▸ hopen) hsaves (hp ▸ hprofit) (hw ▸ hl ▸ hcount) (hc ▸ hcompleted) hstill

theorem booked_count (e : TradeEngine) (fill : Snapshot) (reason : String) :
    (e.booked fill reason).winCount + (e.booked fill reason).loseCount = e.winCount + e.loseCount + 1 := by
  unfold booked
  simp only
  split <;> omega

/-- `close_position` of an open position. -/
theorem closePosition_effect {e : TradeEngine} (hopen : e.position.isOpen = true) (price : ℚ)
    (reason : String) (now : TimePoint) (saves : Bool) :
    Effect e saves
      ((e.venue.setMarket price now).accepts (e.request .sell e.position.quantity now "sell"))
      (e.closePosition price reason now saves).1 := by
  cases ha : (e.venue.setMarket price now).accepts (e.request .sell e.position.quantity now "sell") with
  | false =>
    obtain ⟨what, hs⟩ := SimulatedExecutionVenue.submit_of_not_accepts ha
    simp only [closePosition, execute, hs]
    exact .kept ⟨rfl, rfl, rfl, rfl⟩ rfl
  | true =>
    have hfill := SimulatedExecutionVenue.filled_confirmed ha
    simp only [closePosition, execute, SimulatedExecutionVenue.submit_of_accepts ha, hfill, Bool.not_true,
      Bool.false_eq_true, if_false]
    cases saves with
    | true => exact .closed _ hopen rfl rfl (booked_count _ _ reason) rfl rfl
    | false => exact .bookedOnly _ hopen rfl rfl (booked_count _ _ reason) rfl hopen

/-- The flat branch enters, or leaves books and position alone. -/
theorem tryEntry_effect {e : TradeEngine} (hflat : e.position.isOpen = false) (price : ℚ)
    (now systemNow : TimePoint) (event : MarketEvent) (saves : Bool) :
    Effect e saves false (e.tryEntry price now systemNow event).1 := by
  unfold tryEntry
  simp only
  split
  · exact .kept ⟨rfl, rfl, rfl, rfl⟩ rfl
  · split
    · exact .kept ⟨rfl, rfl, rfl, rfl⟩ rfl
    · split
      · exact .kept ⟨rfl, rfl, rfl, rfl⟩ rfl
      · split
        · exact .kept ⟨rfl, rfl, rfl, rfl⟩ rfl
        · exact .entered ⟨rfl, rfl, rfl, rfl⟩ hflat rfl

theorem evaluateAt_effect (e : TradeEngine) (s : Surroundings) (event : MarketEvent) :
    Effect e s.saves (e.position.isOpen && e.exits s event && e.sells event)
      (e.evaluateAt s event.price event.timestamp event).engine := by
  unfold evaluateAt exits sells
  cases hopen : e.position.isOpen with
  | false =>
    simp only [Bool.false_eq_true, if_false, Bool.false_and]
    split
    · exact .kept ⟨rfl, rfl, rfl, rfl⟩ rfl
    · exact tryEntry_effect hopen _ _ _ _ _
  | true =>
    simp only [if_true, Bool.true_and]
    cases hm : s.control.manualClose with
    | true =>
      simp only [if_true, Bool.true_or, Bool.true_and]
      exact closePosition_effect hopen _ _ _ _
    | false =>
      simp only [Bool.false_eq_true, if_false, Bool.false_or]
      have hmark : (e.position.mark event.price).isOpen = true := by rw [TradePosition.mark_isOpen, hopen]
      cases hx : (e.position.mark event.price).exitReason e.risk event.price event.timestamp with
      | none =>
        simp only [Option.isSome_none, Bool.false_and]
        exact .kept ⟨rfl, rfl, rfl, rfl⟩ (hmark.trans hopen.symm)
      | some reason =>
        simp only [Option.isSome_some, Bool.true_and]
        -- marking the position changes neither books nor quantity
        have heff := closePosition_effect (e := { e with position := e.position.mark event.price }) hmark
          event.price reason event.timestamp s.saves
        have hq : (e.position.mark event.price).quantity = e.position.quantity := TradePosition.mark_quantity _ _
        simp only [hq] at heff
        have hb : SameBooks e { e with position := e.position.mark event.price } := ⟨rfl, rfl, rfl, rfl⟩
        exact heff.rebase hb (hmark.trans hopen.symm)

/-- **One call of `process_event`.** -/
theorem processEvent_effect (e : TradeEngine) (s : Surroundings) (event : MarketEvent) :
    Effect e s.saves (e.closes s event) (e.processEvent s event).engine := by
  unfold processEvent closes
  cases ht : e.takes s.clockNow event with
  | false =>
    simp only [Bool.false_eq_true, if_false, Bool.false_and]
    exact .kept ⟨rfl, rfl, rfl, rfl⟩ rfl
  | true =>
    simp only [if_true, Bool.true_and]
    have heff := evaluateAt_effect { e with latestPrice := event.price } s event
    have hb : SameBooks e { e with latestPrice := event.price } := ⟨rfl, rfl, rfl, rfl⟩
    exact heff.rebase hb rfl

theorem closePosition_symbol (e : TradeEngine) (price : ℚ) (reason : String) (now : TimePoint) (saves : Bool) :
    (e.closePosition price reason now saves).1.symbol = e.symbol := by
  unfold closePosition
  split
  · rfl
  · simp only
    split
    · rfl
    · split <;> rfl

theorem tryEntry_symbol (e : TradeEngine) (price : ℚ) (now systemNow : TimePoint) (event : MarketEvent) :
    (e.tryEntry price now systemNow event).1.symbol = e.symbol := by
  unfold tryEntry
  simp only
  split
  · rfl
  · split
    · rfl
    · split
      · rfl
      · split <;> rfl

/-- An engine trades one symbol all its life. -/
theorem processEvent_symbol (e : TradeEngine) (s : Surroundings) (event : MarketEvent) :
    (e.processEvent s event).engine.symbol = e.symbol := by
  unfold processEvent evaluateAt
  split
  · split
    · split
      · exact closePosition_symbol _ _ _ _ _
      · simp only
        split
        · exact closePosition_symbol _ _ _ _ _
        · rfl
    · split
      · rfl
      · exact tryEntry_symbol _ _ _ _ _
  · rfl

end TradeEngine

/-! ## A round trip -/

/-- Momentum over the last two prices. -/
def quickMomentumDocument : Json :=
  .object [("type", .string "momentum"),
    ("parameters", .object [("lookback", .integer 2), ("entry_threshold", .float (1 / 1000))])]

def quickMomentum : IStrategy := .momentum (.init 2 (1 / 1000))

theorem quickMomentum_created : StrategyFactory.create quickMomentumDocument = .ok quickMomentum := rfl

def btcEvent (second : Int) (price : ℚ) : MarketEvent :=
  { symbol := "BTCUSDT", timestamp := seconds second, price, close := price }

/-- A rise that is bought, and one that takes the profit. -/
def roundTripEvents : List MarketEvent := [btcEvent 1 100, btcEvent 2 101, btcEvent 3 110]

end Sentum.Trader
