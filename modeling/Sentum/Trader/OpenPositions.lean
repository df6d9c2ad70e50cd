import Mathlib.Tactic.FieldSimp
import Mathlib.Tactic.Linarith
import Mathlib.Tactic.Ring
import Sentum.Trader.EngineBooks
import Sentum.Trader.Transitions

/-!
# Where a position comes from

A position keeps what its entry has made of the market price: quantity, entry
price, fee and target.  The engine does not record market prices, so a run is
observed by a `MarketRun` that notes the one of the last entry and those of
every completed trade.

`priced_exec` holds in every run; `waiting_tick` enters at any price that the
sizing checks let through.
-/

namespace Sentum.Risk

namespace RiskConfig

/-- What spread and slippage make of a market price in a buy. -/
def buyFactor (c : RiskConfig) : ℚ := (1 + c.spreadPercent * (1 / 2)) * (1 + c.slippagePercent)

def sellFactor (c : RiskConfig) : ℚ := (1 - c.spreadPercent * (1 / 2)) * (1 - c.slippagePercent)

/-- Some market price passes the sizing checks. -/
def Enterable (c : RiskConfig) : Prop :=
  ∃ price, 0 < price ∧ (RiskManager.entrySize c price).approved = true

end RiskConfig

theorem Valid.one_le_buyFactor {c : RiskConfig} (h : Valid c) : 1 ≤ c.buyFactor := by
  obtain ⟨-, -, hslippage, hspread⟩ := h.costs
  unfold RiskConfig.buyFactor
  nlinarith [mul_nonneg hspread hslippage]

end Sentum.Risk

namespace Sentum.Trader

open Sentum.Order Sentum.Market Sentum.Strategy Sentum.Risk Sentum.Execution Run

/-! ## One position -/

/-- `p` was opened at the market price `price`. -/
structure TradePosition.OpenedAt (risk : RiskConfig) (price : ℚ) (p : TradePosition) : Prop where
  marketPrice : 0 < price
  approved : (RiskManager.entrySize risk price).approved = true
  quantity : p.quantity = (RiskManager.entrySize risk price).quantity
  positive : 0 < p.quantity
  entryPrice : p.entryPrice = price * risk.buyFactor
  takeProfitPrice : p.takeProfitPrice = p.entryPrice * (1 + risk.takeProfitPercent)
  feeEntry : p.feeEntry = p.entryPrice * p.quantity * risk.buyFeePercent
  trailing : p.trailingSlEnabled = risk.trailingSlEnabled ∧ p.trailingSlPercent = risk.trailingSlPercent
  highest : p.entryPrice ≤ p.highestPrice
  /-- the stop of the entry, until a trailing stop follows the first new high -/
  stop : p.stopLossPrice =
    if risk.trailingSlEnabled = true ∧ p.entryPrice < p.highestPrice then
      p.highestPrice * (1 - risk.trailingSlPercent)
    else p.entryPrice * (1 - risk.stopLossPercent)

namespace TradePosition

variable {risk : RiskConfig} {price : ℚ} {p : TradePosition}

/-- Marking changes the extremes and a trailing stop. -/
theorem mark_eq (p : TradePosition) (x : ℚ) :
    p.mark x = { p with
      highestPrice := if p.highestPrice < x then x else p.highestPrice
      lowestPrice := if x < p.lowestPrice then x else p.lowestPrice
      stopLossPrice :=
        if p.highestPrice < x ∧ p.trailingSlEnabled = true then x * (1 - p.trailingSlPercent)
        else p.stopLossPrice } := by
  unfold mark lowered raised
  by_cases hhigh : p.highestPrice < x <;> by_cases hlow : x < p.lowestPrice <;>
    simp only [hhigh, hlow, if_true, if_false, true_and, false_and]

theorem OpenedAt.mark (h : p.OpenedAt risk price) (x : ℚ) : (p.mark x).OpenedAt risk price := by
  obtain ⟨henabled, hpercent⟩ := h.trailing
  rw [mark_eq]
  refine ⟨h.marketPrice, h.approved, h.quantity, h.positive, h.entryPrice, h.takeProfitPrice, h.feeEntry, h.trailing,
    ?_, ?_⟩
  · dsimp only
    split
    · next hlt => exact h.highest.trans (le_of_lt hlt)
    · exact h.highest
  · dsimp only
    rw [henabled, hpercent]
    by_cases hlt : p.highestPrice < x
    · have hentry : p.entryPrice < x := lt_of_le_of_lt h.highest hlt
      by_cases htrail : risk.trailingSlEnabled = true
      · simp only [hlt, htrail, hentry, and_self, if_true]
      · rw [if_neg (fun hn => htrail hn.2), if_neg (fun hn => htrail hn.1), h.stop, if_neg (fun hn => htrail hn.1)]
    · simp only [hlt, false_and, if_false]
      exact h.stop

theorem OpenedAt.settled (h : p.OpenedAt risk price) (r : RiskConfig) (fill : Snapshot) (reason : String) :
    (p.settled r fill reason).OpenedAt risk price :=
  ⟨h.marketPrice, h.approved, h.quantity, h.positive, h.entryPrice, h.takeProfitPrice, h.feeEntry, h.trailing, h.highest,
    h.stop⟩

end TradePosition

namespace TradeEngine

/-- The engine trades on these terms. -/
structure Terms (risk : RiskConfig) (e : TradeEngine) : Prop where
  config : e.risk = risk
  spread : e.venue.spreadPercent = risk.spreadPercent
  slippage : e.venue.slippagePercent = risk.slippagePercent

theorem terms_init {risk : RiskConfig} (hv : Valid risk) (symbol : String) (api : Bool) (strategy : IStrategy) :
    Terms risk (init symbol api risk strategy) :=
  ⟨rfl, max_eq_right hv.costs.2.2.2, max_eq_right hv.costs.2.2.1⟩

theorem Terms.same {risk : RiskConfig} {e e' : TradeEngine} (h : Terms risk e) (hs : SameTerms e e') :
    Terms risk e' :=
  ⟨hs.risk.trans h.config, hs.spread.trans h.spread, hs.slippage.trans h.slippage⟩

theorem fillPrice_buy {risk : RiskConfig} {e : TradeEngine} (h : Terms risk e) (price : ℚ) (now : TimePoint) :
    (e.venue.setMarket price now).fillPrice .buy = price * risk.buyFactor := by
  show price * (1 + e.venue.spreadPercent * (1 / 2)) * (1 + e.venue.slippagePercent) = _
  rw [h.spread, h.slippage, mul_assoc]
  rfl

theorem fillPrice_sell {risk : RiskConfig} {e : TradeEngine} (h : Terms risk e) (price : ℚ) (now : TimePoint) :
    (e.venue.setMarket price now).fillPrice .sell = price * risk.sellFactor := by
  show price * (1 - e.venue.spreadPercent * (1 / 2)) * (1 - e.venue.slippagePercent) = _
  rw [h.spread, h.slippage, mul_assoc]
  rfl

/-- The position that an entry opens. -/
theorem entryAt_openedAt {risk : RiskConfig} {e : TradeEngine} (h : Terms risk e) (signal : StrategySignal)
    {event : MarketEvent} (hprice : 0 < event.price)
    (happroved : (RiskManager.entrySize risk event.price).approved = true)
    (hquantity : 0 < (RiskManager.entrySize risk event.price).quantity) :
    (e.entryAt signal event).OpenedAt risk event.price := by
  have hfill := fillPrice_buy h event.price event.timestamp
  unfold entryAt entryRequest
  rw [h.config]
  refine ⟨hprice, happroved, rfl, hquantity, hfill, rfl, rfl, ⟨rfl, rfl⟩, le_rfl, ?_⟩
  exact (if_neg (fun hn => lt_irrefl _ hn.2)).symm

/-- The fill of an exit. -/
theorem exitFill_averageFillPrice {risk : RiskConfig} {e : TradeEngine} (h : Terms risk e) (quantity : ℚ)
    (event : MarketEvent) : (e.exitFill quantity event).averageFillPrice = event.price * risk.sellFactor :=
  fillPrice_sell h event.price event.timestamp

theorem Due.openedAt {risk : RiskConfig} {price : ℚ} {e : TradeEngine} {s : Surroundings} {event : MarketEvent}
    {p : TradePosition} {reason : String} (hdue : Due e s event p reason) (h : e.position.OpenedAt risk price) :
    p.OpenedAt risk price := by
  cases hdue with
  | manual hmanual => exact h
  | rule hmanual hrule => exact h.mark event.price

end TradeEngine

/-! ## Runs with the market prices -/

/-- A completed trade, with the market prices at its entry and at its exit. -/
structure MarketTrade where
  trade : TradePosition
  entryMarket : ℚ
  exitMarket : ℚ

structure MarketTrade.Priced (risk : RiskConfig) (t : MarketTrade) : Prop where
  opened : t.trade.OpenedAt risk t.entryMarket
  exitMarket : 0 < t.exitMarket
  netProfit : t.trade.netProfit =
    (t.exitMarket * risk.sellFactor - t.trade.entryPrice) * t.trade.quantity - t.trade.feeEntry -
      t.exitMarket * risk.sellFactor * t.trade.quantity * risk.sellFeePercent

structure MarketRun where
  run : EngineRun
  /-- the market price at the last entry -/
  entryMarket : ℚ := 0
  trades : List MarketTrade := []

namespace MarketRun

def start (symbol : String) (api : Bool) (risk : RiskConfig) (strategy : IStrategy) : MarketRun :=
  { run := .start symbol api risk strategy }

def step (m : MarketRun) (a : EngineAction) : MarketRun :=
  let next := m.run.step a
  match a with
  | .event _ _ _ event =>
    { run := next
      entryMarket :=
        if !m.run.engine.position.isOpen && next.engine.position.isOpen then event.price else m.entryMarket
      trades := m.trades ++ (next.engine.completed.drop m.run.engine.completed.length).map fun trade =>
        { trade, entryMarket := m.entryMarket, exitMarket := event.price } }
  | _ => { m with run := next }

@[simp] theorem run_step (m : MarketRun) (a : EngineAction) : (m.step a).run = m.run.step a := by
  cases a <;> rfl

/-- The observation does not change the run. -/
theorem run_exec (m : MarketRun) (as : List EngineAction) : (exec step m as).run = exec EngineRun.step m.run as := by
  induction as generalizing m with
  | nil => rfl
  | cons a as ih => rw [exec_cons, exec_cons, ih, run_step]

/-- **Invariant.** -/
structure Priced (risk : RiskConfig) (m : MarketRun) : Prop where
  terms : m.run.engine.Terms risk
  position : m.run.engine.position.isOpen = true → m.run.engine.position.OpenedAt risk m.entryMarket
  trades : ∀ t ∈ m.trades, t.Priced risk
  completed : m.trades.map MarketTrade.trade = m.run.engine.completed

variable {risk : RiskConfig}

theorem priced_start (hv : Valid risk) (symbol : String) (api : Bool) (strategy : IStrategy) :
    Priced risk (start symbol api risk strategy) where
  terms := TradeEngine.terms_init hv symbol api strategy
  position := fun hopen => absurd hopen Bool.false_ne_true
  trades := fun _ ht => absurd ht List.not_mem_nil
  completed := rfl

/-- The trade that an exit completes. -/
theorem priced_settled {e : TradeEngine} (h : e.Terms risk) {p : TradePosition} {price : ℚ}
    (hp : p.OpenedAt risk price) {event : MarketEvent} (hprice : 0 < event.price) (reason : String) :
    MarketTrade.Priced risk ⟨p.settled e.risk (e.exitFill p.quantity event) reason, price, event.price⟩ where
  opened := hp.settled _ _ _
  exitMarket := hprice
  netProfit := by
    have hfill := TradeEngine.exitFill_averageFillPrice h p.quantity event
    unfold TradePosition.settled
    dsimp only
    rw [hfill, h.config]

/-- **Step lemma**, for an event. -/
theorem Priced.event {m : MarketRun} (h : Priced risk m) (clockNow systemNow : TimePoint) (saves : Bool)
    (event : MarketEvent) : Priced risk (m.step (.event clockNow systemNow saves event)) := by
  have htrans := TradeEngine.processEvent_transition m.run.engine (m.run.surroundings clockNow systemNow saves) event
  unfold MarketRun.step EngineRun.step
  dsimp only
  generalize (m.run.engine.processEvent (m.run.surroundings clockNow systemNow saves) event).result = result
    at htrans
  generalize (m.run.engine.processEvent (m.run.surroundings clockNow systemNow saves) event).engine = e'
    at htrans ⊢
  cases htrans with
  | held hterms hno hposition hcompleted hexit hresult =>
    rw [hcompleted, List.drop_length, List.map_nil, List.append_nil]
    refine ⟨h.terms.same hterms, fun hopen => ?_, h.trades, h.completed.trans hcompleted.symm⟩
    dsimp only at hopen ⊢
    rcases hposition with hposition | ⟨hopen', -, hposition⟩
    · rw [hposition] at hopen ⊢
      rw [hopen, if_neg (by simp)]
      exact h.position hopen
    · rw [hposition, hopen', if_neg (by simp)]
      exact (h.position hopen').mark event.price
  | entered hterms henters hposition hcompleted hexit =>
    rw [hcompleted, List.drop_length, List.map_nil, List.append_nil]
    refine ⟨h.terms.same hterms, fun hopen => ?_, h.trades, h.completed.trans hcompleted.symm⟩
    have hsized := henters.sized
    dsimp only at hopen ⊢
    rw [hopen, henters.flat, if_pos (by simp), hposition]
    rw [h.terms.config] at hsized
    exact TradeEngine.entryAt_openedAt h.terms _ (TradeEngine.takes_price henters.takes) hsized.1 hsized.2
  | closed p reason hterms htakes hopen hdue hsaves hposition hcompleted hexit =>
    have hp := hdue.openedAt (h.position hopen)
    refine ⟨h.terms.same hterms, fun hopen' => ?_, fun t ht => ?_, ?_⟩
    · dsimp only at hopen'
      rw [hposition] at hopen'
      cases hopen'
    · dsimp only at ht
      rw [hcompleted, List.drop_left, List.map_singleton] at ht
      rcases List.mem_append.mp ht with ht | ht
      · exact h.trades t ht
      · rw [List.mem_singleton.mp ht]
        exact priced_settled h.terms hp (TradeEngine.takes_price htakes) reason
    · dsimp only
      rw [hcompleted, List.drop_left, List.map_append, h.completed]
      rfl
  | unsaved p reason what hterms htakes hopen hdue hsaves hposition hcompleted hexit =>
    rw [hcompleted, List.drop_length, List.map_nil, List.append_nil]
    refine ⟨h.terms.same hterms, fun _ => ?_, h.trades, h.completed.trans hcompleted.symm⟩
    dsimp only
    rw [hopen, if_neg (by simp), hposition]
    exact (hdue.openedAt (h.position hopen)).settled _ _ _

theorem Priced.step {m : MarketRun} (h : Priced risk m) (a : EngineAction) : Priced risk (m.step a) := by
  cases a with
  | event clockNow systemNow saves event => exact h.event clockNow systemNow saves event
  | pauseEntries value => exact ⟨h.terms, h.position, h.trades, h.completed⟩
  | requestManualClose => exact ⟨h.terms, h.position, h.trades, h.completed⟩
  | stop => exact ⟨⟨h.terms.config, h.terms.spread, h.terms.slippage⟩, h.position, h.trades, h.completed⟩

/-- **Run lemma.** -/
theorem priced_exec (hv : Valid risk) (symbol : String) (api : Bool) (strategy : IStrategy)
    (as : List EngineAction) : Priced risk (exec step (start symbol api risk strategy) as) :=
  exec_inv (fun _ a h => h.step a) (priced_start hv symbol api strategy) as

end MarketRun

namespace EngineRun

theorem risk_exec (symbol : String) (api : Bool) (risk : RiskConfig) (strategy : IStrategy)
    (as : List EngineAction) : (exec step (start symbol api risk strategy) as).engine.risk = risk := by
  have hkeep : ∀ (s : EngineRun) (a : EngineAction), s.engine.risk = risk → (s.step a).engine.risk = risk := ?_
  · exact exec_inv hkeep rfl as
  intro s a h
  cases a with
  | event clockNow systemNow saves event =>
    exact (TradeEngine.processEvent_transition s.engine (s.surroundings clockNow systemNow saves)
      event).sameTerms.risk.trans h
  | pauseEntries value => exact h
  | requestManualClose => exact h
  | stop => exact h

theorem terms_exec {risk : RiskConfig} (hv : Valid risk) (symbol : String) (api : Bool) (strategy : IStrategy)
    (as : List EngineAction) : (exec step (start symbol api risk strategy) as).engine.Terms risk := by
  have hpriced := MarketRun.priced_exec hv symbol api strategy as
  have hrun : (exec MarketRun.step (MarketRun.start symbol api risk strategy) as).run =
      exec step (start symbol api risk strategy) as := MarketRun.run_exec _ as
  exact hrun ▸ hpriced.terms

/-- The open position of a reachable state. -/
theorem exists_openedAt {risk : RiskConfig} (hv : Valid risk) (symbol : String) (api : Bool) (strategy : IStrategy)
    (as : List EngineAction)
    (hopen : (exec step (start symbol api risk strategy) as).engine.position.isOpen = true) :
    ∃ price, (exec step (start symbol api risk strategy) as).engine.position.OpenedAt risk price := by
  have hpriced := MarketRun.priced_exec hv symbol api strategy as
  have hrun : (exec MarketRun.step (MarketRun.start symbol api risk strategy) as).run =
      exec step (start symbol api risk strategy) as := MarketRun.run_exec _ as
  rw [← hrun] at hopen ⊢
  exact ⟨_, hpriced.position hopen⟩

end EngineRun

/-! ## Entering at a given price -/

/-- The price before a rise to `price`. -/
def before (price : ℚ) : EngineAction := .event (seconds 1) (seconds 1) true (btcEvent 1 (price / 2))

/-- A price in second 2. -/
def tick (price : ℚ) : EngineAction := .event (seconds 2) (seconds 2) true (btcEvent 2 price)

theorem quickMomentum_waits (x : ℚ) : (quickMomentum.onEvent (btcEvent 1 x)).2.action ≠ .buy := by
  unfold quickMomentum
  simp only [IStrategy.onEvent, MomentumStrategy.onPrice]
  exact fun h => by cases h

theorem quickMomentum_buys {x : ℚ} (h : 0 < x) :
    ((quickMomentum.onEvent (btcEvent 1 (x / 2))).1.onEvent (btcEvent 2 x)).2.action = .buy := by
  have hhalf : 0 < x / 2 := by positivity
  have hreturn : (x - x / 2) / (x / 2) = 1 := by
    field_simp
    ring
  have hcrossed : ¬ (x - x / 2) / (x / 2) < 1000⁻¹ := by
    rw [hreturn]
    norm_num
  unfold quickMomentum
  simp [IStrategy.onEvent, MomentumStrategy.onPrice, MomentumStrategy.init, RollingReturn.init,
    RollingReturn.push, RollingReturn.ready, RollingReturn.value, MarketEvent.tradedAt, btcEvent, h, hhalf]
  rw [if_neg hcrossed]

namespace EngineRun

/-- A step on an event whose processing is known. -/
theorem step_event {s : EngineRun} {e e' : TradeEngine} {control : RuntimeControl}
    {result : Except String TradeAction} {clockNow systemNow : TimePoint} {event : MarketEvent}
    (he : s.engine = e) (hc : s.control = {})
    (h : e.processEvent { clockNow, systemNow } event = ⟨e', control, result⟩) :
    (s.step (.event clockNow systemNow true event)).engine = e' ∧
      (s.step (.event clockNow systemNow true event)).control = control := by
  have hp : s.engine.processEvent (s.surroundings clockNow systemNow true) event = ⟨e', control, result⟩ := by
    unfold surroundings
    rw [he, hc]
    exact h
  exact ⟨congrArg Processed.engine hp, congrArg Processed.control hp⟩

/-- A replay that is about to see a rise to `price`. -/
def waiting (risk : RiskConfig) (price : ℚ) : EngineRun :=
  exec step (start "BTCUSDT" false risk quickMomentum) [before price]

/-- The rise is bought. -/
theorem waiting_tick {risk : RiskConfig} (hv : Valid risk) {price : ℚ} (hprice : 0 < price)
    (happroved : (RiskManager.entrySize risk price).approved = true) :
    (waiting risk price).engine.position.isOpen = false ∧
      ((waiting risk price).step (tick price)).control = {} ∧
      ∃ strategy signal, ((waiting risk price).step (tick price)).engine =
        (TradeEngine.init "BTCUSDT" false risk quickMomentum).entering strategy signal (btcEvent 2 price) := by
  have hidle : TradeEngine.Idle (TradeEngine.init "BTCUSDT" false risk quickMomentum) :=
    ⟨rfl, rfl, rfl, rfl, rfl, hv⟩
  have hage : ∀ now : TimePoint, now - now ≤ milliseconds risk.maxDataAgeMs := fun now => by
    rw [Int.sub_self]
    exact Int.mul_nonneg (le_of_lt hv.times.2.2) (by decide)
  have htakes : ∀ (n : Int) (x : ℚ), 0 < x →
      (TradeEngine.init "BTCUSDT" false risk quickMomentum).takes (seconds n) (btcEvent n x) = true :=
    fun n x hx => by simpa [TradeEngine.takes, TradeEngine.init, btcEvent, hx] using hage (seconds n)
  have hwaits : (TradeEngine.waiting (.init "BTCUSDT" false risk quickMomentum) quickMomentum 0).processEvent
      { clockNow := seconds 1, systemNow := seconds 1 } (btcEvent 1 (price / 2)) = _ :=
    TradeEngine.processEvent_waits hidle (htakes 1 (price / 2) (by positivity))
      (RiskManager.approveEntry_not_buy (quickMomentum_waits (price / 2)))
  have happrove := RiskManager.approveEntry_fresh (quickMomentum_buys hprice) hprice (hage (seconds 2))
  have henters : (TradeEngine.waiting (.init "BTCUSDT" false risk quickMomentum) _ (price / 2)).processEvent
      { clockNow := seconds 2, systemNow := seconds 2 } (btcEvent 2 price) = _ :=
    TradeEngine.processEvent_enters hidle (htakes 2 price hprice)
      ((congrArg RiskDecision.approved happrove).trans happroved)
  obtain ⟨hengine, hcontrol⟩ := step_event (s := start "BTCUSDT" false risk quickMomentum) rfl rfl hwaits
  obtain ⟨hengine', hcontrol'⟩ := step_event hengine hcontrol henters
  exact ⟨congrArg (fun e : TradeEngine => e.position.isOpen) hengine, hcontrol', _, _, hengine'⟩

/-- A replay that holds a position since second 2, entered at the market price `price`. -/
structure HeldAt (risk : RiskConfig) (price high : ℚ) (s : EngineRun) : Prop where
  holding : s.engine.Holding
  terms : s.engine.Terms risk
  symbol : s.engine.symbol = "BTCUSDT"
  control : s.control = {}
  opened : s.engine.position.OpenedAt risk price
  entryTime : s.engine.position.entryTime = seconds 2
  highest : s.engine.position.highestPrice = high

variable {risk : RiskConfig} {price high : ℚ}

theorem heldAt_waiting_tick (hv : Valid risk) (hprice : 0 < price)
    (happroved : (RiskManager.entrySize risk price).approved = true) :
    HeldAt risk price (price * risk.buyFactor) ((waiting risk price).step (tick price)) := by
  obtain ⟨-, hcontrol, strategy, signal, hengine⟩ := waiting_tick hv hprice happroved
  have hidle : TradeEngine.Idle (TradeEngine.init "BTCUSDT" false risk quickMomentum) :=
    ⟨rfl, rfl, rfl, rfl, rfl, hv⟩
  have hterms := TradeEngine.terms_init hv "BTCUSDT" false quickMomentum
  have hquantity : 0 < (RiskManager.entrySize risk price).quantity :=
    lt_of_lt_of_le hv.filters.2.2.1 (RiskManager.entrySize_approved happroved)
  have hopened := @TradeEngine.entryAt_openedAt risk _ hterms signal (btcEvent 2 price) hprice happroved hquantity
  refine ⟨?_, ?_, ?_, hcontrol, ?_, ?_, ?_⟩
  all_goals rw [hengine]
  · exact TradeEngine.Holding.entering hidle strategy signal (btcEvent 2 price) happroved
  · exact ⟨hterms.config, hterms.spread, hterms.slippage⟩
  · rfl
  · exact hopened
  · rfl
  · exact hopened.entryPrice

namespace HeldAt

variable {s : EngineRun}

theorem takes (h : HeldAt risk price high s) (hv : Valid risk) {x : ℚ} (hx : 0 < x) :
    s.engine.takes (seconds 2) (btcEvent 2 x) = true := by
  have hage : (0 : Int) ≤ milliseconds risk.maxDataAgeMs :=
    Int.mul_nonneg (le_of_lt hv.times.2.2) (by decide)
  simp [TradeEngine.takes, btcEvent, h.symbol, h.terms.config, hx, hage]

/-- A price that meets no exit rule marks the position. -/
theorem step_eq (h : HeldAt risk price high s) (hv : Valid risk) {x : ℚ} (hx : 0 < x)
    (hnone : (s.engine.position.mark x).exitReason risk x (seconds 2) = none) :
    (s.step (tick x)).engine = s.engine.holding (btcEvent 2 x) ∧ (s.step (tick x)).control = {} := by
  have hnone' : (s.engine.position.mark x).exitReason s.engine.risk x (seconds 2) = none := by
    rw [h.terms.config]
    exact hnone
  exact step_event rfl h.control
    (TradeEngine.processEvent_holds h.holding.isOpen (h.takes hv hx) hnone')

end HeldAt

end EngineRun

end Sentum.Trader
