import Sentum.Backtest.Metrics
import Sentum.Research.ResearchPlatform
import Sentum.Risk.PortfolioRiskManager
import Sentum.Std.Sort

/-!
# Portfolio research

`PortfolioResearchRunner::run` replays each dataset by itself and then goes
through all candidate trades in the order of their entries: positions that
have ended are closed, the portfolio risk manager decides, and an accepted
trade is opened at its final size.
-/

namespace Sentum.Research

open Sentum Market Strategy Risk Trader Backtest PortfolioRiskManager

/-! ## Configuration -/

structure PortfolioDataset where
  path : String
  symbol : String
  weight : ℚ := 1
deriving DecidableEq

def defaultStrategy : Json :=
  .object [("type", .string "momentum"),
    ("parameters", .object [("lookback", .integer 20), ("entry_threshold", .float (1 / 1000))])]

structure PortfolioResearchConfig where
  datasets : List PortfolioDataset := []
  strategy : Json := defaultStrategy
  portfolioRisk : PortfolioRiskConfig := {}
  startingEquity : ℚ := 100000

def loadDataset (item : Json) : Except String PortfolioDataset := do
  let path ← item.value Json.getString "path" ""
  let symbol ← item.value Json.getString "symbol" ""
  let weight ← item.value Json.getDouble "weight" 1
  if path = "" ∨ symbol = "" ∨ ¬ 0 < weight then .error "invalid portfolio dataset"
  else return { path, symbol, weight }

/-- The part `portfolio_risk`; the multiplier's bounds cannot be configured. -/
def loadPortfolioRisk (r : Json) : Except String PortfolioRiskConfig := do
  let maxGrossExposure ← r.value Json.getDouble "max_gross_exposure" 1
  let maxAssetExposure ← r.value Json.getDouble "max_asset_exposure" (35 / 100)
  let maxCorrelatedExposure ← r.value Json.getDouble "max_correlated_exposure" (60 / 100)
  let maxDailyDrawdown ← r.value Json.getDouble "max_daily_drawdown" (5 / 100)
  let maxConsecutiveLosses ← r.value Json.getSize "max_consecutive_losses" 5
  let maxTradesPerHour ← r.value Json.getSize "max_trades_per_hour" 20
  let targetVolatility ← r.value Json.getDouble "target_volatility" (2 / 100)
  let correlationThreshold ← r.value Json.getDouble "correlation_threshold" (75 / 100)
  return {
    maxGrossExposure, maxAssetExposure, maxCorrelatedExposure, maxDailyDrawdown, maxConsecutiveLosses
    maxTradesPerHour, targetVolatility, correlationThreshold }

def portfolioRiskOf (json : Json) : Except String PortfolioRiskConfig :=
  match json.find? "portfolio_risk" with
  | none => .ok {}
  | some r => loadPortfolioRisk r

/-- `load_portfolio_research_config` of a document that has been opened and parsed. -/
def loadPortfolioResearchConfig (json : Json) : Except String PortfolioResearchConfig := do
  let strategy ← json.value .ok "strategy" defaultStrategy
  let startingEquity ← json.value Json.getDouble "starting_equity" 100000
  if ¬ 0 < startingEquity then .error "starting_equity must be positive"
  else
    match json.find? "datasets" with
    | some (.array (item :: items)) => do
      let datasets ← (item :: items).mapM loadDataset
      let portfolioRisk ← portfolioRiskOf json
      return { datasets, strategy, portfolioRisk, startingEquity }
    | _ => .error "portfolio research requires a non-empty datasets array"

/-! ## Candidate trades -/

def scaleTrade (t : TradePosition) (multiplier : ℚ) : TradePosition :=
  { t with
    quantity := t.quantity * multiplier, grossProfit := t.grossProfit * multiplier
    netProfit := t.netProfit * multiplier, feeEntry := t.feeEntry * multiplier
    feeExit := t.feeExit * multiplier, capitalAtRisk := t.capitalAtRisk * multiplier }

structure AssetData where
  cfg : PortfolioDataset
  events : List MarketEvent
  trades : List TradePosition
  vol : ℚ := 0

def realizedVolatility (fn : Cmath) (events : List MarketEvent) : ℚ :=
  if events.length < 3 then 0
  else
    let r := logReturns fn events
    if r.length < 2 then 0 else fn.sqrt (variance r) * fn.sqrt (365 * 24 * 60 * 60)

/-- The log returns of two series, where both have one. -/
def jointReturns (fn : Cmath) : List MarketEvent → List MarketEvent → List (ℚ × ℚ)
  | a :: a' :: as, b :: b' :: bs =>
    if 0 < a.price ∧ 0 < a'.price ∧ 0 < b.price ∧ 0 < b'.price then
      (fn.log (a'.price / a.price), fn.log (b'.price / b.price)) :: jointReturns fn (a' :: as) (b' :: bs)
    else jointReturns fn (a' :: as) (b' :: bs)
  | _, _ => []

def correlation (fn : Cmath) (a b : List MarketEvent) : ℚ :=
  if min a.length b.length < 3 then 0
  else
    let xy := jointReturns fn a b
    if xy.length < 2 then 0
    else
      let mx := (xy.map Prod.fst).sum / xy.length
      let my := (xy.map Prod.snd).sum / xy.length
      let cov := (xy.map fun p => (p.1 - mx) * (p.2 - my)).sum
      let vx := (xy.map fun p => (p.1 - mx) * (p.1 - mx)).sum
      let vy := (xy.map fun p => (p.2 - my) * (p.2 - my)).sum
      if 0 < vx ∧ 0 < vy then cov / fn.sqrt (vx * vy) else 0

/-- `out[a][b] = correlation(a, b)` for all pairs of assets. -/
def correlations (fn : Cmath) (assets : List AssetData) : CorrelationMap :=
  assets.foldl (fun out a => assets.foldl (fun out b =>
    out.insert a.cfg.symbol (((out.lookup a.cfg.symbol).getD ∅).insert b.cfg.symbol
      (correlation fn a.events b.events))) out) ∅

def volatilities (assets : List AssetData) : SymbolMap :=
  assets.foldl (fun out a => out.insert a.cfg.symbol a.vol) ∅

/-- The comparator of the candidates: by entry time, then by symbol. -/
def entryLe (a b : TradePosition) : Prop :=
  a.entryTime < b.entryTime ∨ a.entryTime = b.entryTime ∧ a.symbol ≤ b.symbol

def exitLe (a b : TradePosition) : Prop := a.exitTime ≤ b.exitTime

instance : DecidableRel entryLe := fun a b =>
  inferInstanceAs (Decidable (a.entryTime < b.entryTime ∨ a.entryTime = b.entryTime ∧ a.symbol ≤ b.symbol))

instance : DecidableRel exitLe := fun a b => inferInstanceAs (Decidable (a.exitTime ≤ b.exitTime))

instance : Std.Total entryLe where
  total a b := by
    rcases lt_trichotomy a.entryTime b.entryTime with h | h | h
    · exact Or.inl (Or.inl h)
    · rcases String.le_total a.symbol b.symbol with hs | hs
      · exact Or.inl (Or.inr ⟨h, hs⟩)
      · exact Or.inr (Or.inr ⟨h.symm, hs⟩)
    · exact Or.inr (Or.inl h)

instance : IsTrans TradePosition entryLe where
  trans a b c := by
    rintro (hab | ⟨hab, hab'⟩) (hbc | ⟨hbc, hbc'⟩)
    · exact Or.inl (hab.trans hbc)
    · exact Or.inl (hbc ▸ hab)
    · exact Or.inl (hab ▸ hbc)
    · exact Or.inr ⟨hab.trans hbc, String.le_trans hab' hbc'⟩

instance : Std.Total exitLe where
  total a b := le_total a.exitTime b.exitTime

instance : IsTrans TradePosition exitLe where
  trans _ _ _ hab hbc := le_trans (α := Int) hab hbc

/-! ## The acceptance loop -/

structure PortfolioLoop where
  equity : ℚ
  openTrades : List TradePosition := []
  /-- `accepted` of the source: accepted and closed since -/
  accepted : List TradePosition := []
  tradeTimes : List TimePoint := []
  consecutiveLosses : Nat := 0
  acceptedTrades : Nat := 0
  rejectedTrades : Nat := 0

/-- What an acceptance loop does not change. -/
structure PortfolioTerms where
  risk : PortfolioRiskConfig := {}
  dayStart : ℚ
  correlations : CorrelationMap := ∅
  volatility : SymbolMap := ∅

/-- The terms of a run under this configuration. -/
def PortfolioResearchConfig.terms (config : PortfolioResearchConfig) (correlations : CorrelationMap)
    (volatility : SymbolMap) : PortfolioTerms :=
  { risk := config.portfolioRisk, dayStart := config.startingEquity, correlations, volatility }

/-- The loop before the first candidate. -/
def PortfolioResearchConfig.start (config : PortfolioResearchConfig) : PortfolioLoop :=
  { equity := config.startingEquity }

namespace PortfolioLoop

/-- One position is closed. -/
def close (s : PortfolioLoop) (t : TradePosition) : PortfolioLoop :=
  { s with
    equity := s.equity + t.netProfit
    consecutiveLosses := if t.netProfit < 0 then s.consecutiveLosses + 1 else 0
    accepted := s.accepted ++ [t] }

/-- The position has ended; `time_point::max()` is `⊤`. -/
def due (time : WithTop TimePoint) (t : TradePosition) : Bool :=
  match time with
  | none => true
  | some now => decide (t.exitTime ≤ now)

/-- `close_until` at one open position: it is erased, or the iterator moves on. -/
def visit (time : WithTop TimePoint) (s : PortfolioLoop) (t : TradePosition) : PortfolioLoop :=
  if due time t then s.close t else { s with openTrades := s.openTrades ++ [t] }

def closeUntil (time : WithTop TimePoint) (s : PortfolioLoop) : PortfolioLoop :=
  s.openTrades.foldl (visit time) { s with openTrades := [] }

def notional (t : TradePosition) : ℚ := t.entryPrice * t.quantity

def snapshot (terms : PortfolioTerms) (s : PortfolioLoop) : PortfolioRiskSnapshot :=
  { equity := s.equity, dayStartEquity := terms.dayStart, correlations := terms.correlations
    annualizedVolatility := terms.volatility, consecutiveLosses := s.consecutiveLosses
    tradeTimes := s.tradeTimes
    positions := s.openTrades.map fun p => { symbol := p.symbol, notional := notional p } }

/-- The loop as the risk manager sees it for this candidate. -/
def before (s : PortfolioLoop) (trade : TradePosition) : PortfolioLoop :=
  s.closeUntil (trade.entryTime : WithTop TimePoint)

def decision (terms : PortfolioTerms) (s : PortfolioLoop) (trade : TradePosition) : PortfolioDecision :=
  approve terms.risk trade.symbol (notional trade) (snapshot terms (s.before trade)) trade.entryTime

/-- The candidate at the size that is opened. -/
def sized (terms : PortfolioTerms) (s : PortfolioLoop) (trade : TradePosition) : TradePosition :=
  scaleTrade trade (s.decision terms trade).sizeMultiplier

def step (terms : PortfolioTerms) (s : PortfolioLoop) (trade : TradePosition) : PortfolioLoop :=
  let closed := s.before trade
  if !(s.decision terms trade).approved then { closed with rejectedTrades := closed.rejectedTrades + 1 }
  else
    { closed with
      openTrades := closed.openTrades ++ [s.sized terms trade]
      tradeTimes := (closed.tradeTimes ++ [trade.entryTime]).dropWhile fun time =>
        decide (time < trade.entryTime - hour)
      acceptedTrades := closed.acceptedTrades + 1 }

end PortfolioLoop

/-- The loop over the candidates and the last `close_until`. -/
def acceptanceLoop (terms : PortfolioTerms) (rawTrades : List TradePosition) : PortfolioLoop :=
  (rawTrades.foldl (PortfolioLoop.step terms) { equity := terms.dayStart }).closeUntil ⊤

/-! ## The run -/

structure AssetResearchResult where
  symbol : String
  rawMetrics : BacktestMetrics
  candidateTrades : Nat
  volatility : ℚ

structure PortfolioResearchSummary where
  assets : List AssetResearchResult := []
  rawCombined : BacktestMetrics := {}
  portfolioFiltered : BacktestMetrics := {}
  candidateTrades : Nat := 0
  acceptedTrades : Nat := 0
  rejectedTrades : Nat := 0
  correlations : CorrelationMap := ∅

/-- Both uses of `std::sort`. -/
structure PortfolioSorts where
  byEntry : Std.Sorting entryLe
  byExit : Std.Sorting exitLe

def PortfolioSorts.stable : PortfolioSorts := ⟨.stable, .stable⟩

def rawTrades (assets : List AssetData) : List TradePosition :=
  assets.flatMap fun a => a.trades.map fun t => scaleTrade t a.cfg.weight

def terms (fn : Cmath) (config : PortfolioResearchConfig) (assets : List AssetData) : PortfolioTerms :=
  config.terms (correlations fn assets) (volatilities assets)

/-- The acceptance loop of a run on these assets. -/
def finalLoop (fn : Cmath) (sorts : PortfolioSorts) (config : PortfolioResearchConfig) (assets : List AssetData) :
    PortfolioLoop :=
  acceptanceLoop (terms fn config assets) (sorts.byEntry.sort (rawTrades assets))

/-- `run` from the trades of the assets on. -/
def summarize (fn : Cmath) (sorts : PortfolioSorts) (config : PortfolioResearchConfig) (assets : List AssetData) :
    PortfolioResearchSummary :=
  let loop := finalLoop fn sorts config assets
  { correlations := correlations fn assets
    rawCombined := MetricsCalculator.calculate fn (sorts.byExit.sort (rawTrades assets))
    candidateTrades := (rawTrades assets).length
    assets := assets.map fun a =>
      { symbol := a.cfg.symbol, rawMetrics := MetricsCalculator.calculate fn a.trades
        candidateTrades := a.trades.length, volatility := a.vol }
    acceptedTrades := loop.acceptedTrades
    rejectedTrades := loop.rejectedTrades
    portfolioFiltered := MetricsCalculator.calculate fn (sorts.byExit.sort loop.accepted) }

/-- `readCsv` is `HistoricalEventReader::read_csv`, `systemNow` what the system
clock shows in `approve_entry` at each event. -/
def loadAsset (fn : Cmath) (readCsv : String → String → Except String (List MarketEvent))
    (risk : RiskConfig) (strategy : Json) (dataset : PortfolioDataset) (systemNow : Nat → TimePoint) :
    Except String AssetData := do
  let events ← readCsv dataset.path dataset.symbol
  if events.length < 3 then .error ("portfolio dataset requires at least 3 events: " ++ dataset.symbol)
  else
    let strategy ← StrategyFactory.create strategy
    let engine ← replayOrThrow {} (.init dataset.symbol false risk strategy) (timed events systemNow)
    return { cfg := dataset, events, trades := engine.completed, vol := realizedVolatility fn events }

/-- `PortfolioResearchRunner(risk).run(config)` -/
def runPortfolio (fn : Cmath) (sorts : PortfolioSorts)
    (readCsv : String → String → Except String (List MarketEvent)) (systemNow : Nat → Nat → TimePoint)
    (risk : RiskConfig) (config : PortfolioResearchConfig) : Except String PortfolioResearchSummary := do
  let assets ← config.datasets.zipIdx.mapM fun di =>
    loadAsset fn readCsv risk config.strategy di.1 (systemNow di.2)
  return summarize fn sorts config assets

/-! ## config/portfolio-research.example.json -/

/-- Datasets and risk of the file, with its `target_volatility` left open. -/
def examplePortfolioDocument (target : ℚ) : Json :=
  .object [("starting_equity", .float 100000),
    ("datasets", .array [
      .object [("symbol", .string "BTCUSDT"), ("path", .string "data/btcusdt.csv"), ("weight", .float 1)],
      .object [("symbol", .string "ETHUSDT"), ("path", .string "data/ethusdt.csv"), ("weight", .float 1)],
      .object [("symbol", .string "SOLUSDT"), ("path", .string "data/solusdt.csv"), ("weight", .float (75 / 100))]]),
    ("portfolio_risk", .object [("max_gross_exposure", .float 1), ("max_asset_exposure", .float (35 / 100)),
      ("max_correlated_exposure", .float (60 / 100)), ("max_daily_drawdown", .float (5 / 100)),
      ("max_consecutive_losses", .integer 5), ("max_trades_per_hour", .integer 20),
      ("target_volatility", .float target), ("correlation_threshold", .float (75 / 100))])]

def examplePortfolio (target : ℚ) : PortfolioResearchConfig :=
  { datasets := [⟨"data/btcusdt.csv", "BTCUSDT", 1⟩, ⟨"data/ethusdt.csv", "ETHUSDT", 1⟩,
      ⟨"data/solusdt.csv", "SOLUSDT", 75 / 100⟩]
    portfolioRisk := { targetVolatility := target } }

theorem examplePortfolio_loaded (target : ℚ) :
    loadPortfolioResearchConfig (examplePortfolioDocument target) = .ok (examplePortfolio target) := by
  with_unfolding_all rfl

end Sentum.Research
