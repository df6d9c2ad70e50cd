import Mathlib.Data.List.Sort
import Sentum.Backtest.Metrics
import Sentum.Market.MarketEvent
import Sentum.Std.Sort

/-!
# Analysis of the holdout

What `ResearchRunner::run` does with the trades of the final holdout:
resampling with a seeded generator, and metrics by market regime.  A `Draws`
gives the values of `uniform_int_distribution(0, size - 1)` on
`mt19937_64(seed)` in the order in which they are drawn.
-/

namespace Sentum.Research

open Sentum Market Trader Backtest

/-- `draws seed size k` is the `k`-th value. -/
abbrev Draws := Nat → Nat → Nat → Nat

structure ConfidenceInterval where
  lower : ℚ := 0
  median : ℚ := 0
  upper : ℚ := 0
deriving DecidableEq

structure MonteCarloSummary where
  samples : Nat := 0
  netProfit : ConfidenceInterval := {}
  maxDrawdown : ConfidenceInterval := {}
  probabilityOfLoss : ℚ := 0
deriving DecidableEq

structure RegimeMetrics where
  regime : String
  metrics : BacktestMetrics
deriving DecidableEq

/-- `std::clamp(p, 0, 1)` -/
def clampUnit (p : ℚ) : ℚ := if p < 0 then 0 else if 1 < p then 1 else p

def quantile (values : List ℚ) (p : ℚ) : ℚ :=
  if values = [] then 0
  else
    let v := values.insertionSort (· ≤ ·)
    let pos := clampUnit p * (v.length - 1)
    let lo := ⌊pos⌋.toNat
    let hi := ⌈pos⌉.toNat
    if lo = hi then v.getD lo 0
    else
      let w := pos - lo
      v.getD lo 0 * (1 - w) + v.getD hi 0 * w

def makeInterval (values : List ℚ) (confidence : ℚ) : ConfidenceInterval :=
  let a := (1 - confidence) * (1 / 2)
  { lower := quantile values a, median := quantile values (1 / 2), upper := quantile values (1 - a) }

/-- The profits of sample `s`, drawn one after the other. -/
def resample (draws : Draws) (seed : Nat) (pnl : List ℚ) (s : Nat) : List ℚ :=
  (List.range pnl.length).map fun i => pnl.getD (draws seed pnl.length (s * pnl.length + i)) 0

/-- Equity, peak and deepest drawdown after one more profit. -/
def addProfit (state : ℚ × ℚ × ℚ) (profit : ℚ) : ℚ × ℚ × ℚ :=
  let equity := state.1 + profit
  let peak := max state.2.1 equity
  (equity, peak, max state.2.2 (peak - equity))

def monteCarlo (draws : Draws) (trades : List TradePosition) (samples : Nat) (confidence : ℚ) (seed : Nat) :
    MonteCarloSummary :=
  if trades = [] ∨ samples = 0 then { samples }
  else
    let pnl := trades.map TradePosition.netProfit
    let paths := (List.range samples).map fun s => (resample draws seed pnl s).foldl addProfit (0, 0, 0)
    let losses := (paths.filter fun path => decide (path.1 < 0)).length
    { samples
      netProfit := makeInterval (paths.map fun path => path.1) confidence
      maxDrawdown := makeInterval (paths.map fun path => path.2.2) confidence
      probabilityOfLoss := losses / samples }

def bootstrapProfit (draws : Draws) (trades : List TradePosition) (samples : Nat) (confidence : ℚ)
    (seed : Nat) : ConfidenceInterval :=
  if trades = [] ∨ samples = 0 then {}
  else
    let pnl := trades.map TradePosition.netProfit
    makeInterval ((List.range samples).map fun s => (resample draws (seed ^^^ 0xB00757A9) pnl s).sum) confidence

def regime (fn : Cmath) (events : List MarketEvent) (entry : TimePoint) : String :=
  -- `std::lower_bound` on events sorted by time
  let idx := (events.takeWhile fun e => decide (e.timestamp < entry)).length
  if idx = 0 then "unknown"
  else
    let first := if 20 < idx then idx - 20 else 0
    if idx - first < 3 then "unknown"
    else
      let window := (events.take idx).drop first
      let firstPrice := ((window.head?).map MarketEvent.price).getD 0
      let lastPrice := ((window.getLast?).map MarketEvent.price).getD 0
      if firstPrice ≤ 0 ∨ lastPrice ≤ 0 then "unknown"
      else
        let trend := lastPrice / firstPrice - 1
        let rs := logReturns fn window
        let vol := if 1 < rs.length then fn.sqrt (variance rs) else 0
        if 3 / 1000 < vol then "high_volatility"
        else if 5 / 1000 < trend then "trending_up"
        else if trend < -(5 / 1000) then "trending_down"
        else "ranging"

def regimeMetrics (fn : Cmath) (events : List MarketEvent) (trades : List TradePosition) : List RegimeMetrics :=
  ["trending_up", "trending_down", "ranging", "high_volatility", "unknown"].filterMap fun name =>
    let b := trades.filter fun t => decide (regime fn events t.entryTime = name)
    if b = [] then none else some { regime := name, metrics := MetricsCalculator.calculate fn b }

end Sentum.Research
