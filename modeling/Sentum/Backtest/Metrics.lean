import Sentum.Trader.TradeEngine

/-!
# Performance metrics

`MetricsCalculator::calculate` walks the trades once and derives the metrics
from what it has summed up.  `std::sqrt` and `std::log` do not stay among the
rationals; they are arguments here, and nothing is assumed of them.
-/

namespace Sentum.Backtest

open Sentum.Market Sentum.Trader

/-- The functions of `<cmath>` with irrational values. -/
structure Cmath where
  sqrt : ℚ → ℚ
  log : ℚ → ℚ

/-- The log returns between consecutive positive prices. -/
def logReturns (fn : Cmath) : List MarketEvent → List ℚ
  | a :: b :: rest =>
    if 0 < a.price ∧ 0 < b.price then fn.log (b.price / a.price) :: logReturns fn (b :: rest)
    else logReturns fn (b :: rest)
  | _ => []

/-- The sample variance, around the mean. -/
def variance (xs : List ℚ) : ℚ :=
  let mean := if xs = [] then 0 else xs.sum / xs.length
  (xs.map fun x => (x - mean) * (x - mean)).sum / (xs.length - 1)

structure BacktestMetrics where
  netProfit : ℚ := 0
  maxDrawdown : ℚ := 0
  /-- `⊤` is `infinity()` -/
  profitFactor : WithTop ℚ := 0
  winRate : ℚ := 0
  expectancy : ℚ := 0
  sharpe : ℚ := 0
  sortino : ℚ := 0
  feeShare : ℚ := 0
  slippageSensitivity : ℚ := 0
  trades : Nat := 0
deriving DecidableEq

/-- What the loop over the trades keeps. -/
structure Tally where
  equity : ℚ := 0
  peak : ℚ := 0
  maxDrawdown : ℚ := 0
  grossWin : ℚ := 0
  grossLoss : ℚ := 0
  fees : ℚ := 0
  wins : Nat := 0
  returns : List ℚ := []

namespace Tally

def add (t : Tally) (p : TradePosition) : Tally :=
  let equity := t.equity + p.netProfit
  let peak := max t.peak equity
  { equity, peak
    maxDrawdown := max t.maxDrawdown (peak - equity)
    grossWin := if 0 < p.netProfit then t.grossWin + p.netProfit else t.grossWin
    wins := if 0 < p.netProfit then t.wins + 1 else t.wins
    grossLoss := if 0 < p.netProfit then t.grossLoss else t.grossLoss + -p.netProfit
    fees := t.fees + (p.feeEntry + p.feeExit)
    returns := t.returns ++ [p.netProfit / max 1 (p.entryPrice * p.quantity)] }

def of (trades : List TradePosition) : Tally := trades.foldl add {}

@[simp] theorem add_equity (t : Tally) (p : TradePosition) : (t.add p).equity = t.equity + p.netProfit := rfl

/-- The equity is the sum of the net profits. -/
theorem of_equity (trades : List TradePosition) :
    (of trades).equity = (trades.map TradePosition.netProfit).sum := by
  have hfold : ∀ t : Tally, (trades.foldl add t).equity = t.equity + (trades.map TradePosition.netProfit).sum := by
    induction trades with
    | nil => intro t; simp
    | cons p trades ih =>
      intro t
      rw [List.foldl_cons, ih, add_equity, List.map_cons, List.sum_cons, add_assoc]
  rw [of, hfold]
  exact zero_add _

end Tally

namespace MetricsCalculator

def meanOf (xs : List ℚ) : ℚ := if xs = [] then 0 else xs.sum / xs.length

def deviation (fn : Cmath) (xs : List ℚ) (center : ℚ) (downsideOnly : Bool) : ℚ :=
  let kept := xs.filter fun x => !(downsideOnly && decide (0 ≤ x))
  if 1 < kept.length then fn.sqrt ((kept.map fun x => (x - center) * (x - center)).sum / (kept.length - 1)) else 0

def calculate (fn : Cmath) (trades : List TradePosition) (slippageDeltaProfit : ℚ := 0) : BacktestMetrics :=
  if trades = [] then {}
  else
    let t := Tally.of trades
    let mean := meanOf t.returns
    let sd := deviation fn t.returns mean false
    let downside := deviation fn t.returns 0 true
    { trades := trades.length
      netProfit := t.equity
      maxDrawdown := t.maxDrawdown
      profitFactor := if 0 < t.grossLoss then ((t.grossWin / t.grossLoss : ℚ) : WithTop ℚ) else ⊤
      winRate := 100 * t.wins / trades.length
      expectancy := t.equity / trades.length
      feeShare := if 0 < |t.equity| + t.fees then t.fees / (|t.equity| + t.fees) else 0
      sharpe := if 0 < sd then mean / sd * fn.sqrt t.returns.length else 0
      sortino := if 0 < downside then mean / downside * fn.sqrt t.returns.length else 0
      slippageSensitivity := slippageDeltaProfit }

@[simp] theorem calculate_trades (fn : Cmath) (trades : List TradePosition) :
    (calculate fn trades).trades = trades.length := by
  unfold calculate
  split
  · next h => simp [h]
  · rfl

@[simp] theorem calculate_netProfit (fn : Cmath) (trades : List TradePosition) :
    (calculate fn trades).netProfit = (trades.map TradePosition.netProfit).sum := by
  unfold calculate
  split
  · next h => simp [h]
  · exact Tally.of_equity trades

@[simp] theorem calculate_maxDrawdown (fn : Cmath) (trades : List TradePosition) :
    (calculate fn trades).maxDrawdown = (Tally.of trades).maxDrawdown := by
  unfold calculate
  split
  · next h =>
    rw [h]
    rfl
  · rfl

end MetricsCalculator

end Sentum.Backtest
