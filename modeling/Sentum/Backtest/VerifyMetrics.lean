import Mathlib.Algebra.Order.BigOperators.Group.List
import Mathlib.Algebra.Order.Group.Abs
import Mathlib.Tactic.Ring
import Sentum.Backtest.Metrics
import Sentum.Trader.TradeSequence

/-!
# The reference calculation of the metrics

`tools/verify_metrics.py` recalculates a report from the trades in the
database.  On completed trades it comes to the metrics of `MetricsCalculator`,
with one exception: for no trades at all the reference has an infinite profit
factor and `MetricsCalculator` a zero one.
-/

namespace Sentum.Backtest

open Sentum.Market Sentum.Trader Sentum.Risk

/-! ## The rows of the database -/

/-- A row of `trades`, the columns that are read back. -/
structure TradeRow where
  entryPrice : ℚ
  quantity : ℚ
  fees : ℚ
  netProfit : ℚ
deriving DecidableEq

/-- `TradeHistoryRepository::save` -/
def TradeRow.save (p : TradePosition) : TradeRow :=
  { entryPrice := p.entryPrice, quantity := p.quantity, fees := p.feeEntry + p.feeExit, netProfit := p.netProfit }

namespace VerifyMetrics

/-- A row as the script selects it. -/
structure Row where
  profit : ℚ
  fees : ℚ
  notional : ℚ
deriving DecidableEq

/-- `SELECT net_profit, fees, ABS(entry_price * quantity)` -/
def select (r : TradeRow) : Row :=
  { profit := r.netProfit, fees := r.fees, notional := |r.entryPrice * r.quantity| }

/-! ## The script -/

def sampleDeviation (sqrt : ℚ → ℚ) (values : List ℚ) (center : ℚ) : ℚ :=
  if 1 < values.length then sqrt ((values.map fun value => (value - center) ^ 2).sum / (values.length - 1)) else 0

/-- What the loop over the profits keeps. -/
structure Curve where
  equity : ℚ := 0
  peak : ℚ := 0
  maxDrawdown : ℚ := 0
deriving DecidableEq

def Curve.add (c : Curve) (profit : ℚ) : Curve :=
  let equity := c.equity + profit
  let peak := max c.peak equity
  { equity, peak, maxDrawdown := max c.maxDrawdown (peak - equity) }

/-- The dictionary `calculate` returns. -/
structure Reference where
  trades : ℚ
  netProfit : ℚ
  maxDrawdown : ℚ
  /-- `⊤` is `math.inf` -/
  profitFactor : WithTop ℚ
  winRate : ℚ
  expectancy : ℚ
  sharpe : ℚ
  sortino : ℚ
  feeShare : ℚ
deriving DecidableEq

def calculate (sqrt : ℚ → ℚ) (rows : List Row) : Reference :=
  let profits := rows.map Row.profit
  let fees := (rows.map Row.fees).sum
  let net := profits.sum
  let wins := profits.filter fun profit => decide (0 < profit)
  let losses := profits.filter fun profit => decide (profit ≤ 0)
  let grossWins := wins.sum
  let grossLosses := |losses.sum|
  let curve := profits.foldl Curve.add {}
  let returns := rows.map fun r => r.profit / max 1 r.notional
  let mean := if returns = [] then 0 else returns.sum / returns.length
  let deviation := sampleDeviation sqrt returns mean
  let negative := returns.filter fun value => decide (value < 0)
  let downside := sampleDeviation sqrt negative 0
  let scale := if returns = [] then 0 else sqrt returns.length
  { trades := rows.length
    netProfit := net
    maxDrawdown := curve.maxDrawdown
    profitFactor := if 0 < grossLosses then ((grossWins / grossLosses : ℚ) : WithTop ℚ) else ⊤
    winRate := if rows = [] then 0 else wins.length / rows.length * 100
    expectancy := if rows = [] then 0 else net / rows.length
    sharpe := if 0 < deviation then mean / deviation * scale else 0
    sortino := if 0 < downside then mean / downside * scale else 0
    feeShare := if 0 < |net| + fees then fees / (|net| + fees) else 0 }

/-- The report has the reference's value under every key. -/
structure Agrees (m : BacktestMetrics) (r : Reference) : Prop where
  trades : (m.trades : ℚ) = r.trades
  netProfit : m.netProfit = r.netProfit
  maxDrawdown : m.maxDrawdown = r.maxDrawdown
  profitFactor : m.profitFactor = r.profitFactor
  winRate : m.winRate = r.winRate
  expectancy : m.expectancy = r.expectancy
  sharpe : m.sharpe = r.sharpe
  sortino : m.sortino = r.sortino
  feeShare : m.feeShare = r.feeShare

/-- The reference for the rows persisted for these trades. -/
def reference (fn : Cmath) (trades : List TradePosition) : Reference :=
  calculate fn.sqrt (trades.map fun t => select (.save t))

/-! ## The two loops -/

def profits (trades : List TradePosition) : List ℚ := trades.map TradePosition.netProfit

def wins (trades : List TradePosition) : List ℚ := (profits trades).filter fun profit => decide (0 < profit)

def losses (trades : List TradePosition) : List ℚ := (profits trades).filter fun profit => decide (profit ≤ 0)

/-- What the C++ loop has summed up, in the script's terms. -/
theorem foldl_add (trades : List TradePosition) (t : Tally) :
    trades.foldl Tally.add t =
      { equity := ((profits trades).foldl Curve.add ⟨t.equity, t.peak, t.maxDrawdown⟩).equity
        peak := ((profits trades).foldl Curve.add ⟨t.equity, t.peak, t.maxDrawdown⟩).peak
        maxDrawdown := ((profits trades).foldl Curve.add ⟨t.equity, t.peak, t.maxDrawdown⟩).maxDrawdown
        grossWin := t.grossWin + (wins trades).sum
        grossLoss := t.grossLoss - (losses trades).sum
        fees := t.fees + (trades.map fun p => p.feeEntry + p.feeExit).sum
        wins := t.wins + (wins trades).length
        returns := t.returns ++ trades.map fun p => p.netProfit / max 1 (p.entryPrice * p.quantity) } := by
  induction trades generalizing t with
  | nil => simp [profits, wins, losses]
  | cons p trades ih =>
    rw [List.foldl_cons, ih]
    by_cases hwin : 0 < p.netProfit
    · have hloss : ¬ p.netProfit ≤ 0 := not_le.mpr hwin
      simp only [Tally.add, Curve.add, profits, wins, losses, List.map_cons, List.foldl_cons, hwin, hloss,
        if_true, decide_true, decide_false, List.filter_cons, List.sum_cons, List.length_cons,
        Bool.false_eq_true, if_false, List.append_assoc, List.singleton_append, Tally.mk.injEq, and_true,
        true_and]
      refine ⟨?_, ?_, ?_⟩
      · ring
      · ring
      · omega
    · have hloss : p.netProfit ≤ 0 := not_lt.mp hwin
      simp only [Tally.add, Curve.add, profits, wins, losses, List.map_cons, List.foldl_cons, hwin, hloss,
        if_true, decide_true, decide_false, List.filter_cons, List.sum_cons, Bool.false_eq_true, if_false,
        List.append_assoc, List.singleton_append, Tally.mk.injEq, and_true, true_and]
      constructor <;> ring

theorem losses_sum_nonpos (trades : List TradePosition) : (losses trades).sum ≤ 0 := by
  have hle : ∀ profit ∈ losses trades, profit ≤ 0 := fun profit hp => of_decide_eq_true (List.mem_filter.mp hp).2
  exact (List.sum_le_card_nsmul _ 0 hle).trans_eq (nsmul_zero _)

theorem deviation_all (fn : Cmath) (xs : List ℚ) (center : ℚ) :
    MetricsCalculator.deviation fn xs center false = sampleDeviation fn.sqrt xs center := by
  unfold MetricsCalculator.deviation sampleDeviation
  simp only [Bool.false_and, Bool.not_false, List.filter_true, pow_two]

theorem deviation_downside (fn : Cmath) (xs : List ℚ) :
    MetricsCalculator.deviation fn xs 0 true =
      sampleDeviation fn.sqrt (xs.filter fun value => decide (value < 0)) 0 := by
  have hfilter : (fun x : ℚ => !(true && decide (0 ≤ x))) = fun x => decide (x < 0) := by
    funext x
    rw [Bool.true_and, ← decide_not]
    exact decide_eq_decide.mpr not_le
  unfold MetricsCalculator.deviation sampleDeviation
  simp only [hfilter, pow_two]

/-- The returns are the same: the notional of a completed trade is positive. -/
theorem returns_eq {trades : List TradePosition} (h : ∀ t ∈ trades, t.Entered) :
    (trades.map fun t => select (.save t)).map (fun r => r.profit / max 1 r.notional) =
      trades.map fun p => p.netProfit / max 1 (p.entryPrice * p.quantity) := by
  rw [List.map_map]
  refine List.map_congr_left fun t ht => ?_
  have hnotional : 0 < t.entryPrice * t.quantity := mul_pos (h t ht).entryPrice (h t ht).quantity
  show t.netProfit / max 1 |t.entryPrice * t.quantity| = _
  rw [abs_of_pos hnotional]

/-! ## Agreement -/

/-- The nine values for a list of trades that is not empty. -/
theorem agrees_of_ne_nil (fn : Cmath) {trades : List TradePosition} (h : ∀ t ∈ trades, t.Entered)
    (hne : trades ≠ []) (slippageDeltaProfit : ℚ) :
    Agrees (MetricsCalculator.calculate fn trades slippageDeltaProfit) (reference fn trades) := by
  have htally : Tally.of trades = _ := foldl_add trades {}
  have hequity : (Tally.of trades).equity = (profits trades).sum := Tally.of_equity trades
  have hdrawdown : (Tally.of trades).maxDrawdown = ((profits trades).foldl Curve.add {}).maxDrawdown :=
    congrArg Tally.maxDrawdown htally
  have hwin : (Tally.of trades).grossWin = (wins trades).sum :=
    (congrArg Tally.grossWin htally).trans (zero_add _)
  have hloss : (Tally.of trades).grossLoss = |(losses trades).sum| := by
    rw [abs_of_nonpos (losses_sum_nonpos trades), ← zero_sub]
    exact congrArg Tally.grossLoss htally
  have hfees : (Tally.of trades).fees = (trades.map fun p => p.feeEntry + p.feeExit).sum :=
    (congrArg Tally.fees htally).trans (zero_add _)
  have hwins : (Tally.of trades).wins = (wins trades).length :=
    (congrArg Tally.wins htally).trans (Nat.zero_add _)
  have hreturns : (Tally.of trades).returns =
      (trades.map fun t => select (.save t)).map fun r => r.profit / max 1 r.notional := by
    rw [returns_eq h]
    exact congrArg Tally.returns htally
  have hrows : (trades.map fun t => select (.save t)) ≠ [] := fun hnil => hne (List.map_eq_nil_iff.mp hnil)
  have hreturnsNe : (Tally.of trades).returns ≠ [] := fun hnil => by
    rw [hreturns] at hnil
    exact hrows (List.map_eq_nil_iff.mp hnil)
  have hprofits : (trades.map fun t => select (.save t)).map Row.profit = profits trades := List.map_map
  have hrowFees : (trades.map fun t => select (.save t)).map Row.fees =
      trades.map fun p => p.feeEntry + p.feeExit := List.map_map
  unfold MetricsCalculator.calculate reference calculate
  rw [if_neg hne]
  dsimp only
  rw [← hreturns, hprofits, hrowFees, deviation_all, deviation_downside, ← hfees]
  simp only [if_neg hrows, if_neg hreturnsNe, MetricsCalculator.meanOf]
  refine ⟨?_, hequity, hdrawdown, ?_, ?_, ?_, rfl, rfl, ?_⟩
  · rw [List.length_map]
  · rw [hwin, hloss]
    rfl
  · rw [hwins, List.length_map, mul_div_assoc, mul_comm]
    rfl
  · rw [hequity, List.length_map]
  · rw [hequity]

/-- Without trades the profit factors differ. -/
theorem not_agrees_nil (fn : Cmath) (slippageDeltaProfit : ℚ) :
    ¬ Agrees (MetricsCalculator.calculate fn [] slippageDeltaProfit) (reference fn []) :=
  fun h => WithTop.coe_ne_top h.profitFactor

/-- **Main result.**  On completed trades the two calculations agree if and
only if there is a trade. -/
theorem calculate_agrees_iff (fn : Cmath) {trades : List TradePosition} (h : ∀ t ∈ trades, t.Entered)
    (slippageDeltaProfit : ℚ) :
    Agrees (MetricsCalculator.calculate fn trades slippageDeltaProfit) (reference fn trades) ↔ trades ≠ [] := by
  constructor
  · rintro hagrees rfl
    exact not_agrees_nil fn slippageDeltaProfit hagrees
  · exact fun hne => agrees_of_ne_nil fn h hne slippageDeltaProfit

/-- The report of a replay without trades, by the values of both calculations. -/
theorem no_trades_disagree :
    (MetricsCalculator.calculate ⟨id, id⟩ []).profitFactor = 0 ∧ (reference ⟨id, id⟩ []).profitFactor = ⊤ ∧
      ¬ Agrees (MetricsCalculator.calculate ⟨id, id⟩ []) (reference ⟨id, id⟩ []) :=
  ⟨rfl, rfl, not_agrees_nil ⟨id, id⟩ 0⟩

open EngineRun in
/-- The trades of a replay that has made a round trip. -/
theorem roundTrip_agrees :
    let fed := roundTripEvents.map fun event => EngineAction.event event.timestamp event.timestamp true event
    let e := (Run.exec step (start "BTCUSDT" false shippedRisk quickMomentum) fed).engine
    Agrees (MetricsCalculator.calculate ⟨id, id⟩ e.completed) (reference ⟨id, id⟩ e.completed) := by
  intro fed e
  have hone : e.completed.length = 1 := by decide +kernel
  refine (calculate_agrees_iff ⟨id, id⟩ (completed_entered _ _ _ _ fed) 0).mpr fun hnil => ?_
  rw [hnil] at hone
  cases hone

end VerifyMetrics

end Sentum.Backtest
