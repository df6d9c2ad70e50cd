import Sentum.Backtest.VerifyMetrics
import Sentum.Lib.RunningPeak
import Sentum.Research.HoldoutAnalysis

/-!
# The drawdown of a list of trades

`max_drawdown` is computed in one pass with a running peak.  It is the greatest
decline of the equity from any point of the curve to any later one
(`calculate_drawdown`), and so is the drawdown of every path that the
Monte Carlo analysis draws (`drawdown_path`).
-/

namespace Sentum.Backtest

open Sentum.Trader VerifyMetrics RunningPeak

/-- The equity after the first `k` trades. -/
def equityAfter (trades : List TradePosition) (k : Nat) : ℚ := ((trades.take k).map TradePosition.netProfit).sum

/-- The declines of the equity from one point of the curve to another that is not before it. -/
def declines (trades : List TradePosition) : Set ℚ :=
  {d | ∃ i j, i ≤ j ∧ j ≤ trades.length ∧ d = equityAfter trades i - equityAfter trades j}

theorem equityAfter_eq_level (trades : List TradePosition) (k : Nat) :
    equityAfter trades k = level (profits trades) k := by
  rw [equityAfter, level, profits, List.map_take]

/-- The curve walks by the profits. -/
theorem declines_eq_falls (trades : List TradePosition) : declines trades = falls (profits trades) := by
  have hlen : (profits trades).length = trades.length := List.length_map _
  unfold declines falls
  simp only [equityAfter_eq_level, hlen]

/-- The loop over the profits is the pass. -/
theorem curve_eq_pass (ps : List ℚ) :
    ps.foldl Curve.add {} = ⟨(pass ps).level, (pass ps).peak, (pass ps).fall⟩ := by
  induction ps using List.reverseRecOn with
  | nil => rfl
  | append_singleton ps p ih =>
    rw [List.foldl_concat, ih, pass_snoc]
    rfl

/-- Wins and losses make up the equity. -/
theorem equity_eq_wins_sub_losses (trades : List TradePosition) :
    (Tally.of trades).equity = (Tally.of trades).grossWin - (Tally.of trades).grossLoss := by
  induction trades using List.reverseRecOn with
  | nil => exact (sub_self (0 : ℚ)).symm
  | append_singleton trades p ih =>
    have hadd : Tally.of (trades ++ [p]) = (Tally.of trades).add p := List.foldl_concat _ _ _ _
    rw [hadd, Tally.add_equity, ih]
    unfold Tally.add
    dsimp only
    split <;> ring

/-- **Main result.**  The drawdown is the greatest decline, and the net profit
is what the gross wins exceed the gross losses by. -/
theorem calculate_drawdown (fn : Cmath) (trades : List TradePosition) (slippageDeltaProfit : ℚ) :
    let m := MetricsCalculator.calculate fn trades slippageDeltaProfit
    let t := Tally.of trades
    IsGreatest (declines trades) m.maxDrawdown ∧
      m.netProfit = t.grossWin - t.grossLoss ∧
      m.profitFactor =
        if trades = [] then 0 else if 0 < t.grossLoss then ((t.grossWin / t.grossLoss : ℚ) : WithTop ℚ) else ⊤ := by
  intro m t
  have hgreatest : IsGreatest (declines trades) t.maxDrawdown := by
    have hfold : t.maxDrawdown = ((profits trades).foldl Curve.add {}).maxDrawdown :=
      congrArg Tally.maxDrawdown (foldl_add trades {})
    rw [declines_eq_falls, hfold, curve_eq_pass]
    exact fall_isGreatest (profits trades)
  by_cases hnil : trades = []
  · have hm : m = {} := if_pos hnil
    have ht : t = {} := by rw [show t = Tally.of trades from rfl, hnil]; rfl
    rw [ht] at hgreatest
    rw [hm, ht, if_pos hnil]
    exact ⟨hgreatest, (sub_self (0 : ℚ)).symm, rfl⟩
  · have hm : m = _ := if_neg hnil
    rw [hm, if_neg hnil]
    exact ⟨hgreatest, equity_eq_wins_sub_losses trades, rfl⟩

end Sentum.Backtest

namespace Sentum.Research

open RunningPeak

theorem foldl_addProfit (ps : List ℚ) :
    ps.foldl addProfit (0, 0, 0) = ((pass ps).level, (pass ps).peak, (pass ps).fall) := by
  induction ps using List.reverseRecOn with
  | nil => rfl
  | append_singleton ps p ih =>
    rw [List.foldl_concat, ih, pass_snoc]
    rfl

/-- The drawdown of a path of profits is its deepest fall. -/
theorem drawdown_path (ps : List ℚ) : IsGreatest (falls ps) (ps.foldl addProfit (0, 0, 0)).2.2 := by
  rw [foldl_addProfit]
  exact fall_isGreatest ps

end Sentum.Research
