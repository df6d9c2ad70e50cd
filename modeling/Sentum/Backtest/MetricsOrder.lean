import Sentum.Backtest.VerifyMetrics

/-!
# Metrics and the order of the trades

All that `MetricsCalculator::calculate` reports but the drawdown is the same in
any order of the trades (`calculate_perm`).  The drawdown stays what it is when
two neighbours are swapped of which neither loses while the other wins
(`maxDrawdown_swap`).
-/

namespace Sentum.Backtest

open Sentum.Trader VerifyMetrics

/-! ## Sums -/

namespace MetricsCalculator

theorem eq_nil_iff_of_perm {α : Type} {xs ys : List α} (h : xs.Perm ys) : xs = [] ↔ ys = [] := by
  rw [← List.length_eq_zero_iff, ← List.length_eq_zero_iff, h.length_eq]

theorem meanOf_perm {xs ys : List ℚ} (h : xs.Perm ys) : meanOf xs = meanOf ys := by
  unfold meanOf
  rw [h.sum_eq, h.length_eq]
  exact if_congr (eq_nil_iff_of_perm h) rfl rfl

theorem deviation_perm (fn : Cmath) {xs ys : List ℚ} (h : xs.Perm ys) (center : ℚ) (downsideOnly : Bool) :
    deviation fn xs center downsideOnly = deviation fn ys center downsideOnly := by
  have hkept := h.filter fun x => !(downsideOnly && decide (0 ≤ x))
  unfold deviation
  dsimp only
  rw [hkept.length_eq, (hkept.map fun x => (x - center) * (x - center)).sum_eq]

end MetricsCalculator

/-- Everything but peak and drawdown; the returns may come in another order. -/
structure Tally.SameSums (t u : Tally) : Prop where
  equity : t.equity = u.equity
  grossWin : t.grossWin = u.grossWin
  grossLoss : t.grossLoss = u.grossLoss
  fees : t.fees = u.fees
  wins : t.wins = u.wins
  returns : t.returns.Perm u.returns

theorem Tally.sameSums_of_perm {xs ys : List TradePosition} (h : xs.Perm ys) :
    Tally.SameSums (Tally.of xs) (Tally.of ys) := by
  have hx : Tally.of xs = _ := foldl_add xs {}
  have hy : Tally.of ys = _ := foldl_add ys {}
  have hprofits : (profits xs).Perm (profits ys) := h.map _
  have hwins : (VerifyMetrics.wins xs).Perm (VerifyMetrics.wins ys) := hprofits.filter _
  have hlosses : (losses xs).Perm (losses ys) := hprofits.filter _
  refine ⟨?_, ?_, ?_, ?_, ?_, ?_⟩
  · rw [Tally.of_equity, Tally.of_equity, (h.map TradePosition.netProfit).sum_eq]
  · rw [hx, hy]
    exact congrArg (0 + ·) hwins.sum_eq
  · rw [hx, hy]
    exact congrArg (0 - ·) hlosses.sum_eq
  · rw [hx, hy]
    exact congrArg (0 + ·) (h.map _).sum_eq
  · rw [hx, hy]
    exact congrArg (0 + ·) hwins.length_eq
  · rw [hx, hy]
    exact h.map _

/-- **Only the drawdown depends on the order.** -/
theorem MetricsCalculator.calculate_perm (fn : Cmath) {xs ys : List TradePosition} (h : xs.Perm ys)
    (hdrawdown : (Tally.of xs).maxDrawdown = (Tally.of ys).maxDrawdown) : calculate fn xs = calculate fn ys := by
  have hsums := Tally.sameSums_of_perm h
  unfold calculate
  refine if_congr (eq_nil_iff_of_perm h) rfl ?_
  dsimp only
  rw [hsums.equity, hsums.grossWin, hsums.grossLoss, hsums.fees, hsums.wins, h.length_eq, hdrawdown,
    meanOf_perm hsums.returns, deviation_perm fn hsums.returns, deviation_perm fn hsums.returns,
    hsums.returns.length_eq]

/-! ## The equity curve -/

namespace VerifyMetrics.Curve

/-- **Invariant** of the curve. -/
structure Bounded (c : Curve) : Prop where
  equity_le : c.equity ≤ c.peak
  fall_le : c.peak - c.equity ≤ c.maxDrawdown

theorem Bounded.add {c : Curve} (_ : Bounded c) (profit : ℚ) : Bounded (c.add profit) :=
  ⟨le_max_right _ _, le_max_right _ _⟩

theorem bounded_foldl {c : Curve} (h : Bounded c) (ps : List ℚ) : Bounded (ps.foldl Curve.add c) := by
  induction ps generalizing c with
  | nil => exact h
  | cons p ps ih => exact ih (h.add p)

/-- A profit that is not negative. -/
theorem add_gain {c : Curve} (h : Bounded c) {x : ℚ} (hx : 0 ≤ x) :
    c.add x = ⟨c.equity + x, max c.peak (c.equity + x), c.maxDrawdown⟩ := by
  have hfall := h.fall_le
  have hle : max c.peak (c.equity + x) - (c.equity + x) ≤ c.maxDrawdown := by
    rcases le_total c.peak (c.equity + x) with hp | hp
    · rw [max_eq_right hp, sub_self]
      linarith [h.equity_le]
    · rw [max_eq_left hp]
      linarith
  unfold add
  dsimp only
  rw [max_eq_left hle]

/-- A profit that is not positive. -/
theorem add_loss {c : Curve} (h : Bounded c) {x : ℚ} (hx : x ≤ 0) :
    c.add x = ⟨c.equity + x, c.peak, max c.maxDrawdown (c.peak - (c.equity + x))⟩ := by
  have hpeak : c.equity + x ≤ c.peak := by linarith [h.equity_le]
  unfold add
  dsimp only
  rw [max_eq_left hpeak]

theorem add_add_gain {c : Curve} (h : Bounded c) {x y : ℚ} (hx : 0 ≤ x) (hy : 0 ≤ y) :
    (c.add x).add y = ⟨c.equity + x + y, max c.peak (c.equity + x + y), c.maxDrawdown⟩ := by
  have hle : c.equity + x ≤ c.equity + x + y := by linarith
  rw [add_gain (h.add x) hy, add_gain h hx]
  dsimp only
  rw [max_assoc, max_eq_right hle]

theorem add_add_loss {c : Curve} (h : Bounded c) {x y : ℚ} (hx : x ≤ 0) (hy : y ≤ 0) :
    (c.add x).add y =
      ⟨c.equity + x + y, c.peak, max c.maxDrawdown (c.peak - (c.equity + x + y))⟩ := by
  have hle : c.peak - (c.equity + x) ≤ c.peak - (c.equity + x + y) := by linarith
  rw [add_loss (h.add x) hy, add_loss h hx]
  dsimp only
  rw [max_assoc, max_eq_right hle]

/-- Two profits of which neither is a loss beside a win. -/
theorem add_swap {c : Curve} (h : Bounded c) {x y : ℚ} (hxy : 0 ≤ x * y) :
    (c.add x).add y = (c.add y).add x := by
  rcases mul_nonneg_iff.mp hxy with ⟨hx, hy⟩ | ⟨hx, hy⟩
  · rw [add_add_gain h hx hy, add_add_gain h hy hx, add_right_comm]
  · rw [add_add_loss h hx hy, add_add_loss h hy hx, add_right_comm]

end VerifyMetrics.Curve

/-! ## Neighbours -/

theorem maxDrawdown_eq (trades : List TradePosition) :
    (Tally.of trades).maxDrawdown = ((profits trades).foldl Curve.add {}).maxDrawdown :=
  congrArg Tally.maxDrawdown (foldl_add trades {})

/-- **A swap of neighbours** that do not win and lose. -/
theorem maxDrawdown_swap (pre : List TradePosition) {a b : TradePosition} (post : List TradePosition)
    (h : 0 ≤ a.netProfit * b.netProfit) :
    (Tally.of (pre ++ a :: b :: post)).maxDrawdown = (Tally.of (pre ++ b :: a :: post)).maxDrawdown := by
  have hstart : Curve.Bounded {} := ⟨le_refl 0, (sub_self (0 : ℚ)).le⟩
  have hswap := Curve.add_swap (Curve.bounded_foldl hstart (profits pre)) h
  rw [maxDrawdown_eq, maxDrawdown_eq, profits, profits, List.map_append, List.map_append, List.foldl_append,
    List.foldl_append, List.map_cons, List.map_cons, List.map_cons, List.map_cons, List.foldl_cons, List.foldl_cons,
    List.foldl_cons, List.foldl_cons]
  exact congrArg (fun c => ((post.map TradePosition.netProfit).foldl Curve.add c).maxDrawdown) hswap

end Sentum.Backtest
