import Mathlib.Algebra.Order.BigOperators.Group.List
import Mathlib.Data.List.Forall2
import Sentum.Research.PortfolioExposure

/-!
# Portfolio approval is monotone

A proposal that asks for less, in a portfolio that leaves more room, passes
every gate that the first one passed (`approve_mono`).  All changes may be made
at once.
-/

namespace Sentum.Risk.PortfolioRiskManager

open Sentum Research

/-- The position takes up no more room. -/
def Shrunk (p q : PortfolioPosition) : Prop := p.symbol = q.symbol ∧ |p.notional| ≤ |q.notional|

/-- The second proposal asks for no more than the first and its snapshot leaves
no less room: positions are removed or shrunk, trade times and losses are
removed, the equity has grown. -/
structure Eased (snapshot eased : PortfolioRiskSnapshot) (proposed smaller : ℚ) : Prop where
  positive : 0 < smaller
  smaller_le : smaller ≤ proposed
  equity : snapshot.equity ≤ eased.equity
  dayStartEquity : eased.dayStartEquity = snapshot.dayStartEquity
  positions : List.SublistForall₂ Shrunk eased.positions snapshot.positions
  annualizedVolatility : eased.annualizedVolatility = snapshot.annualizedVolatility
  correlations : eased.correlations = snapshot.correlations
  consecutiveLosses : eased.consecutiveLosses ≤ snapshot.consecutiveLosses
  tradeTimes : eased.tradeTimes.Sublist snapshot.tradeTimes

/-! ## The sums -/

/-- A shrunk position stays among those of its symbol. -/
theorem shrunk_filter (q : String → Bool) {ps qs : List PortfolioPosition} (h : List.SublistForall₂ Shrunk ps qs) :
    List.SublistForall₂ Shrunk (ps.filter fun p => q p.symbol) (qs.filter fun p => q p.symbol) := by
  induction h with
  | nil => exact .nil
  | @cons p p' ps qs hp _ ih =>
    rw [List.filter_cons, List.filter_cons, hp.1]
    split
    · exact .cons hp ih
    · exact ih
  | @cons_right p ps qs _ ih =>
    rw [List.filter_cons]
    split
    · exact .cons_right ih
    · exact ih

theorem relativeNotional_nonneg {equity : ℚ} (he : 0 < equity) (ps : List PortfolioPosition) :
    0 ≤ relativeNotional equity ps := by
  refine List.sum_nonneg fun x hx => ?_
  obtain ⟨p, -, rfl⟩ := List.mem_map.mp hx
  exact div_nonneg (abs_nonneg _) he.le

theorem relativeNotional_mono {equity equity' : ℚ} (he : 0 < equity) (hle : equity ≤ equity')
    {ps qs : List PortfolioPosition} (h : List.SublistForall₂ Shrunk ps qs) :
    relativeNotional equity' ps ≤ relativeNotional equity qs := by
  induction h with
  | nil => exact relativeNotional_nonneg he _
  | @cons p q ps qs hpq _ ih =>
    rw [relativeNotional_cons, relativeNotional_cons]
    have hterm : |p.notional| / equity' ≤ |q.notional| / equity := div_le_div₀ (abs_nonneg _) hpq.2 he hle
    exact add_le_add hterm ih
  | @cons_right q ps qs _ ih =>
    rw [relativeNotional_cons]
    have hterm : 0 ≤ |q.notional| / equity := div_nonneg (abs_nonneg _) he.le
    exact le_add_of_nonneg_of_le hterm ih

/-! ## The gates -/

section Gates

variable {config : PortfolioRiskConfig} {snapshot eased : PortfolioRiskSnapshot} {proposed smaller : ℚ}

theorem Eased.not_drawdownReached (h : Eased snapshot eased proposed smaller)
    (hd : ¬ DrawdownReached config snapshot) : ¬ DrawdownReached config eased := by
  rintro ⟨hpos, hreached⟩
  rw [h.dayStartEquity] at hpos hreached
  refine hd ⟨hpos, hreached.trans (max_le_max (le_refl 0) ?_)⟩
  exact div_le_div_of_nonneg_right (sub_le_sub_left h.equity _) hpos.le

theorem Eased.tradesLastHour_le (h : Eased snapshot eased proposed smaller) (now : TimePoint) :
    tradesLastHour eased now ≤ tradesLastHour snapshot now :=
  (h.tradeTimes.filter _).length_le

/-- Each of the three sums, with the proposal, stays below. -/
theorem Eased.limitExceeded_eq_none (h : Eased snapshot eased proposed smaller) (he : 0 < snapshot.equity)
    {symbol : String}
    (hl : limitExceeded config (exposure config snapshot symbol) (proposed / snapshot.equity) = none) :
    limitExceeded config (exposure config eased symbol) (smaller / eased.equity) = none := by
  rw [PortfolioRiskManager.limitExceeded_eq_none, exposure_eq] at hl ⊢
  rw [h.correlations]
  have hfraction : smaller / eased.equity ≤ proposed / snapshot.equity :=
    div_le_div₀ (h.positive.le.trans h.smaller_le) h.smaller_le he h.equity
  have hgross := relativeNotional_mono he h.equity h.positions
  have hasset := relativeNotional_mono he h.equity (shrunk_filter (fun s => decide (s = symbol)) h.positions)
  have hcorrelated := relativeNotional_mono he h.equity
    (shrunk_filter (correlatedWith config snapshot.correlations symbol) h.positions)
  exact ⟨(add_le_add hgross hfraction).trans hl.1, (add_le_add hasset hfraction).trans hl.2.1,
    (add_le_add hcorrelated hfraction).trans hl.2.2⟩

theorem Eased.passes (h : Eased snapshot eased proposed smaller) {symbol : String} {now : TimePoint}
    (hp : Passes config symbol proposed snapshot now) : Passes config symbol smaller eased now where
  equity := hp.equity.trans_le h.equity
  positive := h.positive
  drawdown := h.not_drawdownReached hp.drawdown
  losses := h.consecutiveLosses.trans_lt hp.losses
  rate := (h.tradesLastHour_le now).trans_lt hp.rate
  limits := h.limitExceeded_eq_none hp.equity hp.limits

end Gates

/-- **Approval is monotone**, and the multiplier stays the same. -/
theorem approve_mono (config : PortfolioRiskConfig) (symbol : String) (now : TimePoint)
    {snapshot eased : PortfolioRiskSnapshot} {proposed smaller : ℚ}
    (h : Eased snapshot eased proposed smaller)
    (ha : (approve config symbol proposed snapshot now).approved = true) :
    (approve config symbol smaller eased now).approved = true ∧
      (approve config symbol smaller eased now).sizeMultiplier =
        (approve config symbol proposed snapshot now).sizeMultiplier := by
  have hp := approve_approved_iff.mp ha
  rw [approve_of_passes hp, approve_of_passes (h.passes hp), h.annualizedVolatility]
  exact ⟨rfl, rfl⟩

/-- Two positions of other assets, two trades in the last hour, two losses. -/
def busySnapshot : PortfolioRiskSnapshot :=
  { equity := 98, dayStartEquity := 100
    positions := [{ symbol := "ETHUSDT", notional := -20 }, { symbol := "SOLUSDT", notional := 10 }]
    consecutiveLosses := 2, tradeTimes := [seconds 60, seconds 120] }

/-- One of them is left, at a smaller size; one trade, one loss, more equity. -/
def easedSnapshot : PortfolioRiskSnapshot :=
  { equity := 99, dayStartEquity := 100, positions := [{ symbol := "ETHUSDT", notional := 15 }]
    consecutiveLosses := 1, tradeTimes := [seconds 120] }

theorem busySnapshot_eased : Eased busySnapshot easedSnapshot 30 25 where
  positive := by decide
  smaller_le := by decide
  equity := by decide
  dayStartEquity := rfl
  positions := .cons ⟨rfl, by decide⟩ .nil
  annualizedVolatility := rfl
  correlations := rfl
  consecutiveLosses := by decide
  tradeTimes := by decide

theorem approve_mono_busySnapshot :
    (approve {} "BTCUSDT" 25 easedSnapshot (seconds 180)).approved = true ∧
      (approve {} "BTCUSDT" 25 easedSnapshot (seconds 180)).sizeMultiplier =
        (approve {} "BTCUSDT" 30 busySnapshot (seconds 180)).sizeMultiplier := by
  have ha : (approve {} "BTCUSDT" 30 busySnapshot (seconds 180)).approved = true := by decide +kernel
  exact approve_mono {} "BTCUSDT" (seconds 180) busySnapshot_eased ha

end Sentum.Risk.PortfolioRiskManager
