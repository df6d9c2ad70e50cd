import Mathlib.Algebra.Order.Archimedean.Basic
import Sentum.Trader.ProtectiveExits

/-!
# What execution costs

A position is sized at the market price and paid for at the fill price, with a
fee.  `affordable_iff` says for which settings the capital covers every entry,
`costsHurt_iff` for which no trade profits from its costs.
-/

namespace Sentum.Risk

namespace RiskConfig

/-- What a buy costs for each unit of its notional. -/
def buyCost (c : RiskConfig) : ℚ := c.buyFactor * (1 + c.buyFeePercent)

/-- What a sell brings for each unit of its notional. -/
def sellYield (c : RiskConfig) : ℚ := c.sellFactor * (1 - c.sellFeePercent)

/-- The notional whose stop loses the capital at risk. -/
def riskNotional (c : RiskConfig) : ℚ := c.maxTotalCapital * c.riskPerTrade / c.stopLossPercent

def capitalLimit (c : RiskConfig) : ℚ := c.maxTotalCapital * c.leverage

/-- The steps of the smallest quantity. -/
def fewestSteps (c : RiskConfig) : ℤ := ⌈c.minQuantity / c.stepSize⌉

/-- The steps of an entry at a price. -/
def entrySteps (c : RiskConfig) (price : ℚ) : ℤ := ⌊c.riskNotional / (price * c.stepSize)⌋

/-- The capital covers every entry: buys cost nothing extra, or the risk leaves
room for the costs, or no entry comes close enough to the limit. -/
def Covered (c : RiskConfig) : Prop :=
  c.buyCost ≤ 1 ∨ c.riskNotional * c.buyCost ≤ c.capitalLimit ∨
    min c.riskNotional c.capitalLimit < c.minNotional ∨
    (0 < c.maxQuantity ∧ c.maxQuantity < c.fewestSteps * c.stepSize) ∨
    c.capitalLimit * (c.fewestSteps + 1) ≤ c.riskNotional * c.fewestSteps

end RiskConfig

namespace Valid

variable {c : RiskConfig}

theorem riskNotional_pos (h : Valid c) : 0 < c.riskNotional := by
  obtain ⟨hcapital, hrisk, -⟩ := h.capital
  exact div_pos (mul_pos hcapital hrisk) h.exits.1

theorem capitalLimit_pos (h : Valid c) : 0 < c.capitalLimit := mul_pos h.capital.1 h.filters.1

theorem fewestSteps_pos (h : Valid c) : 0 < c.fewestSteps :=
  Int.ceil_pos.mpr (div_pos h.filters.2.2.1 h.filters.2.1)

/-- Enough steps for the smallest quantity. -/
theorem fewestSteps_le_iff (h : Valid c) (n : ℤ) : c.fewestSteps ≤ n ↔ c.minQuantity ≤ n * c.stepSize := by
  unfold RiskConfig.fewestSteps
  rw [Int.ceil_le, div_le_iff₀ h.filters.2.1]

end Valid

namespace RiskManager

variable {c : RiskConfig} {price : ℚ}

theorem entrySize_quantity_of_approved (h : (entrySize c price).approved = true) :
    (entrySize c price).quantity =
      ⌊c.maxTotalCapital * c.riskPerTrade / (price * c.stopLossPercent) / c.stepSize⌋ * c.stepSize := by
  unfold entrySize at h ⊢
  simp only at h ⊢
  repeat' split at h
  all_goals first | (cases h; done) | skip
  next h1 h2 h3 h4 h5 => rw [if_neg h1, if_neg h2, if_neg h3, if_neg h4, if_neg h5]

theorem entrySteps_eq (hv : Valid c) (hprice : 0 < price) :
    ⌊c.maxTotalCapital * c.riskPerTrade / (price * c.stopLossPercent) / c.stepSize⌋ = c.entrySteps price := by
  have hstop := hv.exits.1
  have hstep := hv.filters.2.1
  unfold RiskConfig.entrySteps RiskConfig.riskNotional
  congr 1
  field_simp

/-- **What the sizing checks let through.** -/
theorem entrySize_approved_iff (hv : Valid c) (hprice : 0 < price) :
    (entrySize c price).approved = true ↔
      c.fewestSteps ≤ c.entrySteps price ∧
      (0 < c.maxQuantity → c.entrySteps price * c.stepSize ≤ c.maxQuantity) ∧
      c.minNotional ≤ c.entrySteps price * c.stepSize * price ∧
      c.entrySteps price * c.stepSize * price ≤ c.capitalLimit := by
  have hloss : ¬ price * c.stopLossPercent ≤ 0 := not_le.mpr (mul_pos hprice hv.exits.1)
  unfold entrySize
  simp only [if_neg hloss, entrySteps_eq hv hprice]
  rw [hv.fewestSteps_le_iff]
  constructor
  · intro h
    repeat' split at h
    all_goals first | (cases h; done) | skip
    next hmin hmax hnotional hlimit =>
      exact ⟨not_lt.mp hmin, fun hpos => not_lt.mp fun hlt => hmax ⟨hpos, hlt⟩, not_lt.mp hnotional, not_lt.mp hlimit⟩
  · rintro ⟨hmin, hmax, hnotional, hlimit⟩
    rw [if_neg (not_lt.mpr hmin), if_neg (fun h => absurd h.2 (not_lt.mpr (hmax h.1))),
      if_neg (not_lt.mpr hnotional)]
    have hlimit' : ¬ c.maxTotalCapital * c.leverage < c.entrySteps price * c.stepSize * price := not_lt.mpr hlimit
    rw [if_neg hlimit']

/-- The notional is the risk's, rounded down to steps. -/
theorem entrySteps_bounds (hv : Valid c) (hprice : 0 < price) :
    c.entrySteps price * c.stepSize * price ≤ c.riskNotional ∧
      c.riskNotional < (c.entrySteps price + 1) * c.stepSize * price := by
  have hunit : 0 < price * c.stepSize := mul_pos hprice hv.filters.2.1
  have hle : (c.entrySteps price : ℚ) ≤ c.riskNotional / (price * c.stepSize) := Int.floor_le _
  have hlt : c.riskNotional / (price * c.stepSize) < c.entrySteps price + 1 := Int.lt_floor_add_one _
  rw [le_div_iff₀ hunit] at hle
  rw [div_lt_iff₀ hunit] at hlt
  constructor
  · calc c.entrySteps price * c.stepSize * price = c.entrySteps price * (price * c.stepSize) := by ring
      _ ≤ c.riskNotional := hle
  · calc c.riskNotional < (c.entrySteps price + 1) * (price * c.stepSize) := hlt
      _ = (c.entrySteps price + 1) * c.stepSize * price := by ring

/-- A covered entry is paid for. -/
theorem cost_le_of_covered (hv : Valid c) (hcovered : c.Covered) (hprice : 0 < price)
    (happroved : (entrySize c price).approved = true) :
    c.entrySteps price * c.stepSize * price * c.buyCost ≤ c.capitalLimit := by
  obtain ⟨hmin, hmax, hnotional, hlimit⟩ := (entrySize_approved_iff hv hprice).mp happroved
  obtain ⟨hle, hlt⟩ := entrySteps_bounds hv hprice
  have hfewest : (0 : ℚ) < c.fewestSteps := by exact_mod_cast hv.fewestSteps_pos
  have hmin' : (c.fewestSteps : ℚ) ≤ c.entrySteps price := by exact_mod_cast hmin
  have hpositive : 0 < c.entrySteps price * c.stepSize * price := lt_of_lt_of_le hv.filters.2.2.2 hnotional
  have hcost : 0 ≤ c.buyCost := by
    have hone := hv.one_le_buyFactor
    have hfee := hv.costs.1
    unfold RiskConfig.buyCost
    positivity
  rcases hcovered with hfree | hroom | hsmall | ⟨hpos, hfew⟩ | hcoarse
  · exact (mul_le_of_le_one_right (le_of_lt hpositive) hfree).trans hlimit
  · exact (mul_le_mul_of_nonneg_right hle hcost).trans hroom
  · exact absurd (le_min hle hlimit) (not_le.mpr (lt_of_lt_of_le hsmall hnotional))
  · have hstep := mul_le_mul_of_nonneg_right hmin' (le_of_lt hv.filters.2.1)
    exact absurd (hmax hpos) (not_le.mpr (lt_of_lt_of_le hfew hstep))
  · -- with `n` steps the notional is above `n / (n + 1)` of the risk's
    generalize (c.entrySteps price : ℚ) = n at *
    have hsteps : c.riskNotional * n < (n + 1) * c.capitalLimit := by
      calc c.riskNotional * n < (n + 1) * c.stepSize * price * n :=
            mul_lt_mul_of_pos_right hlt (lt_of_lt_of_le hfewest hmin')
        _ = (n + 1) * (n * c.stepSize * price) := by ring
        _ ≤ (n + 1) * c.capitalLimit := mul_le_mul_of_nonneg_left hlimit (by linarith)
    have hrisk := hv.riskNotional_pos
    nlinarith [mul_le_mul_of_nonneg_left hcoarse (show 0 ≤ n + 1 by linarith),
      mul_le_mul_of_nonneg_left hmin' (le_of_lt hrisk)]

/-- The price at which the fewest steps use up risk and capital as far as they go. -/
def dearestPrice (c : RiskConfig) : ℚ := min c.riskNotional c.capitalLimit / (c.fewestSteps * c.stepSize)

/-- An entry that is not paid for. -/
theorem exists_cost_gt (hv : Valid c) (hnot : ¬ c.Covered) :
    0 < dearestPrice c ∧ (entrySize c (dearestPrice c)).approved = true ∧
      c.capitalLimit < c.entrySteps (dearestPrice c) * c.stepSize * dearestPrice c * c.buyCost := by
  unfold RiskConfig.Covered at hnot
  simp only [not_or, not_and, not_le, not_lt] at hnot
  obtain ⟨hcost, htight, hlarge, hmany, hfine⟩ := hnot
  have hfewest : (0 : ℚ) < c.fewestSteps := by exact_mod_cast hv.fewestSteps_pos
  have hstep := hv.filters.2.1
  have hnotional : 0 < min c.riskNotional c.capitalLimit := lt_min hv.riskNotional_pos hv.capitalLimit_pos
  have hprice : 0 < dearestPrice c := div_pos hnotional (mul_pos hfewest hstep)
  have hunit : dearestPrice c * c.stepSize = min c.riskNotional c.capitalLimit / c.fewestSteps := by
    unfold dearestPrice
    field_simp
  have hsteps : c.entrySteps (dearestPrice c) = c.fewestSteps := by
    unfold RiskConfig.entrySteps
    rw [hunit, div_div_eq_mul_div, Int.floor_eq_iff, le_div_iff₀ hnotional, div_lt_iff₀ hnotional]
    constructor
    · rw [mul_comm]
      exact mul_le_mul_of_nonneg_right (min_le_left _ _) (le_of_lt hfewest)
    · rcases min_choice c.riskNotional c.capitalLimit with hmin | hmin
      · rw [hmin]
        nlinarith [hv.riskNotional_pos]
      · rw [hmin]
        linarith
  have hspent : c.fewestSteps * c.stepSize * dearestPrice c = min c.riskNotional c.capitalLimit := by
    unfold dearestPrice
    field_simp
  refine ⟨hprice, (entrySize_approved_iff hv hprice).mpr ?_, ?_⟩
  · rw [hsteps, hspent]
    exact ⟨le_rfl, hmany, hlarge, min_le_right _ _⟩
  · rw [hsteps, hspent]
    rcases min_choice c.riskNotional c.capitalLimit with hmin | hmin
    · rw [hmin]
      exact htight
    · rw [hmin]
      exact lt_mul_of_one_lt_right hv.capitalLimit_pos hcost

end RiskManager

end Sentum.Risk

namespace Sentum.Trader

open Sentum.Order Sentum.Market Sentum.Strategy Sentum.Risk Sentum.Execution Run

/-! ## Entries -/

namespace EngineRun

/-- The capital covers what the open position has cost. -/
def Affordable (risk : RiskConfig) (s : EngineRun) : Prop :=
  s.engine.position.isOpen = true →
    s.engine.position.quantity * s.engine.position.entryPrice + s.engine.position.feeEntry ≤
      risk.maxTotalCapital * risk.leverage

/-- What a position has cost. -/
theorem cost_eq {risk : RiskConfig} (hv : Valid risk) {price : ℚ} {p : TradePosition} (h : p.OpenedAt risk price) :
    p.quantity * p.entryPrice + p.feeEntry = risk.entrySteps price * risk.stepSize * price * risk.buyCost := by
  have hquantity := RiskManager.entrySize_quantity_of_approved h.approved
  rw [RiskManager.entrySteps_eq hv h.marketPrice] at hquantity
  rw [h.feeEntry, h.entryPrice, h.quantity, hquantity]
  unfold RiskConfig.buyCost
  ring

/-- **Main result: the capital covers every entry** exactly when it does at the
margins of the sizing checks. -/
theorem affordable_iff {document : Json} {risk : RiskConfig} (hc : loadRiskConfig document = .ok risk) :
    (∀ symbol api strategy as, Affordable risk (exec step (start symbol api risk strategy) as)) ↔ risk.Covered := by
  have hv := loadRiskConfig_valid hc
  constructor
  · intro haffordable
    by_contra hnot
    obtain ⟨hprice, happroved, hover⟩ := RiskManager.exists_cost_gt hv hnot
    have hheld := heldAt_waiting_tick hv hprice happroved
    have hpaid := haffordable "BTCUSDT" false quickMomentum
      [before (RiskManager.dearestPrice risk), tick (RiskManager.dearestPrice risk)] hheld.holding.isOpen
    have hcost := cost_eq hv hheld.opened
    exact absurd (hcost ▸ hpaid) (not_le.mpr hover)
  · intro hcovered symbol api strategy as hopen
    obtain ⟨price, hp⟩ := exists_openedAt hv symbol api strategy as hopen
    rw [cost_eq hv hp]
    exact RiskManager.cost_le_of_covered hv hcovered hp.marketPrice hp.approved

/-- The shipped settings with half the risk. -/
def halfRisk : RiskConfig := { shippedRisk with riskPerTrade := 5 / 1000 }

theorem halfRisk_loaded :
    loadRiskConfig (shippedDocumentWith [("risk_per_trade", .float (5 / 1000))]) = .ok halfRisk := by
  decide +kernel

theorem affordable_halfRisk :
    Affordable halfRisk (exec step (start "BTCUSDT" false halfRisk quickMomentum) [before 100, tick 100]) :=
  (affordable_iff halfRisk_loaded).mpr (.inr (.inl (by decide +kernel))) "BTCUSDT" false quickMomentum _

/-- With the shipped settings 10 BTC are bought at 100.06 with 1000 of capital. -/
theorem shippedRisk_not_affordable :
    loadRiskConfig shippedDocument = .ok shippedRisk ∧
    ¬ Affordable shippedRisk (exec step (start "BTCUSDT" false shippedRisk quickMomentum) [before 100, tick 100]) := by
  unfold Affordable
  decide +kernel

end EngineRun

/-! ## Trades -/

namespace MarketRun

/-- No completed trade has earned more than the market moved. -/
def CostsHurt (m : MarketRun) : Prop :=
  m.trades.map MarketTrade.trade = m.run.engine.completed ∧
    ∀ t ∈ m.trades, t.trade.netProfit ≤ (t.exitMarket - t.entryMarket) * t.trade.quantity

variable {risk : RiskConfig}

/-- The profit of a trade, from the market prices. -/
theorem netProfit_eq {t : MarketTrade} (h : t.Priced risk) :
    t.trade.netProfit = (t.exitMarket * risk.sellYield - t.entryMarket * risk.buyCost) * t.trade.quantity := by
  rw [h.netProfit, h.opened.feeEntry, h.opened.entryPrice]
  unfold RiskConfig.sellYield RiskConfig.buyCost
  ring

theorem one_le_buyCost (hv : Valid risk) : 1 ≤ risk.buyCost := by
  have hone := hv.one_le_buyFactor
  have hfee := hv.costs.1
  unfold RiskConfig.buyCost
  nlinarith [mul_nonneg (show 0 ≤ risk.buyFactor by linarith) hfee]

theorem costsHurt_of_yield {m : MarketRun} (hv : Valid risk) (hyield : risk.sellYield ≤ 1) (h : Priced risk m) :
    CostsHurt m := by
  refine ⟨h.completed, fun t ht => ?_⟩
  have hpriced := h.trades t ht
  rw [netProfit_eq hpriced]
  refine mul_le_mul_of_nonneg_right ?_ (le_of_lt hpriced.opened.positive)
  have hsell := mul_le_of_le_one_right (le_of_lt hpriced.exitMarket) hyield
  have hbuy := le_mul_of_one_le_right (le_of_lt hpriced.opened.marketPrice) (one_le_buyCost hv)
  linarith

/-- A price at which the yield of a sell makes up for the cost of the buy. -/
def gainingPrice (risk : RiskConfig) (price : ℚ) : ℚ :=
  price * risk.buyFactor * (1 + risk.takeProfitPercent) + price * risk.buyCost / (risk.sellYield - 1)

theorem gainingPrice_gains (hv : Valid risk) (hyield : 1 < risk.sellYield) {price : ℚ} (hprice : 0 < price) :
    price * risk.buyFactor * (1 + risk.takeProfitPercent) < gainingPrice risk price ∧
      price * risk.buyCost < gainingPrice risk price * (risk.sellYield - 1) := by
  have hentry : 0 < price * risk.buyFactor := mul_pos hprice (by linarith [hv.one_le_buyFactor])
  have htarget : 0 < price * risk.buyFactor * (1 + risk.takeProfitPercent) :=
    mul_pos hentry (by linarith [hv.exits.2])
  have hcost : 0 < price * risk.buyCost := mul_pos hprice (by linarith [one_le_buyCost hv])
  have hgain : 0 < risk.sellYield - 1 := by linarith
  unfold gainingPrice
  constructor
  · linarith [div_pos hcost hgain]
  · rw [add_mul, div_mul_cancel₀ _ (ne_of_gt hgain)]
    linarith [mul_pos htarget hgain]

/-- The trade that an event completes, as it is observed. -/
theorem mem_trades_step {m : MarketRun} {clockNow systemNow : TimePoint} {saves : Bool} {event : MarketEvent}
    {trade : TradePosition}
    (h : (m.run.step (.event clockNow systemNow saves event)).engine.completed = m.run.engine.completed ++ [trade]) :
    ⟨trade, m.entryMarket, event.price⟩ ∈ (m.step (.event clockNow systemNow saves event)).trades := by
  unfold step
  dsimp only
  rw [h, List.drop_left]
  exact List.mem_append.mpr (.inr List.mem_cons_self)

/-- A sell that yields more than the market price is a gain at a high price. -/
theorem exists_not_costsHurt (hv : Valid risk) (hyield : 1 < risk.sellYield) (henter : risk.Enterable) :
    ∃ as, ¬ CostsHurt (exec step (start "BTCUSDT" false risk quickMomentum) as) := by
  obtain ⟨price, hprice, happroved⟩ := henter
  obtain ⟨htarget, hgain⟩ := gainingPrice_gains hv hyield hprice
  have hheld := EngineRun.heldAt_waiting_tick hv hprice happroved
  have hentered := priced_exec hv "BTCUSDT" false quickMomentum [before price, tick price]
  have hleft := priced_exec hv "BTCUSDT" false quickMomentum [before price, tick price, tick (gainingPrice risk price)]
  refine ⟨[before price, tick price, tick (gainingPrice risk price)], fun hhurt => ?_⟩
  have hhigh : 0 < gainingPrice risk price :=
    lt_trans (mul_pos (mul_pos hprice (by linarith [hv.one_le_buyFactor])) (by linarith [hv.exits.2])) htarget
  -- the target is reached
  obtain ⟨reason, hrule⟩ : ∃ reason, (((EngineRun.waiting risk price).step (tick price)).engine.position.mark
      (gainingPrice risk price)).exitReason risk (gainingPrice risk price) (seconds 2) = some reason := by
    rw [← Option.ne_none_iff_exists', ne_eq, TradePosition.exitReason_eq_none_iff, not_not,
      TradePosition.mark_takeProfitPrice, hheld.opened.takeProfitPrice, hheld.opened.entryPrice]
    exact .inr (.inl (le_of_lt htarget))
  obtain ⟨-, hcompleted⟩ := EngineRun.closed_of_due hheld.holding (congrArg RuntimeControl.manualClose hheld.control)
    (hheld.takes hv hhigh) (by rw [hheld.terms.config]; exact hrule)
  have hmem := mem_trades_step (m := exec step (start "BTCUSDT" false risk quickMomentum) [before price, tick price])
    hcompleted
  have hmarket : (exec step (start "BTCUSDT" false risk quickMomentum) [before price, tick price]).entryMarket =
      price := by
    have hfactor : risk.buyFactor ≠ 0 := by linarith [hv.one_le_buyFactor]
    have hsame := (hentered.position hheld.holding.isOpen).entryPrice.symm.trans hheld.opened.entryPrice
    exact mul_right_cancel₀ hfactor hsame
  have hle := hhurt.2 _ hmem
  have hpriced := hleft.trades _ hmem
  rw [netProfit_eq hpriced] at hle
  have hbound := le_of_mul_le_mul_right hle hpriced.opened.positive
  rw [hmarket] at hbound
  have hexit : (btcEvent 2 (gainingPrice risk price)).price = gainingPrice risk price := rfl
  rw [hexit] at hbound
  nlinarith

/-- **Main result: execution costs never help** exactly when a sell yields at
most the market price, or the settings let no price through. -/
theorem costsHurt_iff {document : Json} {risk : RiskConfig} (hc : loadRiskConfig document = .ok risk) :
    (∀ symbol api strategy as, CostsHurt (exec step (start symbol api risk strategy) as)) ↔
      (1 - risk.spreadPercent * (1 / 2)) * (1 - risk.slippagePercent) * (1 - risk.sellFeePercent) ≤ 1 ∨
        ¬ risk.Enterable := by
  have hv := loadRiskConfig_valid hc
  constructor
  · intro hhurt
    by_contra hnot
    obtain ⟨hyield, henter⟩ := not_or.mp hnot
    obtain ⟨as, hgain⟩ := exists_not_costsHurt hv (not_le.mp hyield) (not_not.mp henter)
    exact hgain (hhurt "BTCUSDT" false quickMomentum as)
  · intro hcond symbol api strategy as
    have hpriced := priced_exec hv symbol api strategy as
    rcases hcond with hyield | hnone
    · exact costsHurt_of_yield hv hyield hpriced
    · refine ⟨hpriced.completed, fun t ht => ?_⟩
      have hopened := (hpriced.trades t ht).opened
      exact absurd ⟨t.entryMarket, hopened.marketPrice, hopened.approved⟩ hnone

theorem costsHurt_shippedRisk :
    CostsHurt (exec step (start "BTCUSDT" false shippedRisk quickMomentum) [before 100, tick 100, tick 104]) :=
  (costsHurt_iff shippedRisk_loaded).mpr (.inl (by decide +kernel)) "BTCUSDT" false quickMomentum _

/-- Percentages taken for fractions: a spread of 600% and a slippage of 300%. -/
def coarseCosts : RiskConfig := { shippedRisk with spreadPercent := 6, slippagePercent := 3 }

/-- Bought at a market price of 100 and sold at one of 2000, at four times the price. -/
theorem coarseCosts_not_costsHurt :
    loadRiskConfig (shippedDocumentWith [("spread_percent", .integer 6), ("slippage_percent", .integer 3)]) =
      .ok coarseCosts ∧
    ¬ CostsHurt (exec step (start "BTCUSDT" false coarseCosts quickMomentum) [before 100, tick 100, tick 2000]) := by
  unfold CostsHurt
  decide +kernel

end MarketRun

end Sentum.Trader
