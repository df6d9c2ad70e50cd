import Mathlib.Algebra.Order.Floor.Ring
import Mathlib.Data.Rat.Floor
import Sentum.Risk.RiskConfig
import Sentum.Strategy.StrategyFramework

/-!
# Entry approval

`approveEntry` takes the time of its own call of `system_clock::now` as
`now`; no other check of the entry depends on when it is made (`entrySize`).
-/

namespace Sentum.Risk

open Sentum Strategy

structure RiskDecision where
  approved : Bool := false
  reason : String := ""
  quantity : ℚ := 0
  notional : ℚ := 0
deriving DecidableEq

namespace RiskManager

/-- The size of an entry at a price, and the exchange filters on it. -/
def entrySize (config : RiskConfig) (price : ℚ) : RiskDecision :=
  let capitalAtRisk := config.maxTotalCapital * config.riskPerTrade
  let lossPerUnit := price * config.stopLossPercent
  if lossPerUnit ≤ 0 then { reason := "invalid stop-loss distance" }
  else
    let quantity := ⌊capitalAtRisk / lossPerUnit / config.stepSize⌋ * config.stepSize
    let notional := quantity * price
    if quantity < config.minQuantity then { reason := "quantity below exchange minimum" }
    else if 0 < config.maxQuantity ∧ config.maxQuantity < quantity then
      { reason := "quantity above exchange maximum" }
    else if notional < config.minNotional then { reason := "notional below exchange minimum" }
    else if config.maxTotalCapital * config.leverage < notional then
      { reason := "position exceeds configured capital" }
    else { approved := true, reason := "approved", quantity, notional }

def approveEntry (config : RiskConfig) (signal : StrategySignal) (price : ℚ) (priceTime lastExit : TimePoint)
    (now : TimePoint) : RiskDecision :=
  if signal.action ≠ .buy then { reason := "signal is not BUY" }
  else if price ≤ 0 then { reason := "invalid market price" }
  else if milliseconds config.maxDataAgeMs < now - priceTime then { reason := "market data is stale" }
  else if lastExit ≠ 0 ∧ now - lastExit < seconds config.cooldownSeconds then { reason := "cooldown active" }
  else entrySize config price

/-- An approved entry has at least the smallest quantity. -/
theorem entrySize_approved {config : RiskConfig} {price : ℚ} (h : (entrySize config price).approved = true) :
    config.minQuantity ≤ (entrySize config price).quantity := by
  unfold entrySize at h ⊢
  simp only at h ⊢
  split at h
  · cases h
  · split at h
    · cases h
    · next h1 h2 =>
      repeat' split at h
      all_goals first | (cases h; done) | skip
      next h3 h4 h5 =>
        rw [if_neg h1, if_neg h2, if_neg h3, if_neg h4, if_neg h5]
        exact not_lt.mp h2

/-- A stale price is refused whatever the strategy says. -/
theorem approveEntry_stale {config : RiskConfig} {signal : StrategySignal} {price : ℚ}
    {priceTime lastExit now : TimePoint} (h : milliseconds config.maxDataAgeMs < now - priceTime) :
    (approveEntry config signal price priceTime lastExit now).approved = false := by
  unfold approveEntry
  split
  · rfl
  · split <;> rfl

theorem approveEntry_not_buy {config : RiskConfig} {signal : StrategySignal} {price : ℚ}
    {priceTime lastExit now : TimePoint} (h : signal.action ≠ .buy) :
    (approveEntry config signal price priceTime lastExit now).approved = false := by
  unfold approveEntry
  rw [if_pos h]

/-- On fresh data and with no exit before, the size decides. -/
theorem approveEntry_fresh {config : RiskConfig} {signal : StrategySignal} {price : ℚ}
    {priceTime now : TimePoint} (hbuy : signal.action = .buy) (hprice : 0 < price)
    (h : now - priceTime ≤ milliseconds config.maxDataAgeMs) :
    approveEntry config signal price priceTime 0 now = entrySize config price := by
  unfold approveEntry
  rw [if_neg (by simp [hbuy]), if_neg (not_le.mpr hprice), if_neg (not_lt.mpr h), if_neg (by simp)]

/-- An approved entry is a BUY whose size is approved. -/
theorem approveEntry_approved {config : RiskConfig} {signal : StrategySignal} {price : ℚ}
    {priceTime lastExit now : TimePoint}
    (h : (approveEntry config signal price priceTime lastExit now).approved = true) :
    signal.action = .buy ∧
      approveEntry config signal price priceTime lastExit now = entrySize config price := by
  unfold approveEntry at h ⊢
  repeat' split at h
  all_goals first | cases h | skip
  next h1 h2 h3 h4 =>
    rw [if_neg h1, if_neg h2, if_neg h3, if_neg h4]
    exact ⟨by simpa using h1, rfl⟩

/-- There has been an exit, and the clock says that its cooldown is not over. -/
def Cooling (config : RiskConfig) (lastExit now : TimePoint) : Prop :=
  lastExit ≠ 0 ∧ now - lastExit < seconds config.cooldownSeconds

/-- **What an entry is approved for.** -/
theorem approveEntry_approved_iff {config : RiskConfig} {signal : StrategySignal} {price : ℚ}
    {priceTime lastExit now : TimePoint} :
    (approveEntry config signal price priceTime lastExit now).approved = true ↔
      (signal.action = .buy ∧ 0 < price ∧ now - priceTime ≤ milliseconds config.maxDataAgeMs ∧
        (entrySize config price).approved = true) ∧ ¬ Cooling config lastExit now := by
  unfold approveEntry Cooling
  constructor
  · intro h
    split at h
    · cases h
    · next hbuy =>
      split at h
      · cases h
      · next hprice =>
        split at h
        · cases h
        · next hfresh =>
          split at h
          · cases h
          · next hcooling => exact ⟨⟨not_not.mp hbuy, not_le.mp hprice, not_lt.mp hfresh, h⟩, hcooling⟩
  · rintro ⟨⟨hbuy, hprice, hfresh, hsize⟩, hcooling⟩
    rw [if_neg (not_not.mpr hbuy), if_neg (not_le.mpr hprice), if_neg (not_lt.mpr hfresh), if_neg hcooling]
    exact hsize

end RiskManager

end Sentum.Risk
