import Mathlib.Data.Rat.Defs
import Sentum.Nlohmann.Json

/-!
# The risk configuration

`loadRiskConfig` reads a parsed document key by key, in the order of the
source, and then checks the values; `loadRiskConfig_valid` collects what an
accepted configuration satisfies.
-/

namespace Sentum.Risk

open Sentum

structure RiskConfig where
  maxTotalCapital : ℚ
  riskPerTrade : ℚ
  stopLossPercent : ℚ
  takeProfitPercent : ℚ
  trailingSlEnabled : Bool
  trailingSlPercent : ℚ
  trailingTpEnabled : Bool
  trailingTpPercent : ℚ
  buyFeePercent : ℚ
  sellFeePercent : ℚ
  slippagePercent : ℚ
  spreadPercent : ℚ
  leverage : ℚ
  minQuantity : ℚ
  maxQuantity : ℚ
  stepSize : ℚ
  minNotional : ℚ
  cooldownSeconds : Int
  maxHoldingSeconds : Int
  maxDataAgeMs : Int
deriving DecidableEq

def missingKey (key : String) : String := "Missing or invalid risk key: " ++ key

def requiredNumber (j : Json) (key : String) : Except String ℚ :=
  match j.find? key with
  | some (.integer i) => .ok i
  | some (.float q) => .ok q
  | _ => .error (missingKey key)

def requiredInteger (j : Json) (key : String) : Except String Int :=
  match j.find? key with
  | some (.integer i) => .ok (Json.toInt64 i)
  | _ => .error (missingKey key)

/-- The checks on the values; the first that fails throws. -/
def check (c : RiskConfig) : Except String Unit :=
  if c.maxTotalCapital ≤ 0 ∨ c.riskPerTrade ≤ 0 ∨ 1 < c.riskPerTrade then
    .error "Invalid capital or risk_per_trade"
  else if c.stopLossPercent ≤ 0 ∨ c.takeProfitPercent ≤ 0 then
    .error "Stop loss and take profit must be positive"
  else if c.buyFeePercent < 0 ∨ c.sellFeePercent < 0 ∨ c.slippagePercent < 0 ∨ c.spreadPercent < 0 then
    .error "Execution costs cannot be negative"
  else if c.leverage ≤ 0 ∨ c.stepSize ≤ 0 ∨ c.minQuantity ≤ 0 ∨ c.minNotional ≤ 0 then
    .error "Invalid exchange filters"
  else if 0 < c.maxQuantity ∧ c.maxQuantity < c.minQuantity then
    .error "max_quantity must be zero or >= min_quantity"
  else if c.cooldownSeconds < 0 ∨ c.maxHoldingSeconds ≤ 0 ∨ c.maxDataAgeMs ≤ 0 then
    .error "Invalid time constraints"
  else .ok ()

/-- `load_risk_config` of a document that has been opened and parsed. -/
def loadRiskConfig (j : Json) : Except String RiskConfig := do
  let maxTotalCapital ← requiredNumber j "max_total_capital"
  let riskPerTrade ← requiredNumber j "risk_per_trade"
  let stopLossPercent ← requiredNumber j "stop_loss_percent"
  let takeProfitPercent ← requiredNumber j "take_profit_percent"
  let buyFeePercent ← requiredNumber j "buy_fee_percent"
  let sellFeePercent ← requiredNumber j "sell_fee_percent"
  let slippagePercent ← requiredNumber j "slippage_percent"
  let spreadPercent ← requiredNumber j "spread_percent"
  let leverage ← requiredNumber j "leverage"
  let minQuantity ← requiredNumber j "min_quantity"
  let maxQuantity ← requiredNumber j "max_quantity"
  let stepSize ← requiredNumber j "step_size"
  let minNotional ← requiredNumber j "min_notional"
  let cooldownSeconds ← requiredInteger j "cooldown_seconds"
  let maxHoldingSeconds ← requiredInteger j "max_holding_seconds"
  let maxDataAgeMs ← requiredInteger j "max_data_age_ms"
  let trailingSlEnabled ← j.value Json.getBoolean "trailing_sl_enabled" false
  let trailingSlPercent ← j.value Json.getDouble "trailing_sl_percent" 0
  let trailingTpEnabled ← j.value Json.getBoolean "trailing_tp_enabled" false
  let trailingTpPercent ← j.value Json.getDouble "trailing_tp_percent" 0
  let c : RiskConfig := {
    maxTotalCapital, riskPerTrade, stopLossPercent, takeProfitPercent, trailingSlEnabled, trailingSlPercent
    trailingTpEnabled, trailingTpPercent, buyFeePercent, sellFeePercent, slippagePercent, spreadPercent
    leverage, minQuantity, maxQuantity, stepSize, minNotional, cooldownSeconds, maxHoldingSeconds, maxDataAgeMs }
  check c
  return c

/-- What the checks establish. -/
structure Valid (c : RiskConfig) : Prop where
  capital : 0 < c.maxTotalCapital ∧ 0 < c.riskPerTrade ∧ c.riskPerTrade ≤ 1
  exits : 0 < c.stopLossPercent ∧ 0 < c.takeProfitPercent
  costs : 0 ≤ c.buyFeePercent ∧ 0 ≤ c.sellFeePercent ∧ 0 ≤ c.slippagePercent ∧ 0 ≤ c.spreadPercent
  filters : 0 < c.leverage ∧ 0 < c.stepSize ∧ 0 < c.minQuantity ∧ 0 < c.minNotional
  maxQuantity : 0 < c.maxQuantity → c.minQuantity ≤ c.maxQuantity
  times : 0 ≤ c.cooldownSeconds ∧ 0 < c.maxHoldingSeconds ∧ 0 < c.maxDataAgeMs

theorem check_iff (c : RiskConfig) : check c = .ok () ↔ Valid c := by
  unfold check
  constructor
  · intro h
    repeat' split at h
    all_goals first | (cases h; done) | skip
    next h1 h2 h3 h4 h5 h6 =>
      simp only [not_or, not_le, not_lt, not_and] at h1 h2 h3 h4 h5 h6
      exact ⟨h1, h2, h3, h4, h5, h6⟩
  · rintro ⟨h1, h2, h3, h4, h5, h6⟩
    rw [if_neg (by simpa only [not_or, not_le, not_lt] using h1),
      if_neg (by simpa only [not_or, not_le, not_lt] using h2),
      if_neg (by simpa only [not_or, not_le, not_lt] using h3),
      if_neg (by simpa only [not_or, not_le, not_lt] using h4),
      if_neg (by simpa only [not_and, not_lt] using h5),
      if_neg (by simpa only [not_or, not_le, not_lt] using h6)]

theorem bind_eq_ok {ε α β : Type} {x : Except ε α} {f : α → Except ε β} {b : β}
    (h : (x >>= f) = .ok b) : ∃ a, x = .ok a ∧ f a = .ok b := by
  cases x with
  | error what => cases h
  | ok a => exact ⟨a, rfl, h⟩

/-- **An accepted configuration is valid.** -/
theorem loadRiskConfig_valid {j : Json} {c : RiskConfig} (h : loadRiskConfig j = .ok c) : Valid c := by
  unfold loadRiskConfig at h
  iterate 20 obtain ⟨_, -, h⟩ := bind_eq_ok h
  obtain ⟨u, hu, h⟩ := bind_eq_ok h
  cases h
  exact (check_iff _).mp hu

/-! ## config/risk.json -/

def shippedDocument : Json :=
  .object [("max_total_capital", .float 1000), ("risk_per_trade", .float (1 / 100)),
    ("stop_loss_percent", .float (1 / 100)), ("take_profit_percent", .float (3 / 100)),
    ("buy_fee_percent", .float (1 / 1000)), ("sell_fee_percent", .float (1 / 1000)),
    ("slippage_percent", .float (5 / 10000)), ("spread_percent", .float (2 / 10000)), ("leverage", .float 1),
    ("min_quantity", .float (1 / 10 ^ 6)), ("max_quantity", .float 0), ("step_size", .float (1 / 10 ^ 6)),
    ("min_notional", .float 5), ("cooldown_seconds", .integer 30), ("max_holding_seconds", .integer 900),
    ("max_data_age_ms", .integer 2000), ("trailing_sl_enabled", .boolean true),
    ("trailing_sl_percent", .float (1 / 100)), ("trailing_tp_enabled", .boolean false),
    ("trailing_tp_percent", .float (2 / 100))]

/-- The file with other values for some keys. -/
def shippedDocumentWith (changes : List (String × Json)) : Json :=
  match shippedDocument with
  | .object entries => .object (entries.map fun entry => (entry.1, (changes.lookup entry.1).getD entry.2))
  | j => j

def shippedRisk : RiskConfig :=
  { maxTotalCapital := 1000, riskPerTrade := 1 / 100, stopLossPercent := 1 / 100, takeProfitPercent := 3 / 100
    trailingSlEnabled := true, trailingSlPercent := 1 / 100, trailingTpEnabled := false
    trailingTpPercent := 2 / 100, buyFeePercent := 1 / 1000, sellFeePercent := 1 / 1000
    slippagePercent := 5 / 10000, spreadPercent := 2 / 10000, leverage := 1, minQuantity := 1 / 10 ^ 6
    maxQuantity := 0, stepSize := 1 / 10 ^ 6, minNotional := 5, cooldownSeconds := 30, maxHoldingSeconds := 900
    maxDataAgeMs := 2000 }

theorem shippedRisk_loaded : loadRiskConfig shippedDocument = .ok shippedRisk := by decide +kernel

end Sentum.Risk
