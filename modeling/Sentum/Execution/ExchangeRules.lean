import Mathlib.Algebra.Order.Floor.Ring
import Mathlib.Data.Rat.Floor
import Mathlib.Tactic.FieldSimp
import Sentum.Nlohmann.Json
import Sentum.Risk.RiskConfig
import Sentum.Std.Stod

/-!
# Exchange rules

The quantity and notional filters of a symbol, as `exchangeInfo` publishes
them.  `passes_iff` says which quantities the rules leave as they are: the
whole numbers of lots between the two limits.
-/

namespace Sentum.Execution

open Sentum

structure ExchangeRules where
  minQuantity : ℚ := 0
  maxQuantity : ℚ := 0
  stepSize : ℚ := 0
  minNotional : ℚ := 0
  basePrecision : Int := 8
  quotePrecision : Int := 8
deriving DecidableEq

namespace ExchangeRules

def normalizeQuantity (rules : ExchangeRules) (value : ℚ) : Except String ℚ :=
  if rules.stepSize ≤ 0 then .error "Invalid exchange step size"
  else
    let normalized := ⌊value / rules.stepSize⌋ * rules.stepSize
    if normalized < rules.minQuantity then .error "Quantity below exchange minimum"
    else if 0 < rules.maxQuantity ∧ rules.maxQuantity < normalized then
      .error "Quantity above exchange maximum"
    else .ok normalized

def validateNotional (rules : ExchangeRules) (quantity price : ℚ) : Except String Unit :=
  if quantity * price < rules.minNotional then .error "Order notional below exchange minimum" else .ok ()

/-! ## Reading exchangeInfo -/

/-- `std::stod(filter.value(key, "0"))` -/
def parse (filter : Json) (key : String) : Except String ℚ := do
  match Std.stod (← filter.value Json.getString key "0") with
  | some q => return q
  | none => throw "stod"

/-- A lot filter; `MARKET_LOT_SIZE` overrides what `LOT_SIZE` has set. -/
def readLot (market : Bool) (filter : Json) (rules : ExchangeRules) : Except String ExchangeRules := do
  let minQuantity ← if rules.minQuantity = 0 ∨ market then parse filter "minQty" else pure rules.minQuantity
  let maxQuantity ← if rules.maxQuantity = 0 ∨ market then parse filter "maxQty" else pure rules.maxQuantity
  let stepSize ← if rules.stepSize = 0 ∨ market then parse filter "stepSize" else pure rules.stepSize
  return { rules with minQuantity, maxQuantity, stepSize }

def readFilter (rules : ExchangeRules) (filter : Json) : Except String ExchangeRules := do
  let type ← filter.value Json.getString "filterType" ""
  if type = "LOT_SIZE" ∨ type = "MARKET_LOT_SIZE" then readLot (type = "MARKET_LOT_SIZE") filter rules
  else if type = "MIN_NOTIONAL" ∨ type = "NOTIONAL" then
    return { rules with minNotional := ← parse filter "minNotional" }
  else return rules

def readRules (item : Json) : Except String ExchangeRules := do
  let basePrecision ← item.value Json.getInt "baseAssetPrecision" 8
  let quotePrecision ← item.value Json.getInt "quoteAssetPrecision" 8
  let filters ← item.entry "filters"
  filters.elements.foldlM readFilter { basePrecision, quotePrecision }

/-- The entry of the symbol. -/
def readSymbol (item : Json) : Except String ExchangeRules := do
  let status ← item.value Json.getString "status" ""
  if status ≠ "TRADING" then throw "Symbol is not trading"
  else do
    let rules ← readRules item
    if rules.stepSize ≤ 0 then throw "Exchange did not provide a usable quantity step" else return rules

/-- The first entry that names the symbol decides. -/
def readSymbols (symbol : String) : List Json → Except String ExchangeRules
  | [] => .error ("Symbol missing from exchangeInfo: " ++ symbol)
  | item :: rest =>
    match item.value Json.getString "symbol" "" with
    | .error what => .error what
    | .ok name => if name ≠ symbol then readSymbols symbol rest else readSymbol item

def fromExchangeInfo (info : Json) (symbol : String) : Except String ExchangeRules :=
  match info.find? "symbols" with
  | some (.array items) => readSymbols symbol items
  | _ => .error "Invalid exchangeInfo response"

theorem readSymbol_step {item : Json} {rules : ExchangeRules} (h : readSymbol item = .ok rules) :
    0 < rules.stepSize := by
  unfold readSymbol at h
  obtain ⟨status, -, h⟩ := Risk.bind_eq_ok h
  split at h
  · cases h
  · obtain ⟨_, -, h⟩ := Risk.bind_eq_ok h
    split at h
    · cases h
    · next hstep =>
      cases h
      exact not_le.mp hstep

theorem readSymbols_step {symbol : String} {items : List Json} {rules : ExchangeRules}
    (h : readSymbols symbol items = .ok rules) : 0 < rules.stepSize := by
  induction items with
  | nil => cases h
  | cons item rest ih =>
    unfold readSymbols at h
    split at h
    · cases h
    · split at h
      · exact ih h
      · exact readSymbol_step h

/-- **Published rules have a step.** -/
theorem fromExchangeInfo_step {info : Json} {symbol : String} {rules : ExchangeRules}
    (h : fromExchangeInfo info symbol = .ok rules) : 0 < rules.stepSize := by
  unfold fromExchangeInfo at h
  split at h
  · exact readSymbols_step h
  · cases h

/-! ## The quantities that pass -/

/-- `quantity` is a whole number of steps. -/
def WholeLots (step quantity : ℚ) : Prop := (quantity / step).den = 1

instance (step quantity : ℚ) : Decidable (WholeLots step quantity) :=
  inferInstanceAs (Decidable (_ = 1))

theorem wholeLots_iff {step : ℚ} (h : 0 < step) (quantity : ℚ) :
    WholeLots step quantity ↔ ∃ k : ℤ, quantity = k * step := by
  unfold WholeLots
  rw [Rat.den_eq_one_iff]
  constructor
  · intro hk
    exact ⟨(quantity / step).num, by rw [hk]; field_simp⟩
  · rintro ⟨k, rfl⟩
    rw [mul_div_assoc, div_self h.ne', mul_one, Rat.num_intCast]

theorem floor_lots_eq_iff {step : ℚ} (h : 0 < step) (quantity : ℚ) :
    ⌊quantity / step⌋ * step = quantity ↔ WholeLots step quantity := by
  rw [wholeLots_iff h]
  constructor
  · intro hq
    exact ⟨_, hq.symm⟩
  · rintro ⟨k, rfl⟩
    rw [mul_div_assoc, div_self h.ne', mul_one, Int.floor_intCast]

/-- The amount meets the filters. -/
structure Meets (rules : ExchangeRules) (quantity price : ℚ) : Prop where
  lots : WholeLots rules.stepSize quantity
  least : rules.minQuantity ≤ quantity
  most : 0 < rules.maxQuantity → quantity ≤ rules.maxQuantity
  notional : rules.minNotional ≤ quantity * price

theorem meets_iff {rules : ExchangeRules} {quantity price : ℚ} : rules.Meets quantity price ↔
    WholeLots rules.stepSize quantity ∧ rules.minQuantity ≤ quantity ∧
      (0 < rules.maxQuantity → quantity ≤ rules.maxQuantity) ∧ rules.minNotional ≤ quantity * price :=
  ⟨fun h => ⟨h.lots, h.least, h.most, h.notional⟩, fun h => ⟨h.1, h.2.1, h.2.2.1, h.2.2.2⟩⟩

instance (rules : ExchangeRules) (quantity price : ℚ) : Decidable (rules.Meets quantity price) :=
  decidable_of_iff _ meets_iff.symm

/-- The quantity is a fixed point of `normalize_quantity`, and
`validate_notional` accepts it at the price. -/
def Passes (rules : ExchangeRules) (quantity price : ℚ) : Prop :=
  rules.normalizeQuantity quantity = .ok quantity ∧ rules.validateNotional quantity price = .ok ()

theorem normalizeQuantity_eq_self_iff {rules : ExchangeRules} (h : 0 < rules.stepSize) (quantity : ℚ) :
    rules.normalizeQuantity quantity = .ok quantity ↔ WholeLots rules.stepSize quantity ∧
      rules.minQuantity ≤ quantity ∧ (0 < rules.maxQuantity → quantity ≤ rules.maxQuantity) := by
  unfold normalizeQuantity
  rw [if_neg (not_le.mpr h), ← floor_lots_eq_iff h]
  simp only
  constructor
  · intro hn
    split at hn
    · cases hn
    · next hmin =>
      split at hn
      · cases hn
      · next hmax =>
        have hq := Except.ok.inj hn
        rw [hq] at hmin hmax
        exact ⟨hq, not_lt.mp hmin, fun h0 => not_lt.mp (not_and.mp hmax h0)⟩
  · rintro ⟨hq, hmin, hmax⟩
    rw [hq, if_neg (not_lt.mpr hmin), if_neg (not_and.mpr fun h0 => not_lt.mpr (hmax h0))]

/-- **The quantities that pass.** -/
theorem passes_iff {rules : ExchangeRules} (h : 0 < rules.stepSize) (quantity price : ℚ) :
    rules.Passes quantity price ↔ rules.Meets quantity price := by
  unfold Passes
  rw [normalizeQuantity_eq_self_iff h, meets_iff, and_assoc, and_assoc]
  refine and_congr_right' (and_congr_right' (and_congr_right' ?_))
  unfold validateNotional
  by_cases hn : quantity * price < rules.minNotional
  · rw [if_pos hn]
    exact iff_of_false (fun h0 => nomatch h0) (not_le.mpr hn)
  · rw [if_neg hn]
    exact iff_of_true rfl (not_lt.mp hn)

end ExchangeRules

end Sentum.Execution
