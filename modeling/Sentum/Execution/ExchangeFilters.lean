import Sentum.Execution.ExchangeRules
import Sentum.Execution.TestnetRuns

/-!
# The exchange filters on the way to the exchange

A quantity reaches `place_market_order` as the runtime has sized it: by the
local risk settings on entry, by what is held on exit.  No layer on the way
asks the exchange's own rules, so a placed order passes them exactly when the
local size happens to (`placedPass_iff`); `stricter_meets` says which settings
make it so for every entry.
-/

namespace Sentum.Execution

open Sentum Sentum.Order OrderManager Risk Run
open TestnetStrategyRuntime (clears)
open ExchangeRules (WholeLots)

/-- The size of an entry, in lots of the local settings. -/
def entryLots (config : RiskConfig) (price : ℚ) : ℚ :=
  ⌊config.maxTotalCapital * config.riskPerTrade / (price * config.stopLossPercent) / config.stepSize⌋ *
    config.stepSize

/-- What the local checks establish of an approved entry. -/
structure Approved (config : RiskConfig) (price : ℚ) : Prop where
  quantity : (RiskManager.entrySize config price).quantity = entryLots config price
  least : config.minQuantity ≤ entryLots config price
  most : 0 < config.maxQuantity → entryLots config price ≤ config.maxQuantity
  notional : config.minNotional ≤ entryLots config price * price

theorem approved_of_entrySize {config : RiskConfig} {price : ℚ}
    (h : (RiskManager.entrySize config price).approved = true) : Approved config price := by
  have hall : (RiskManager.entrySize config price).approved = true →
      (RiskManager.entrySize config price).quantity = entryLots config price ∧
        config.minQuantity ≤ entryLots config price ∧
        (0 < config.maxQuantity → entryLots config price ≤ config.maxQuantity) ∧
        config.minNotional ≤ entryLots config price * price := by
    unfold RiskManager.entrySize
    simp only
    rw [← entryLots]
    split
    · intro h0
      cases h0
    · split
      · intro h0
        cases h0
      · next hmin =>
        split
        · intro h0
          cases h0
        · next hmax =>
          split
          · intro h0
            cases h0
          · next hnotional =>
            split
            · intro h0
              cases h0
            · intro _
              exact ⟨rfl, not_lt.mp hmin, fun h0 => not_lt.mp (not_and.mp hmax h0), not_lt.mp hnotional⟩
  obtain ⟨h1, h2, h3, h4⟩ := hall h
  exact ⟨h1, h2, h3, h4⟩

/-- The local filters are at least as strict as the exchange's. -/
structure Stricter (config : RiskConfig) (rules : ExchangeRules) : Prop where
  step : WholeLots rules.stepSize config.stepSize
  least : rules.minQuantity ≤ config.minQuantity
  most : 0 < rules.maxQuantity → 0 < config.maxQuantity ∧ config.maxQuantity ≤ rules.maxQuantity
  notional : rules.minNotional ≤ config.minNotional

/-- **Stricter settings size entries that meet the rules.** -/
theorem stricter_meets {config : RiskConfig} {rules : ExchangeRules} (hstep : 0 < rules.stepSize)
    (h : Stricter config rules) {price : ℚ} (happroved : Approved config price) :
    rules.Meets (entryLots config price) price := by
  refine ⟨?_, h.least.trans happroved.least, ?_, h.notional.trans happroved.notional⟩
  · obtain ⟨k, hk⟩ := (ExchangeRules.wholeLots_iff hstep _).mp h.step
    refine (ExchangeRules.wholeLots_iff hstep _).mpr
      ⟨⌊config.maxTotalCapital * config.riskPerTrade / (price * config.stopLossPercent) / config.stepSize⌋ * k, ?_⟩
    unfold entryLots
    push_cast
    rw [mul_assoc, ← hk]
  · intro hmax
    obtain ⟨hpos, hle⟩ := h.most hmax
    exact (happroved.most hpos).trans hle

def SubmitStage.placing : SubmitStage → Bool
  | .place | .settle _ _ => true
  | _ => false

namespace TestnetSystem

/-- The local size of the order that is submitted. -/
def localSize (s : TestnetSystem) (c : SubmitCall) : ℚ :=
  match c.request.side with
  | .buy => entryLots s.runtime.risk c.price
  | .sell => s.runtime.confirmedQuantity

/-- What is passed to `place_market_order` passes the rules, at the price of its decision. -/
def PlacedPass (rules : ExchangeRules) (s : TestnetSystem) : Prop :=
  ∀ c, s.call = some c → c.stage.placing = true → rules.Passes c.request.quantity c.price

/-- The local size of an order that goes on to its placement meets the filters. -/
def SizeMeets (rules : ExchangeRules) (s : TestnetSystem) : TestnetAction → Prop
  | .publish => ∀ c now, s.call = some c → c.stage = .publish now → rules.Meets (s.localSize c) c.price
  | _ => True

instance (rules : ExchangeRules) (quantity price : ℚ) : Decidable (rules.Passes quantity price) :=
  inferInstanceAs (Decidable (_ ∧ _))

instance (rules : ExchangeRules) (s : TestnetSystem) : Decidable (s.PlacedPass rules) :=
  decidable_of_iff (∀ c ∈ s.call, c.stage.placing = true → rules.Passes c.request.quantity c.price) Iff.rfl

/-- `SizeMeets` at `publish`. -/
def sizeMeets (rules : ExchangeRules) (s : TestnetSystem) : Bool :=
  match s.call with
  | some ⟨request, price, .publish now⟩ => decide (rules.Meets (s.localSize ⟨request, price, .publish now⟩) price)
  | _ => true

instance (rules : ExchangeRules) (s : TestnetSystem) (a : TestnetAction) : Decidable (s.SizeMeets rules a) :=
  match a with
  | .publish => decidable_of_iff (s.sizeMeets rules = true) (by
      unfold sizeMeets
      simp only [SizeMeets]
      constructor
      · intro h c now hc hstage
        obtain ⟨request, price, stage⟩ := c
        cases hstage
        rw [hc] at h
        simpa using h
      · intro h
        split
        · next request price now hc => exact decide_eq_true (h _ now hc rfl)
        · rfl)
  | .price _ | .submit _ | .place _ _ _ | .settle _ | .execute _ _ _ _ | .finish _ _ _ | .deliver _ | .foreign _
  | .update | .orders _ | .cancelPublish _ | .clearKillSwitch | .ready _ | .stop => isTrue trivial

/-- Orders are submitted in their local size, and those placed pass. -/
structure Placing (rules : ExchangeRules) (s : TestnetSystem) : Prop where
  sized : ∀ c, s.call = some c → c.request.quantity = s.localSize c
  pass : PlacedPass rules s

section
variable {rules : ExchangeRules} {s s' : TestnetSystem}

theorem Placing.idle (hcall : s.call = none) : Placing rules s := by
  refine ⟨fun c hc => ?_, fun c hc => ?_⟩ <;> rw [hcall] at hc <;> cases hc

theorem localSize_eq (hrisk : s'.runtime.risk = s.runtime.risk)
    (hheld : s'.runtime.confirmedQuantity = s.runtime.confirmedQuantity) (c : SubmitCall) :
    s'.localSize c = s.localSize c := by
  unfold localSize
  rw [hrisk, hheld]

/-- `submit` is where it was. -/
theorem Placing.of_eq (h : Placing rules s) (hcall : s'.call = s.call) {running : Bool}
    (hruntime : s'.runtime = { s.runtime with running }) : Placing rules s' := by
  refine ⟨fun c hc => ?_, fun c hc => h.pass c (hcall ▸ hc)⟩
  have hsize : s'.localSize c = s.localSize c := localSize_eq (by rw [hruntime]) (by rw [hruntime]) c
  rw [hsize]
  exact h.sized c (hcall ▸ hc)

theorem Placing.background (h : Placing rules s) (ht : Truthful s) {a : TestnetAction}
    (ha : background a = true) : Placing rules (s.step a) := by
  rcases step_background ht ha with ⟨i, o, e, -, hs⟩ | ⟨-, hcall, running, hruntime⟩
  · rw [hs]
    exact h.of_eq rfl rfl
  · exact h.of_eq hcall hruntime

/-- `submit` goes on to another stage. -/
theorem Placing.advance (h : Placing rules s) {c : SubmitCall} {stage : SubmitStage}
    (hc : s.call = some c) (hc' : s'.call = some { c with stage }) (hruntime : s'.runtime = s.runtime)
    (hpass : stage.placing = true → rules.Passes c.request.quantity c.price) : Placing rules s' := by
  refine ⟨fun c₁ hc₁ => ?_, fun c₁ hc₁ hp => ?_⟩ <;> rw [hc'] at hc₁ <;> cases hc₁
  · rw [localSize_eq (congrArg _ hruntime) (congrArg _ hruntime)]
    exact h.sized c hc
  · exact hpass hp

end

/-- A price that submits does so in the local size. -/
theorem sized_localSize {r r' : TestnetStrategyRuntime} {price : ℚ} {request : Request}
    (h : TestnetStrategyRuntime.Submits r r' price request) {s : TestnetSystem} (hs : s.runtime = r')
    {stage : SubmitStage} : request.quantity = s.localSize ⟨request, price, stage⟩ := by
  obtain ⟨strategy, exitReason, hr⟩ := h.only
  unfold localSize
  rw [hs, hr]
  cases h.sized with
  | entry hside happroved hquantity =>
    simp only [hside]
    rw [hquantity, (approved_of_entrySize happroved).quantity]
  | exit hside _ hquantity =>
    simp only [hside]
    exact hquantity

/-- **Step lemma.** -/
theorem Placing.step {rules : ExchangeRules} (hrules : 0 < rules.stepSize) {s : TestnetSystem}
    (h : Placing rules s) (ht : Truthful s) {a : TestnetAction} (hg : s.SizeMeets rules a) :
    Placing rules (s.step a) := by
  cases a with
  | price e =>
    obtain ⟨-, hs⟩ | ⟨hidle, strategy, hs⟩ | ⟨-, request, runtime, hsub, hs⟩ := step_price_cases s e <;> rw [hs]
    · exact h
    · exact .idle hidle
    · refine ⟨fun c hc => ?_, fun c hc hp => ?_⟩ <;> cases hc
      · exact sized_localSize hsub rfl
      · cases hp
  | submit now =>
    simp only [TestnetSystem.step]
    split
    · next request price hc =>
      split
      · exact .idle rfl
      · split
        · exact h.advance hc rfl rfl (fun hp => by cases hp)
        · exact .idle rfl
    · exact h
  | publish =>
    simp only [TestnetSystem.step]
    split
    · next request price now hc =>
      refine h.advance hc rfl (notify_quiet (pending_quiet request now)) (fun _ => ?_)
      rw [h.sized _ hc]
      exact (ExchangeRules.passes_iff hrules _ _).mpr (hg _ now hc rfl)
    · exact h
  | place accepted reply e =>
    simp only [TestnetSystem.step]
    split
    · next request price hc =>
      split
      · exact h
      · cases accepted with
        | false => exact h.advance hc rfl rfl (fun _ => h.pass _ hc rfl)
        | true => exact h.advance hc rfl (enter_runtime s request e) (fun _ => h.pass _ hc rfl)
    · exact h
  | settle now =>
    simp only [TestnetSystem.step]
    split
    · exact .idle rfl
    · exact h
  | update =>
    simp only [TestnetSystem.step]
    split
    · exact h
    · next hcall =>
      split
      · exact h
      · exact .idle (by simpa using hcall)
  | _ => exact h.background ht rfl

/-- An order that goes on to its placement in a size that does not meet the
filters is passed to `place_market_order` in that size. -/
theorem publish_breaks {rules : ExchangeRules} (hrules : 0 < rules.stepSize) {s : TestnetSystem}
    (h : Placing rules s) (hg : ¬ s.SizeMeets rules .publish) : ¬ PlacedPass rules (s.step .publish) := by
  intro hpass
  refine hg fun c now hc hstage => ?_
  obtain ⟨request, price, stage⟩ := c
  cases hstage
  rw [← h.sized _ hc]
  refine (ExchangeRules.passes_iff hrules _ _).mp (hpass ⟨request, price, .place⟩ ?_ rfl)
  simp only [step, hc]

/-- What the exchange publishes for BTCUSDT, with the given step. -/
def btcInfo (stepSize : String) : Json :=
  .object [("symbols", .array [.object [("symbol", .string "BTCUSDT"), ("status", .string "TRADING"),
    ("filters", .array [
      .object [("filterType", .string "LOT_SIZE"), ("minQty", .string "0.00001"), ("maxQty", .string "9000"),
        ("stepSize", .string stepSize)],
      .object [("filterType", .string "NOTIONAL"), ("minNotional", .string "5")]])]])]

def btcRules (stepSize : ℚ) : ExchangeRules :=
  { minQuantity := 1 / 10 ^ 5, maxQuantity := 9000, stepSize, minNotional := 5 }

end TestnetSystem

end Sentum.Execution
