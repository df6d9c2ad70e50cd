import Mathlib.Algebra.Order.Field.Rat
import Mathlib.Data.List.AList
import Sentum.Nlohmann.Json
import Sentum.Time.Clock

/-!
# Portfolio approval

`approve` looks at a proposed position together with the open ones: drawdown,
losses in a row, trades in the last hour and three exposures, each relative to
the equity.  The multiplier it returns is for the caller to apply.
-/

namespace Sentum.Risk

open Sentum

structure PortfolioRiskConfig where
  maxGrossExposure : ℚ := 1
  maxAssetExposure : ℚ := 35 / 100
  maxCorrelatedExposure : ℚ := 60 / 100
  maxDailyDrawdown : ℚ := 5 / 100
  maxConsecutiveLosses : Nat := 5
  maxTradesPerHour : Nat := 20
  targetVolatility : ℚ := 2 / 100
  minimumSizeMultiplier : ℚ := 20 / 100
  maximumSizeMultiplier : ℚ := 150 / 100
  correlationThreshold : ℚ := 75 / 100
deriving DecidableEq

structure PortfolioPosition where
  symbol : String
  notional : ℚ := 0

/-- `std::unordered_map<std::string, double>` -/
abbrev SymbolMap := AList (fun _ : String => ℚ)

abbrev CorrelationMap := AList (fun _ : String => SymbolMap)

structure PortfolioRiskSnapshot where
  equity : ℚ := 0
  dayStartEquity : ℚ := 0
  positions : List PortfolioPosition := []
  annualizedVolatility : SymbolMap := ∅
  correlations : CorrelationMap := ∅
  consecutiveLosses : Nat := 0
  tradeTimes : List TimePoint := []

structure PortfolioDecision where
  approved : Bool := false
  sizeMultiplier : ℚ := 0
  reason : String := ""
deriving DecidableEq

/-- Open positions relative to the equity: all, those of a symbol, and those
of the symbols it is correlated with. -/
structure Exposure where
  gross : ℚ := 0
  sameAsset : ℚ := 0
  correlated : ℚ := 0

namespace PortfolioRiskManager

/-- `std::chrono::hours(1)` -/
def hour : Int := seconds 3600

/-- The correlation of the two symbols is known and at least the threshold. -/
def correlatedWith (config : PortfolioRiskConfig) (correlations : CorrelationMap) (symbol other : String) : Bool :=
  match correlations.lookup symbol with
  | none => false
  | some row =>
    match row.lookup other with
    | none => false
    | some corr => decide (config.correlationThreshold ≤ |corr|)

/-- One more position. -/
def addPosition (config : PortfolioRiskConfig) (snapshot : PortfolioRiskSnapshot) (symbol : String) (e : Exposure)
    (position : PortfolioPosition) : Exposure :=
  let normalized := |position.notional| / snapshot.equity
  { gross := e.gross + normalized
    sameAsset := if position.symbol = symbol then e.sameAsset + normalized else e.sameAsset
    correlated :=
      if correlatedWith config snapshot.correlations symbol position.symbol then e.correlated + normalized
      else e.correlated }

def exposure (config : PortfolioRiskConfig) (snapshot : PortfolioRiskSnapshot) (symbol : String) : Exposure :=
  snapshot.positions.foldl (addPosition config snapshot symbol) {}

/-- The exposure limit that a further position breaks, if any. -/
def limitExceeded (config : PortfolioRiskConfig) (e : Exposure) (fraction : ℚ) : Option String :=
  if config.maxGrossExposure < e.gross + fraction then some "gross exposure limit exceeded"
  else if config.maxAssetExposure < e.sameAsset + fraction then some "asset exposure limit exceeded"
  else if config.maxCorrelatedExposure < e.correlated + fraction then some "correlated exposure limit exceeded"
  else none

/-- `std::clamp` -/
def clamp (x lo hi : ℚ) : ℚ := if x < lo then lo else if hi < x then hi else x

/-- `target_volatility / volatility` where both are known, clamped. -/
def sizeMultiplier (config : PortfolioRiskConfig) (volatility : Option ℚ) : ℚ :=
  let multiplier :=
    match volatility with
    | none => 1
    | some vol => if 0 < vol ∧ 0 < config.targetVolatility then config.targetVolatility / vol else 1
  clamp multiplier config.minimumSizeMultiplier config.maximumSizeMultiplier

def tradesLastHour (snapshot : PortfolioRiskSnapshot) (now : TimePoint) : Nat :=
  (snapshot.tradeTimes.filter fun time => decide (now - hour ≤ time)).length

def refuse (reason : String) : PortfolioDecision := { reason }

def approve (config : PortfolioRiskConfig) (symbol : String) (proposedNotional : ℚ)
    (snapshot : PortfolioRiskSnapshot) (now : TimePoint) : PortfolioDecision :=
  if ¬ 0 < snapshot.equity ∨ ¬ 0 < proposedNotional then
    refuse "invalid portfolio equity or proposed notional"
  else if 0 < snapshot.dayStartEquity ∧ config.maxDailyDrawdown ≤
      max 0 ((snapshot.dayStartEquity - snapshot.equity) / snapshot.dayStartEquity) then
    refuse "daily drawdown limit reached"
  else if config.maxConsecutiveLosses ≤ snapshot.consecutiveLosses then refuse "consecutive loss limit reached"
  else if config.maxTradesPerHour ≤ tradesLastHour snapshot now then refuse "hourly trade-rate limit reached"
  else
    match limitExceeded config (exposure config snapshot symbol) (proposedNotional / snapshot.equity) with
    | some reason => refuse reason
    | none =>
      { approved := true
        sizeMultiplier := sizeMultiplier config (snapshot.annualizedVolatility.lookup symbol)
        reason := "portfolio risk approved" }

/-! ## What an approval says -/

theorem limitExceeded_eq_none {config : PortfolioRiskConfig} {e : Exposure} {fraction : ℚ} :
    limitExceeded config e fraction = none ↔ e.gross + fraction ≤ config.maxGrossExposure ∧
      e.sameAsset + fraction ≤ config.maxAssetExposure ∧
      e.correlated + fraction ≤ config.maxCorrelatedExposure := by
  unfold limitExceeded
  split
  · next h => simp [not_le.mpr h]
  · next h =>
    split
    · next h' => simp [not_le.mpr h']
    · next h' =>
      split
      · next h'' => simp [not_le.mpr h'']
      · next h'' => exact iff_of_true rfl ⟨not_lt.mp h, not_lt.mp h', not_lt.mp h''⟩

theorem clamp_le {x lo hi bound : ℚ} (hlo : lo ≤ bound) (hx : x ≤ bound) : clamp x lo hi ≤ bound := by
  unfold clamp
  split
  · exact hlo
  · split
    · next h => exact h.le.trans hx
    · exact hx

theorem le_clamp {x lo hi : ℚ} (h : lo ≤ hi) : lo ≤ clamp x lo hi := by
  unfold clamp
  split
  · exact le_refl _
  · next hx =>
    split
    · exact h
    · exact not_lt.mp hx

theorem sizeMultiplier_nonneg {config : PortfolioRiskConfig} (hmin : 0 ≤ config.minimumSizeMultiplier)
    (hmax : config.minimumSizeMultiplier ≤ config.maximumSizeMultiplier) (volatility : Option ℚ) :
    0 ≤ sizeMultiplier config volatility := hmin.trans (le_clamp hmax)

/-- Nothing is scaled up unless the volatility is known to be below the target. -/
theorem sizeMultiplier_le_one {config : PortfolioRiskConfig} (hmin : config.minimumSizeMultiplier ≤ 1)
    {volatility : Option ℚ} (h : ∀ vol, volatility = some vol → 0 < vol → config.targetVolatility ≤ vol) :
    sizeMultiplier config volatility ≤ 1 := by
  refine clamp_le hmin ?_
  cases volatility with
  | none => exact le_refl _
  | some vol =>
    simp only
    split
    · next hpos => exact (div_le_one hpos.1).mpr (h vol rfl hpos.1)
    · exact le_refl _

/-- The losses of the day have reached their limit. -/
def DrawdownReached (config : PortfolioRiskConfig) (snapshot : PortfolioRiskSnapshot) : Prop :=
  0 < snapshot.dayStartEquity ∧ config.maxDailyDrawdown ≤
    max 0 ((snapshot.dayStartEquity - snapshot.equity) / snapshot.dayStartEquity)

/-- What `approve` asks of a proposal, gate by gate. -/
structure Passes (config : PortfolioRiskConfig) (symbol : String) (proposed : ℚ)
    (snapshot : PortfolioRiskSnapshot) (now : TimePoint) : Prop where
  equity : 0 < snapshot.equity
  positive : 0 < proposed
  drawdown : ¬ DrawdownReached config snapshot
  losses : snapshot.consecutiveLosses < config.maxConsecutiveLosses
  rate : tradesLastHour snapshot now < config.maxTradesPerHour
  limits : limitExceeded config (exposure config snapshot symbol) (proposed / snapshot.equity) = none

theorem approve_of_passes {config : PortfolioRiskConfig} {symbol : String} {proposed : ℚ}
    {snapshot : PortfolioRiskSnapshot} {now : TimePoint} (h : Passes config symbol proposed snapshot now) :
    approve config symbol proposed snapshot now =
      { approved := true
        sizeMultiplier := sizeMultiplier config (snapshot.annualizedVolatility.lookup symbol)
        reason := "portfolio risk approved" } := by
  have hvalid : ¬ (¬ 0 < snapshot.equity ∨ ¬ 0 < proposed) := by
    rintro (he | hp)
    · exact he h.equity
    · exact hp h.positive
  have hdrawdown := h.drawdown
  unfold DrawdownReached at hdrawdown
  unfold approve
  rw [if_neg hvalid, if_neg hdrawdown, if_neg (not_le.mpr h.losses), if_neg (not_le.mpr h.rate), h.limits]

/-- **An approved proposal** has passed every gate. -/
theorem approve_approved_iff {config : PortfolioRiskConfig} {symbol : String} {proposed : ℚ}
    {snapshot : PortfolioRiskSnapshot} {now : TimePoint} :
    (approve config symbol proposed snapshot now).approved = true ↔
      Passes config symbol proposed snapshot now := by
  refine ⟨fun h => ?_, fun h => by rw [approve_of_passes h]⟩
  unfold approve at h
  split at h
  · cases h
  · next hvalid =>
    simp only [not_or, not_not] at hvalid
    split at h
    · cases h
    · next hdrawdown =>
      split at h
      · cases h
      · next hlosses =>
        split at h
        · cases h
        · next hrate =>
          refine ⟨hvalid.1, hvalid.2, hdrawdown, not_le.mp hlosses, not_le.mp hrate, ?_⟩
          cases hl : limitExceeded config (exposure config snapshot symbol) (proposed / snapshot.equity) with
          | some reason => rw [hl] at h; cases h
          | none => rfl

/-- It is positive, within the limits as proposed, and comes with the
multiplier of its symbol. -/
theorem approve_approved {config : PortfolioRiskConfig} {symbol : String} {proposed : ℚ}
    {snapshot : PortfolioRiskSnapshot} {now : TimePoint}
    (h : (approve config symbol proposed snapshot now).approved = true) :
    0 < snapshot.equity ∧ 0 < proposed ∧
      limitExceeded config (exposure config snapshot symbol) (proposed / snapshot.equity) = none ∧
      (approve config symbol proposed snapshot now).sizeMultiplier =
        sizeMultiplier config (snapshot.annualizedVolatility.lookup symbol) := by
  have hpass := approve_approved_iff.mp h
  refine ⟨hpass.equity, hpass.positive, hpass.limits, ?_⟩
  rw [approve_of_passes hpass]

end PortfolioRiskManager

end Sentum.Risk
