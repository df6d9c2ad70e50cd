import Mathlib.Algebra.BigOperators.Ring.List
import Mathlib.Tactic.Linarith
import Mathlib.Tactic.Ring
import Sentum.Lib.Run
import Sentum.Research.PortfolioResearch

/-!
# Exposure of the positions taken

`approve` checks the proposed size, and `run` opens the position at that size
times the multiplier.  `capsHold_iff` says when the limits hold of what has
been opened: when no symbol is scaled up, or the limits leave room for it.
-/

namespace Sentum.Research

open Sentum Market Strategy Risk Trader Backtest PortfolioRiskManager Run

/-! ## Exposures as sums -/

/-- Absolute notionals, relative to the equity. -/
def relativeNotional (equity : ℚ) (ps : List PortfolioPosition) : ℚ :=
  (ps.map fun p => |p.notional| / equity).sum

theorem relativeNotional_cons (equity : ℚ) (p : PortfolioPosition) (ps : List PortfolioPosition) :
    relativeNotional equity (p :: ps) = |p.notional| / equity + relativeNotional equity ps := by
  simp [relativeNotional]

theorem relativeNotional_filter_cons (equity : ℚ) (q : PortfolioPosition → Bool) (p : PortfolioPosition)
    (ps : List PortfolioPosition) :
    relativeNotional equity ((p :: ps).filter q) =
      (if q p = true then |p.notional| / equity else 0) + relativeNotional equity (ps.filter q) := by
  rw [List.filter_cons]
  split
  · rw [relativeNotional_cons]
  · rw [zero_add]

theorem exposure_eq (config : PortfolioRiskConfig) (snapshot : PortfolioRiskSnapshot) (symbol : String) :
    exposure config snapshot symbol =
      { gross := relativeNotional snapshot.equity snapshot.positions
        sameAsset := relativeNotional snapshot.equity
          (snapshot.positions.filter fun p => decide (p.symbol = symbol))
        correlated := relativeNotional snapshot.equity
          (snapshot.positions.filter fun p => correlatedWith config snapshot.correlations symbol p.symbol) } := by
  have hfold : ∀ (ps : List PortfolioPosition) (e : Exposure),
      ps.foldl (addPosition config snapshot symbol) e =
        { gross := e.gross + relativeNotional snapshot.equity ps
          sameAsset := e.sameAsset +
            relativeNotional snapshot.equity (ps.filter fun p => decide (p.symbol = symbol))
          correlated := e.correlated + relativeNotional snapshot.equity
            (ps.filter fun p => correlatedWith config snapshot.correlations symbol p.symbol) } := by
    intro ps
    induction ps with
    | nil => intro e; simp [relativeNotional]
    | cons p ps ih =>
      intro e
      rw [List.foldl_cons, ih, relativeNotional_cons, relativeNotional_filter_cons, relativeNotional_filter_cons]
      simp only [addPosition, decide_eq_true_eq, Exposure.mk.injEq]
      refine ⟨by rw [add_assoc], ?_, ?_⟩
      · split <;> ring
      · split <;> ring
  have h0 := hfold snapshot.positions {}
  simp only [zero_add] at h0
  exact h0

namespace PortfolioLoop

/-! ## The limits after an acceptance -/

variable (terms : PortfolioTerms)

/-- Of positions, relative to an equity. -/
def takenNotional (equity : ℚ) (ts : List TradePosition) : ℚ := (ts.map fun t => |notional t|).sum / equity

/-- The open positions keep the limits, as seen from the one opened last. -/
structure CapsHold (s : PortfolioLoop) (others : List TradePosition) (last : TradePosition) : Prop where
  opened : s.openTrades = others ++ [last]
  gross : takenNotional s.equity s.openTrades ≤ terms.risk.maxGrossExposure
  asset : takenNotional s.equity (s.openTrades.filter fun t => decide (t.symbol = last.symbol)) ≤
    terms.risk.maxAssetExposure
  correlated : takenNotional s.equity
      ((others.filter fun t => correlatedWith terms.risk terms.correlations last.symbol t.symbol) ++ [last]) ≤
    terms.risk.maxCorrelatedExposure

/-- If the candidate is accepted, the limits hold right after. -/
def CapsAfter (s : PortfolioLoop) (trade : TradePosition) : Prop :=
  (s.decision terms trade).approved = true →
    CapsHold terms (s.step terms trade) (s.before trade).openTrades (s.sized terms trade)

/-- The symbol is traded above its proposed size. -/
def ScaledUp (symbol : String) : Prop :=
  ∃ vol, terms.volatility.lookup symbol = some vol ∧ 0 < vol ∧ vol < terms.risk.targetVolatility

/-- If an accepted candidate is scaled up, the limits have room for that. -/
def FitsScaled (s : PortfolioLoop) (trade : TradePosition) : Prop :=
  (s.decision terms trade).approved = true → ScaledUp terms trade.symbol →
    limitExceeded terms.risk (exposure terms.risk (snapshot terms (s.before trade)) trade.symbol)
      (sizeMultiplier terms.risk (terms.volatility.lookup trade.symbol) * notional trade /
        (s.before trade).equity) = none

/-! ## One acceptance -/

theorem takenNotional_append (equity : ℚ) (ts : List TradePosition) (t : TradePosition) :
    takenNotional equity (ts ++ [t]) = takenNotional equity ts + |notional t| / equity := by
  simp [takenNotional, add_div]

/-- The risk manager's sums are those over the open trades. -/
theorem relativeNotional_filter (equity : ℚ) (q : String → Bool) (ts : List TradePosition) :
    relativeNotional equity ((ts.map fun p => ({ symbol := p.symbol, notional := notional p } :
      PortfolioPosition)).filter fun p => q p.symbol) = takenNotional equity (ts.filter fun t => q t.symbol) := by
  rw [List.filter_map, relativeNotional, takenNotional, List.map_map]
  simp only [div_eq_mul_inv, Function.comp_def, List.sum_map_mul_right]

theorem relativeNotional_map (equity : ℚ) (ts : List TradePosition) :
    relativeNotional equity (ts.map fun p => { symbol := p.symbol, notional := notional p }) =
      takenNotional equity ts := by
  have h := relativeNotional_filter equity (fun _ => true) ts
  rwa [List.filter_true, List.filter_true] at h

theorem notional_scaleTrade (t : TradePosition) (multiplier : ℚ) :
    notional (scaleTrade t multiplier) = multiplier * notional t := by
  simp only [notional, scaleTrade]
  ring

section
variable {terms : PortfolioTerms} {s : PortfolioLoop} {trade : TradePosition}

/-- The limits with one more position, as sums over the open trades. -/
theorem limitExceeded_snapshot (fraction : ℚ) :
    limitExceeded terms.risk (exposure terms.risk (snapshot terms s) trade.symbol) fraction = none ↔
      takenNotional s.equity s.openTrades + fraction ≤ terms.risk.maxGrossExposure ∧
      takenNotional s.equity (s.openTrades.filter fun t => decide (t.symbol = trade.symbol)) + fraction ≤
        terms.risk.maxAssetExposure ∧
      takenNotional s.equity (s.openTrades.filter fun t =>
        correlatedWith terms.risk terms.correlations trade.symbol t.symbol) + fraction ≤
        terms.risk.maxCorrelatedExposure := by
  rw [limitExceeded_eq_none, exposure_eq]
  simp only [snapshot]
  rw [relativeNotional_map, relativeNotional_filter s.equity fun symbol => decide (symbol = trade.symbol),
    relativeNotional_filter s.equity fun symbol => correlatedWith terms.risk terms.correlations trade.symbol symbol]

/-- After an acceptance the limits hold when they hold at the final size. -/
theorem capsAfter_iff (hmin : 0 ≤ terms.risk.minimumSizeMultiplier)
    (hmax : terms.risk.minimumSizeMultiplier ≤ terms.risk.maximumSizeMultiplier) :
    CapsAfter terms s trade ↔ ((s.decision terms trade).approved = true →
      limitExceeded terms.risk (exposure terms.risk (snapshot terms (s.before trade)) trade.symbol)
        (sizeMultiplier terms.risk (terms.volatility.lookup trade.symbol) * notional trade /
          (s.before trade).equity) = none) := by
  refine forall_congr' fun ha => ?_
  obtain ⟨hequity, hproposed, -, hmult⟩ := approve_approved ha
  have hstep : (s.step terms trade).openTrades = (s.before trade).openTrades ++ [s.sized terms trade] ∧
      (s.step terms trade).equity = (s.before trade).equity := by
    simp [step, ha]
  have hsized : |notional (s.sized terms trade)| =
      sizeMultiplier terms.risk (terms.volatility.lookup trade.symbol) * notional trade := by
    have hpos := sizeMultiplier_nonneg hmin hmax (terms.volatility.lookup trade.symbol)
    rw [sized, notional_scaleTrade]
    rw [show (s.decision terms trade).sizeMultiplier = _ from hmult]
    exact abs_of_nonneg (mul_nonneg hpos hproposed.le)
  have hsymbol : (s.sized terms trade).symbol = trade.symbol := rfl
  have hfilter : ((s.before trade).openTrades ++ [s.sized terms trade]).filter (fun t =>
        decide (t.symbol = (s.sized terms trade).symbol)) =
      (s.before trade).openTrades.filter (fun t => decide (t.symbol = trade.symbol)) ++ [s.sized terms trade] := by
    simp [hsymbol]
  rw [limitExceeded_snapshot]
  constructor
  · rintro ⟨-, hgross, hasset, hcorr⟩
    rw [hstep.1, hstep.2] at hgross hasset
    rw [hstep.2] at hcorr
    rw [hfilter] at hasset
    rw [takenNotional_append, hsized] at hgross hasset hcorr
    exact ⟨hgross, hasset, hcorr⟩
  · rintro ⟨hgross, hasset, hcorr⟩
    refine ⟨hstep.1, ?_, ?_, ?_⟩
    · rw [hstep.1, hstep.2, takenNotional_append, hsized]
      exact hgross
    · rw [hstep.1, hstep.2, hfilter, takenNotional_append, hsized]
      exact hasset
    · rw [hstep.2, takenNotional_append, hsized]
      exact hcorr

/-- The limits hold after an acceptance exactly when there is room for what is
scaled up. -/
theorem capsAfter_iff_fitsScaled (hmin : 0 ≤ terms.risk.minimumSizeMultiplier)
    (hone : terms.risk.minimumSizeMultiplier ≤ 1)
    (hmax : terms.risk.minimumSizeMultiplier ≤ terms.risk.maximumSizeMultiplier) :
    CapsAfter terms s trade ↔ FitsScaled terms s trade := by
  rw [capsAfter_iff hmin hmax]
  refine forall_congr' fun ha => ⟨fun h _ => h, fun h => ?_⟩
  by_cases hup : ScaledUp terms trade.symbol
  · exact h hup
  · obtain ⟨hequity, hproposed, hlimits, -⟩ := approve_approved ha
    have hle : sizeMultiplier terms.risk (terms.volatility.lookup trade.symbol) ≤ 1 := by
      refine sizeMultiplier_le_one hone fun vol hvol hpos => ?_
      by_contra hlt
      exact hup ⟨vol, hvol, hpos, not_le.mp hlt⟩
    have hfraction : sizeMultiplier terms.risk (terms.volatility.lookup trade.symbol) * notional trade /
        (s.before trade).equity ≤ notional trade / (s.before trade).equity :=
      div_le_div_of_nonneg_right (mul_le_of_le_one_left hproposed.le hle) hequity.le
    rw [limitExceeded_snapshot]
    obtain ⟨h1, h2, h3⟩ := (limitExceeded_snapshot _).mp hlimits
    simp only [snapshot] at h1 h2 h3
    exact ⟨by linarith, by linarith, by linarith⟩

end

end PortfolioLoop

open PortfolioLoop

/-! ## All acceptances of a run -/

theorem loadPortfolioRisk_multiplier {r : Json} {config : PortfolioRiskConfig} (h : loadPortfolioRisk r = .ok config) :
    config.minimumSizeMultiplier = 20 / 100 ∧ config.maximumSizeMultiplier = 150 / 100 := by
  unfold loadPortfolioRisk at h
  iterate 8 obtain ⟨_, -, h⟩ := bind_eq_ok h
  cases h
  exact ⟨rfl, rfl⟩

/-- The bounds of the multiplier are not configurable. -/
theorem loadPortfolioResearchConfig_multiplier {json : Json} {config : PortfolioResearchConfig}
    (h : loadPortfolioResearchConfig json = .ok config) :
    config.portfolioRisk.minimumSizeMultiplier = 20 / 100 ∧
      config.portfolioRisk.maximumSizeMultiplier = 150 / 100 := by
  unfold loadPortfolioResearchConfig at h
  iterate 2 obtain ⟨_, -, h⟩ := bind_eq_ok h
  split at h
  · cases h
  · split at h
    · obtain ⟨_, -, h⟩ := bind_eq_ok h
      obtain ⟨portfolioRisk, hrisk, h⟩ := bind_eq_ok h
      cases h
      unfold portfolioRiskOf at hrisk
      split at hrisk
      · cases hrisk
        exact ⟨rfl, rfl⟩
      · exact loadPortfolioRisk_multiplier hrisk
    · cases h

/-- **Exposure limits of what is taken.**  They hold right after every
acceptance of a run exactly when, at every acceptance, the symbol is not
scaled up or the open positions leave room for the scaled size. -/
theorem capsHold_iff {json : Json} {config : PortfolioResearchConfig}
    (h : loadPortfolioResearchConfig json = .ok config) (correlations : CorrelationMap) (volatility : SymbolMap)
    (trades : List TradePosition) :
    Guarded (PortfolioLoop.step (config.terms correlations volatility))
        (CapsAfter (config.terms correlations volatility)) config.start trades ↔
      Guarded (PortfolioLoop.step (config.terms correlations volatility))
        (FitsScaled (config.terms correlations volatility)) config.start trades := by
  obtain ⟨hmin, hmax⟩ := loadPortfolioResearchConfig_multiplier h
  refine guarded_congr fun s trade => capsAfter_iff_fitsScaled ?_ ?_ ?_
  · rw [show (config.terms correlations volatility).risk.minimumSizeMultiplier = _ from hmin]
    norm_num
  · rw [show (config.terms correlations volatility).risk.minimumSizeMultiplier = _ from hmin]
    norm_num
  · rw [show (config.terms correlations volatility).risk.minimumSizeMultiplier = _ from hmin,
      show (config.terms correlations volatility).risk.maximumSizeMultiplier = _ from hmax]
    norm_num

/-! ## A position scaled past its limit -/

/-- 30% of the equity, where 35% is allowed. -/
def btcCandidate : TradePosition :=
  { symbol := "BTCUSDT", entryPrice := 100, quantity := 300, entryTime := seconds 1, exitTime := seconds 2 }

/-- The volatility of BTCUSDT is half of a target of 100%. -/
def halfVolatility : SymbolMap := (∅ : SymbolMap).insert "BTCUSDT" (1 / 2)

theorem btcCandidate_not_capped :
    loadPortfolioResearchConfig (examplePortfolioDocument 1) = .ok (examplePortfolio 1) ∧
      ¬ Guarded (PortfolioLoop.step ((examplePortfolio 1).terms ∅ halfVolatility))
        (CapsAfter ((examplePortfolio 1).terms ∅ halfVolatility)) (examplePortfolio 1).start [btcCandidate] := by
  refine ⟨examplePortfolio_loaded 1, fun h => ?_⟩
  have hasset := (h.1 (by decide +kernel)).asset
  exact absurd hasset (by decide +kernel)

/-- With the target of the shipped file nothing is scaled up. -/
theorem btcCandidate_capped :
    Guarded (PortfolioLoop.step ((examplePortfolio (2 / 100)).terms ∅ halfVolatility))
      (CapsAfter ((examplePortfolio (2 / 100)).terms ∅ halfVolatility)) (examplePortfolio (2 / 100)).start
      [btcCandidate] := by
  rw [capsHold_iff (examplePortfolio_loaded (2 / 100))]
  refine ⟨fun _ hup => ?_, trivial⟩
  obtain ⟨vol, hvol, -, hlt⟩ := hup
  have hhalf : halfVolatility.lookup "BTCUSDT" = some (1 / 2) := by decide +kernel
  have heq : vol = 1 / 2 := Option.some.inj (hvol.symm.trans hhalf)
  rw [heq] at hlt
  exact absurd hlt (by decide +kernel)

end Sentum.Research
