import Sentum.Research.HoldoutIsolation

/-!
# The visualization of the holdout

`build_research_visualization` replays the holdout a second time, with a split,
a warmup and a walk over the trades of its own.  They are those of
`ResearchRunner::run`, so the artifact shows what the summary reports
(`visualization_agrees`).
-/

namespace Sentum.Research

open Sentum Market Strategy Risk Trader Backtest ResearchConfig

/-! ## Algorithm -/

/-- The JSON document; `trades` and `net_profit` are written last. -/
structure Visualization where
  symbol : String
  objective : String
  holdoutEvaluated : Bool
  /-- `ts` and `equity` -/
  equityCurve : List (Int × ℚ) := []
  /-- `ts` and `drawdown` -/
  drawdownCurve : List (Int × ℚ) := []
  trades : Option Nat := none
  netProfit : Option ℚ := none

/-- The walk over the completed trades. -/
structure CurveWalk where
  equity : ℚ := 0
  peak : ℚ := 0
  equityCurve : List (Int × ℚ) := []
  drawdownCurve : List (Int × ℚ) := []

/-- One more trade. -/
def CurveWalk.plot (w : CurveWalk) (trade : TradePosition) : CurveWalk :=
  let equity := w.equity + trade.netProfit
  let peak := max w.peak equity
  let ts := toMilliseconds trade.exitTime
  { equity, peak
    equityCurve := w.equityCurve ++ [(ts, equity)]
    drawdownCurve := w.drawdownCurve ++ [(ts, peak - equity)] }

/-- `begin` -/
def holdoutBegin (config : ResearchConfig) (events : List MarketEvent) : Nat :=
  let holdoutN := max 1 (share (UInt64.ofNat events.length) config.holdoutFraction)
  (UInt64.ofNat events.length - holdoutN).toNat

/-- `systemNow` is what the system clock shows in `approve_entry`; the event at
`begin` is in range for an accepted configuration (`holdoutBegin_lt`). -/
def buildResearchVisualization (config : ResearchConfig) (summary : ResearchSummary) (risk : RiskConfig)
    (events : List MarketEvent) (systemNow : Nat → TimePoint) : Except String Visualization := do
  let out : Visualization :=
    { symbol := summary.symbol, objective := summary.objective, holdoutEvaluated := summary.holdoutEvaluated }
  if !summary.holdoutEvaluated then return out
  else if events = [] then return out
  else
    let first := holdoutBegin config events
    let p := summary.selectedParameters
    let risk := { risk with
      stopLossPercent := p.stopLossPercent, takeProfitPercent := p.takeProfitPercent
      slippagePercent := p.slippagePercent }
    let strategy ← MomentumStrategy.construct p.lookback p.entryThreshold
    let strategy :=
      if 0 < first then
        let n := min first ((p.lookback + 1) % 2 ^ 64)
        (slice events (first - n) first).foldl (fun s e => (s.onPrice e.price e.timestamp).1) strategy
      else strategy
    let engine ← replayOrThrow {} (.init config.symbol false risk (.momentum strategy))
      (timed (events.drop first) systemNow)
    let walk := engine.completed.foldl CurveWalk.plot {}
    return { out with
      equityCurve := (toMilliseconds (events.getD first {}).timestamp, 0) :: walk.equityCurve
      drawdownCurve := walk.drawdownCurve
      trades := some engine.completed.length
      netProfit := some walk.equity }

theorem holdoutBegin_lt {c : ResearchConfig} (hc : Valid c) {events : List MarketEvent}
    (hn : 50 ≤ UInt64.ofNat events.length) : holdoutBegin c events < events.length := by
  have b := splitBounds hc hn
  have hend := b.end_eq
  have hpos := b.holdout_pos
  have hle : (UInt64.ofNat events.length).toNat ≤ events.length := Nat.mod_le _ _
  show (c.researchEnd (UInt64.ofNat events.length)).toNat < events.length
  omega

/-- The greatest drawdown shown, 0 for an empty curve. -/
def Visualization.maxDrawdown (v : Visualization) : ℚ := ((v.drawdownCurve.map Prod.snd).max?).getD 0

/-! ## The walk and the tally -/

/-- **Invariant**: the walk and the loop of the metrics have seen the same trades. -/
structure Walked (w : CurveWalk) (t : Tally) : Prop where
  equity : w.equity = t.equity
  peak : w.peak = t.peak
  nonneg : ∀ d ∈ w.drawdownCurve.map Prod.snd, 0 ≤ d
  drawdown : t.maxDrawdown = (w.drawdownCurve.map Prod.snd).foldl max 0

theorem Walked.plot {w : CurveWalk} {t : Tally} (h : Walked w t) (trade : TradePosition) :
    Walked (w.plot trade) (t.add trade) where
  equity := congrArg (· + trade.netProfit) h.equity
  peak := by
    show max w.peak (w.equity + trade.netProfit) = max t.peak (t.equity + trade.netProfit)
    rw [h.peak, h.equity]
  nonneg := by
    intro d hd
    have hd' : d ∈ (w.drawdownCurve ++
        [(toMilliseconds trade.exitTime, max w.peak (w.equity + trade.netProfit) - (w.equity + trade.netProfit))]).map
          Prod.snd := hd
    rw [List.map_append, List.mem_append] at hd'
    rcases hd' with hd' | hd'
    · exact h.nonneg d hd'
    · rw [List.map_singleton, List.mem_singleton] at hd'
      rw [hd']
      exact sub_nonneg.mpr (le_max_right _ _)
  drawdown := by
    show max t.maxDrawdown (max t.peak (t.equity + trade.netProfit) - (t.equity + trade.netProfit)) =
      ((w.drawdownCurve ++
        [(toMilliseconds trade.exitTime, max w.peak (w.equity + trade.netProfit) - (w.equity + trade.netProfit))]).map
          Prod.snd).foldl max 0
    rw [List.map_append, List.foldl_append, ← h.drawdown, h.peak, h.equity]
    rfl

theorem walked_foldl {w : CurveWalk} {t : Tally} (h : Walked w t) (trades : List TradePosition) :
    Walked (trades.foldl CurveWalk.plot w) (trades.foldl Tally.add t) := by
  induction trades generalizing w t with
  | nil => exact h
  | cons trade trades ih => exact ih (h.plot trade)

theorem walked_of (trades : List TradePosition) : Walked (trades.foldl CurveWalk.plot {}) (Tally.of trades) :=
  walked_foldl ⟨rfl, rfl, fun _ hd => absurd hd List.not_mem_nil, rfl⟩ trades

/-- A maximum with 0 is the maximum of what is not negative. -/
theorem foldl_max_zero {xs : List ℚ} (h : ∀ x ∈ xs, 0 ≤ x) : xs.foldl max 0 = xs.max?.getD 0 := by
  cases xs with
  | nil => rfl
  | cons x xs =>
    rw [List.max?_cons', Option.getD_some, List.foldl_cons, max_eq_right (h x List.mem_cons_self)]

/-! ## Both replays -/

section

variable {s : Surroundings} {input : ResearchConfig} {risk : RiskConfig} {events : List MarketEvent}
  {out : ResearchSummary}

/-- What a slice to the end of the dataset has replayed. -/
theorem runSlice_toEnd {fn : Cmath} {first : Nat} {p : ParameterSet} {symbol : String}
    {systemNow : Nat → TimePoint} {result : SliceResult} (hfirst : first < events.length)
    (h : runSlice fn events first events.length p risk symbol true systemNow = .ok result) :
    MomentumStrategy.construct p.lookback p.entryThreshold = .ok (.init p.lookback p.entryThreshold) ∧
      ∃ engine,
        replayOrThrow {} (.init symbol false (applyTrialRisk risk p) (.momentum (warmedUp events first p true)))
          (timed (events.drop first) systemNow) = .ok engine ∧
        result.metrics = MetricsCalculator.calculate fn engine.completed := by
  unfold runSlice at h
  rw [if_neg (by omega), slice, List.take_length] at h
  split at h
  · cases h
  · next strategy hconstruct =>
    obtain ⟨hsize, -⟩ := MomentumStrategy.construct_eq_ok.mp hconstruct
    refine ⟨MomentumStrategy.construct_eq_ok.mpr ⟨hsize, rfl⟩, ?_⟩
    dsimp only at h
    split at h
    · cases h
    · next engine hreplay =>
      cases h
      exact ⟨engine, hreplay, rfl⟩

/-- The warmup is that of `run_slice`. -/
theorem warmedUp_true (first : Nat) (p : ParameterSet) :
    warmedUp events first p true =
      if 0 < first then
        (slice events (first - min first ((p.lookback + 1) % 2 ^ 64)) first).foldl
          (fun s e => (s.onPrice e.price e.timestamp).1) (.init p.lookback p.entryThreshold)
      else .init p.lookback p.entryThreshold := by
  unfold warmedUp
  simp only [Bool.true_and, decide_eq_true_eq]

/-- **The visualization shows the evaluated holdout.** -/
theorem visualization_agrees (hc : Valid input) (h : run s input risk events = .ok out)
    (hev : out.holdoutEvaluated = true) :
    ∃ v, buildResearchVisualization input out risk events (s.systemNow .holdout) = .ok v ∧
      v.trades = some out.finalHoldout.trades ∧ v.netProfit = some out.finalHoldout.netProfit ∧
      v.maxDrawdown = out.finalHoldout.maxDrawdown := by
  obtain ⟨r, hsearch, -⟩ := run_found h
  obtain ⟨trialCount, results, hend⟩ := search_eq_ok hsearch
  obtain ⟨slice, hslice, hfinal⟩ := finalHoldout_setup h hev
  have hfirst := holdoutBegin_lt hc hend.large
  have hne : events ≠ [] := List.ne_nil_of_length_pos (Nat.zero_lt_of_lt hfirst)
  obtain ⟨hconstruct, engine, hreplay, hmetrics⟩ := runSlice_toEnd hfirst hslice
  have hwalk := walked_of engine.completed
  rw [warmedUp_true] at hreplay
  unfold applyTrialRisk at hreplay
  unfold buildResearchVisualization
  rw [if_neg (by rw [hev]; simp), if_neg hne]
  dsimp only [bind, Except.bind]
  rw [hconstruct]
  dsimp only
  rw [hreplay]
  refine ⟨_, rfl, ?_, ?_, ?_⟩
  · rw [hfinal, hmetrics, MetricsCalculator.calculate_trades]
  · rw [hfinal, hmetrics, MetricsCalculator.calculate_netProfit, ← Tally.of_equity, ← hwalk.equity]
  · rw [hfinal, hmetrics, MetricsCalculator.calculate_maxDrawdown, hwalk.drawdown, foldl_max_zero hwalk.nonneg]
    rfl

end

/-- Fifty events, three prices in turn. -/
def waves : List MarketEvent :=
  (List.range 50).map fun (k : Nat) => btcEvent (1000 * k) (100 + 10 * ((k % 3 : Nat) : ℚ))

/-- One trial, which is eligible without a window. -/
def oneTrial : ResearchConfig :=
  { exampleResearch with
    lookbacks := [2], entryThresholds := [1 / 1000], stopLosses := [], takeProfits := [], slippages := []
    minValidationTrades := 0, purgeEvents := 100, embargoEvents := 100 }

theorem oneTrial_valid : Valid oneTrial where
  train := by decide +kernel
  holdout := by decide +kernel
  folds := by decide
  leaderboard := by decide

theorem visualization_agrees_waves : ∃ out v, run probe oneTrial shippedRisk waves = .ok out ∧
    buildResearchVisualization oneTrial out shippedRisk waves (probe.systemNow .holdout) = .ok v ∧
      v.trades = some out.finalHoldout.trades := by
  have hevaluated : (run probe oneTrial shippedRisk waves).toOption.any (fun out => out.holdoutEvaluated) = true := by
    decide +kernel
  cases h : run probe oneTrial shippedRisk waves with
  | error failure =>
    rw [h] at hevaluated
    cases hevaluated
  | ok out =>
    rw [h] at hevaluated
    obtain ⟨v, hv, htrades, -⟩ := visualization_agrees oneTrial_valid h hevaluated
    exact ⟨out, v, rfl, hv, htrades⟩

end Sentum.Research
