import Sentum.Research.HoldoutAnalysis
import Sentum.Research.Windows
import Sentum.Trader.Replay

/-!
# The research runner

`ResearchRunner::run` on a dataset that has been read.  The trials of the grid
are independent of each other, each result goes to the slot of its trial, and
`search` is all that happens before the holdout is looked at.
-/

namespace Sentum.Research

open Sentum Market Strategy Risk Trader Backtest

/-! ## One slice -/

/-- The slices a run replays; trials and folds are counted from 0. -/
inductive SliceKey where
  | training (trial fold : Nat)
  | validation (trial fold : Nat)
  | holdout
deriving DecidableEq

/-- What a run reads besides configuration and dataset. -/
structure Surroundings where
  fn : Cmath
  draws : Draws
  /-- `system_clock::now()` in `approve_entry`, at an event of a slice -/
  systemNow : SliceKey → Nat → TimePoint
  generatedAtMs : Int := 0
  hardwareConcurrency : Nat := 1

structure SliceResult where
  metrics : BacktestMetrics := {}
  trades : List TradePosition := []

def applyTrialRisk (risk : RiskConfig) (p : ParameterSet) : RiskConfig :=
  { risk with
    stopLossPercent := p.stopLossPercent, takeProfitPercent := p.takeProfitPercent
    slippagePercent := p.slippagePercent }

/-- `events[first] … events[last - 1]` -/
def slice (events : List MarketEvent) (first last : Nat) : List MarketEvent := (events.take last).drop first

/-- The strategy after the events right before the slice. -/
def warmedUp (events : List MarketEvent) (first : Nat) (p : ParameterSet) (warmup : Bool) : MomentumStrategy :=
  let strategy := MomentumStrategy.init p.lookback p.entryThreshold
  if warmup && decide (0 < first) then
    let n := min first ((p.lookback + 1) % 2 ^ 64)
    (slice events (first - n) first).foldl (fun s e => (s.onPrice e.price e.timestamp).1) strategy
  else strategy

/-- `advance_to` and `process_event` for every event; an exception ends it. -/
def replayOrThrow : ReplayClock → TradeEngine → List (MarketEvent × TimePoint) → Except String TradeEngine
  | _, e, [] => .ok e
  | clock, e, (event, systemNow) :: rest =>
    match clock.advanceTo event.timestamp with
    | .error what => .error what
    | .ok clock =>
      let processed := e.processEvent { clockNow := clock.now, systemNow } event
      match processed.result with
      | .error what => .error what
      | .ok _ => replayOrThrow clock processed.engine rest

/-- The events of a slice, each with what the system clock shows. -/
def timed (events : List MarketEvent) (systemNow : Nat → TimePoint) : List (MarketEvent × TimePoint) :=
  events.zipIdx.map fun ei => (ei.1, systemNow ei.2)

def runSlice (fn : Cmath) (events : List MarketEvent) (first last : Nat) (p : ParameterSet) (risk : RiskConfig)
    (symbol : String) (warmup : Bool) (systemNow : Nat → TimePoint) : Except String SliceResult :=
  if last ≤ first ∨ events.length < last then .ok {}
  else
    match MomentumStrategy.construct p.lookback p.entryThreshold with
    | .error what => .error what
    | .ok _ =>
      let engine := TradeEngine.init symbol false (applyTrialRisk risk p) (.momentum (warmedUp events first p warmup))
      match replayOrThrow {} engine (timed (slice events first last) systemNow) with
      | .error what => .error what
      | .ok engine => .ok { metrics := MetricsCalculator.calculate fn engine.completed, trades := engine.completed }

/-! ## One trial -/

structure TrialResult where
  trialId : Nat
  parameters : ParameterSet
  train : BacktestMetrics := {}
  validation : BacktestMetrics := {}
  trainScore : ℚ := 0
  validationScore : ℚ := 0
  overfitGap : ℚ := 0
  parameterStabilityScore : ℚ := 0
  deflatedSharpe : ℚ := 0
  eligible : Bool := false
deriving DecidableEq

def score (m : BacktestMetrics) (objective : String) : Except String ℚ :=
  if objective = "sharpe" then .ok m.sharpe
  else if objective = "sortino" then .ok m.sortino
  else if objective = "net_profit" then .ok m.netProfit
  else if objective = "profit_factor" then .ok (m.profitFactor.untopD 1000000)
  else if objective = "expectancy" then .ok m.expectancy
  else if objective = "risk_adjusted_profit" then .ok (m.netProfit / (1 + max 0 m.maxDrawdown))
  else .error ("Unsupported research objective: " ++ objective)

def deflatedSharpe (fn : Cmath) (sharpe : ℚ) (trades trials : Nat) : ℚ :=
  if trades < 2 ∨ trials < 2 then sharpe else sharpe - fn.sqrt (2 * fn.log trials) / fn.sqrt trades

/-- The trades of one fold, in training and in validation. -/
def foldTrades (s : Surroundings) (c : ResearchConfig) (risk : RiskConfig) (events : List MarketEvent)
    (trial : Nat) (p : ParameterSet) (f : Nat) : Except String (List TradePosition × List TradePosition) := do
  let w := c.fold (UInt64.ofNat events.length) (UInt64.ofNat f)
  let train ←
    if w.te ≠ 0 then
      runSlice s.fn events 0 w.te.toNat p risk c.symbol false (s.systemNow (.training trial f))
    else .ok {}
  let oos ←
    if w.vb < w.ve then
      runSlice s.fn events w.vb.toNat w.ve.toNat p risk c.symbol true (s.systemNow (.validation trial f))
    else .ok {}
  return (train.trades, oos.trades)

/-- What a worker does with the trial it has taken. -/
def runTrial (s : Surroundings) (c : ResearchConfig) (risk : RiskConfig) (events : List MarketEvent)
    (trialCount : Nat) (idx : Nat) (p : ParameterSet) : Except String TrialResult := do
  let folds := (c.folds (UInt64.ofNat events.length)).toNat
  let trades ← (List.range folds).mapM (foldTrades s c risk events idx p)
  let train := MetricsCalculator.calculate s.fn (trades.flatMap Prod.fst)
  let validation := MetricsCalculator.calculate s.fn (trades.flatMap Prod.snd)
  let trainScore ← score train c.objective
  let validationScore ← score validation c.objective
  return {
    trialId := idx + 1, parameters := p, train, validation, trainScore, validationScore
    overfitGap := trainScore - validationScore
    deflatedSharpe := deflatedSharpe s.fn validation.sharpe validation.trades trialCount
    eligible := decide (c.minValidationTrades ≤ validation.trades) }

/-! ## Ranking -/

/-- `|x - y|` relative to the range, 0 for an empty range. -/
def relative (x y l h : ℚ) : ℚ := if l < h then |x - y| / (h - l) else 0

def distance (a b lo hi : ParameterSet) : ℚ :=
  relative a.lookback b.lookback lo.lookback hi.lookback +
    relative a.entryThreshold b.entryThreshold lo.entryThreshold hi.entryThreshold +
    relative a.stopLossPercent b.stopLossPercent lo.stopLossPercent hi.stopLossPercent +
    relative a.takeProfitPercent b.takeProfitPercent lo.takeProfitPercent hi.takeProfitPercent +
    relative a.slippagePercent b.slippagePercent lo.slippagePercent hi.slippagePercent

/-- Every parameter by itself. -/
def ParameterSet.zipWith (f : ℚ → ℚ → ℚ) (g : Nat → Nat → Nat) (a b : ParameterSet) : ParameterSet :=
  { lookback := g a.lookback b.lookback
    entryThreshold := f a.entryThreshold b.entryThreshold
    stopLossPercent := f a.stopLossPercent b.stopLossPercent
    takeProfitPercent := f a.takeProfitPercent b.takeProfitPercent
    slippagePercent := f a.slippagePercent b.slippagePercent }

/-- The order of `std::pair`. -/
def pairLe (a b : ℚ × ℚ) : Prop := a.1 < b.1 ∨ a.1 = b.1 ∧ a.2 ≤ b.2

instance : DecidableRel pairLe := fun a b => inferInstanceAs (Decidable (a.1 < b.1 ∨ a.1 = b.1 ∧ a.2 ≤ b.2))

/-- The stability of a trial among its nearest neighbours. -/
def stability (results : List TrialResult) (lo hi : ParameterSet) (r : TrialResult) : ℚ :=
  let neighbors := (results.filter fun o => decide (o.trialId ≠ r.trialId)).map fun o =>
    (distance r.parameters o.parameters lo hi, |r.validationScore - o.validationScore|)
  let nearest := (neighbors.insertionSort pairLe).take 5
  let wd := (nearest.map fun n => 1 / (5 / 100 + n.1) * n.2).sum
  let w := (nearest.map fun n => 1 / (5 / 100 + n.1)).sum
  if nearest = [] then 1 else 1 / (1 + wd / max (1 / 10 ^ 12) w)

def calculateStability (results : List TrialResult) : List TrialResult :=
  match results with
  | [] => []
  | front :: _ =>
    let lo := results.foldl (fun lo r => lo.zipWith min min r.parameters) front.parameters
    let hi := results.foldl (fun hi r => hi.zipWith max max r.parameters) front.parameters
    results.map fun r => { r with parameterStabilityScore := stability results lo hi r }

/-- The comparator of the leaderboard. -/
def ranksBefore (a b : TrialResult) : Bool :=
  if a.eligible ≠ b.eligible then a.eligible
  else if a.validationScore ≠ b.validationScore then decide (b.validationScore < a.validationScore)
  else if a.deflatedSharpe ≠ b.deflatedSharpe then decide (b.deflatedSharpe < a.deflatedSharpe)
  else if a.parameterStabilityScore ≠ b.parameterStabilityScore then
    decide (b.parameterStabilityScore < a.parameterStabilityScore)
  else decide (|a.overfitGap| < |b.overfitGap|)

/-! ## The run -/

/-- How a run ends without a summary: with an exception, or because one has
left a worker thread (`std::terminate`). -/
inductive Failure where
  | thrown (what : String)
  | terminated (what : String)
deriving DecidableEq

structure ResearchSummary where
  dataset : String := ""
  symbol : String := ""
  objective : String := ""
  generatedAtMs : Int := 0
  events : Nat := 0
  researchEvents : Nat := 0
  holdoutEvents : Nat := 0
  folds : Nat := 0
  trials : Nat := 0
  results : List TrialResult := []
  leaderboard : List TrialResult := []
  holdoutEvaluated : Bool := false
  selectedParameters : ParameterSet := {}
  finalHoldout : BacktestMetrics := {}
  finalHoldoutScore : ℚ := 0
  bootstrapNetProfit : ConfidenceInterval := {}
  monteCarlo : MonteCarloSummary := {}
  holdoutRegimes : List RegimeMetrics := []

/-- The grid, with the base risk where a dimension is left out. -/
def ResearchConfig.effective (c : ResearchConfig) (risk : RiskConfig) : ResearchConfig :=
  { c with
    stopLosses := if c.stopLosses.isEmpty then [risk.stopLossPercent] else c.stopLosses
    takeProfits := if c.takeProfits.isEmpty then [risk.takeProfitPercent] else c.takeProfits
    slippages := if c.slippages.isEmpty then [risk.slippagePercent] else c.slippages }

/-- One more dimension of the grid. -/
def countDimension (maxTrials count dimension : Nat) : Except String Nat :=
  if dimension = 0 then .error "Research parameter grid cannot be empty"
  else if maxTrials / dimension < count then .error "Research grid exceeds max_trials"
  else .ok (count * dimension)

def checkedTrialCount (c : ResearchConfig) : Except String Nat :=
  if c.maxTrials = 0 then .error "max_trials must be >= 1"
  else
    [c.lookbacks.length, c.entryThresholds.length, c.stopLosses.length, c.takeProfits.length,
      c.slippages.length].foldlM (countDimension c.maxTrials) 1

def parameterSets (c : ResearchConfig) : List ParameterSet :=
  c.lookbacks.flatMap fun lookback =>
    c.entryThresholds.flatMap fun entryThreshold =>
      c.stopLosses.flatMap fun stopLossPercent =>
        c.takeProfits.flatMap fun takeProfitPercent =>
          c.slippages.map fun slippagePercent =>
            { lookback, entryThreshold, stopLossPercent, takeProfitPercent, slippagePercent }

/-- The results of all trials, in the slots of `out.results`. -/
def runTrials (s : Surroundings) (c : ResearchConfig) (risk : RiskConfig) (events : List MarketEvent)
    (trialCount : Nat) : Except String (List TrialResult) :=
  (parameterSets c).zipIdx.mapM fun pi => runTrial s c risk events trialCount pi.2 pi.1

/-- `run` up to `find_if`: the summary so far and the selected trial. -/
def search (s : Surroundings) (c : ResearchConfig) (risk : RiskConfig) (events : List MarketEvent) :
    Except Failure (ResearchSummary × Option TrialResult) := do
  let trialCount ← (checkedTrialCount c).mapError .thrown
  let n := UInt64.ofNat events.length
  if n < 50 then .error (.thrown "Research robustness requires at least 50 events")
  else if c.folds n = 0 then .error (.thrown "Research dataset leaves no validation events")
  else
    let results ← (runTrials s c risk events trialCount).mapError .terminated
    let results := calculateStability results
    let leaderboard := (results.insertionSort fun a b => !ranksBefore b a).take c.leaderboardSize
    return ({
      dataset := c.dataset, symbol := c.symbol, objective := c.objective, generatedAtMs := s.generatedAtMs
      events := events.length, researchEvents := (c.researchEnd n).toNat, holdoutEvents := (c.holdoutN n).toNat
      folds := (c.folds n).toNat, trials := trialCount, results, leaderboard },
      leaderboard.find? fun t => t.eligible)

/-- The holdout is evaluated with the selected parameters. -/
def evaluateHoldout (s : Surroundings) (c : ResearchConfig) (risk : RiskConfig) (events : List MarketEvent)
    (out : ResearchSummary) (selected : TrialResult) : Except Failure ResearchSummary := do
  let first := (c.researchEnd (UInt64.ofNat events.length)).toNat
  let h ← (runSlice s.fn events first events.length selected.parameters risk c.symbol true
    (s.systemNow .holdout)).mapError .thrown
  let finalHoldoutScore ← (score h.metrics c.objective).mapError .thrown
  return { out with
    selectedParameters := selected.parameters, finalHoldout := h.metrics, finalHoldoutScore
    holdoutEvaluated := true
    bootstrapNetProfit := bootstrapProfit s.draws h.trades c.bootstrapSamples c.confidenceLevel c.randomSeed
    monteCarlo := monteCarlo s.draws h.trades c.monteCarloSamples c.confidenceLevel c.randomSeed
    holdoutRegimes := regimeMetrics s.fn events h.trades }

/-- `ResearchRunner(risk).run(input)`, the `const` overload, with the events of the dataset. -/
def run (s : Surroundings) (input : ResearchConfig) (risk : RiskConfig) (events : List MarketEvent) :
    Except Failure ResearchSummary := do
  let c := input.effective risk
  let (out, selected) ← search s c risk events
  match selected with
  | none => return out
  | some selected => evaluateHoldout s c risk events out selected

end Sentum.Research
