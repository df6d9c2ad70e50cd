import Mathlib.Tactic.Linarith
import Sentum.Research.HoldoutIsolation
import Sentum.Research.ModelPromotion

/-!
# Source validation

A model is registered with the final holdout of the experiment it names as its
evidence.  `validateSourceExperiment` compares five parameters of the model
with those the experiment selected; `RestAgrees` is what it does not compare.

`belongs_iff`: the evidence belongs to every model that is accepted exactly
when what is not compared agrees.
-/

namespace Sentum.Promotion

open Sentum Research Risk Strategy Backtest Returning

/-! ## research.json -/

/-- `finite_or_zero` -/
def finiteOrZero (v : WithTop ℚ) : ℚ := v.untopD 0

def metricsJson (m : BacktestMetrics) : Json :=
  .object [("net_profit", .float m.netProfit), ("max_drawdown", .float m.maxDrawdown),
    ("profit_factor", .float (finiteOrZero m.profitFactor)), ("win_rate", .float m.winRate),
    ("expectancy", .float m.expectancy), ("sharpe", .float m.sharpe), ("sortino", .float m.sortino),
    ("fee_share", .float m.feeShare), ("slippage_sensitivity", .float m.slippageSensitivity),
    ("trades", .integer m.trades)]

def parameterJson (p : ParameterSet) : Json :=
  .object [("lookback", .integer p.lookback), ("entry_threshold", .float p.entryThreshold),
    ("stop_loss_percent", .float p.stopLossPercent), ("take_profit_percent", .float p.takeProfitPercent),
    ("slippage_percent", .float p.slippagePercent)]

/-- `ResearchRunner::to_json` without the leaderboard and the statistics of the holdout. -/
def toJson (s : ResearchSummary) : Json :=
  .object ([("dataset", .string s.dataset), ("symbol", .string s.symbol), ("objective", .string s.objective),
    ("generated_at_ms", .integer s.generatedAtMs), ("events", .integer s.events),
    ("research_events", .integer s.researchEvents), ("holdout_events", .integer s.holdoutEvents),
    ("folds", .integer s.folds), ("trials", .integer s.trials),
    ("holdout_evaluated", .boolean s.holdoutEvaluated)] ++
    if s.holdoutEvaluated then
      [("selected_parameters", parameterJson s.selectedParameters), ("final_holdout", metricsJson s.finalHoldout),
        ("final_holdout_score", .float s.finalHoldoutScore)]
    else [])

/-! ## The validation -/

/-- A row of `research_runs`, as far as it is selected. -/
structure ResearchRun where
  status : String
  gitCommit : String
  configSha256 : String
  outputDirectory : String

structure ExperimentRegistry where
  /-- `sqlite3_open_v2` succeeds -/
  opens : Bool := true
  select : Statement := .done
  runs : String → Option ResearchRun

def ExperimentRegistry.find (reg : ExperimentRegistry) (registryPath runId : String) : Except String ResearchRun :=
  if reg.opens = false then .error ("Cannot open experiment registry: " ++ registryPath)
  else
    match reg.select with
    | .prepareFails _ => .error "Cannot query source experiment"
    | .stepFails _ => .error "Source experiment run not found"
    | .done =>
      match reg.runs runId with
      | none => .error "Source experiment run not found"
      | some run => .ok run

/-- `output / "research.json"` -/
def researchPath (output : String) : String :=
  if output = "" || output.endsWith '/' then output ++ "research.json" else output ++ "/research.json"

def nearlyEqual (a b : ℚ) : Prop := |a - b| ≤ 1 / 10 ^ 12 * max 1 (max |a| |b|)

instance (a b : ℚ) : Decidable (nearlyEqual a b) := inferInstanceAs (Decidable (_ ≤ _))

/-- The strategy is the one that was researched. -/
def checkStrategy (strategy selected : Json) : Except String Unit := do
  if (← strategy.value Json.getString "type" "") ≠ "momentum" then
    .error "Source experiment is momentum research; promoted strategy type must be momentum"
  else
    let params ← strategy.value Except.ok "parameters" (.object [])
    let mismatch := "Model strategy parameters do not match source experiment selected_parameters"
    if (← params.value Json.getSize "lookback" 0) ≠ (← selected.value Json.getSize "lookback" 0) then .error mismatch
    else if ¬ nearlyEqual (← params.value Json.getDouble "entry_threshold" (-1))
        (← selected.value Json.getDouble "entry_threshold" (-2)) then .error mismatch
    else return ()

/-- Three fields of the risk configuration are the ones that were researched. -/
def checkRisk (risk : RiskConfig) (selected : Json) : Except String Unit := do
  let mismatch := "Current risk configuration does not match researched stop/take-profit/slippage parameters"
  if ¬ nearlyEqual risk.stopLossPercent (← selected.value Json.getDouble "stop_loss_percent" (-1)) then
    .error mismatch
  else if ¬ nearlyEqual risk.takeProfitPercent (← selected.value Json.getDouble "take_profit_percent" (-1)) then
    .error mismatch
  else if ¬ nearlyEqual risk.slippagePercent (← selected.value Json.getDouble "slippage_percent" (-1)) then
    .error mismatch
  else return ()

/-- The evidence: the metrics of the final holdout. -/
def holdoutEvidence (r : Json) (artifact : String) : Except String StageEvidence := do
  let m ← r.entry "final_holdout"
  let finishedAtMs ← r.value Json.getInt64 "generated_at_ms" 0
  let trades ← m.value Json.getSize "trades" 0
  let netProfit ← m.value Json.getDouble "net_profit" 0
  let maxDrawdown ← m.value Json.getDouble "max_drawdown" 0
  let profitFactor ← m.value Json.getDouble "profit_factor" 0
  let winRate ← m.value Json.getDouble "win_rate" 0
  let expectancy ← m.value Json.getDouble "expectancy" 0
  let sharpe ← m.value Json.getDouble "sharpe" 0
  let sortino ← m.value Json.getDouble "sortino" 0
  return { stage := "research", finishedAtMs, trades, netProfit, maxDrawdown
           profitFactor := ((profitFactor : ℚ) : WithTop ℚ), winRate, expectancy, sharpe, sortino, artifact }

/-- `validate_source_experiment`; `files` has what is behind a path, as parsed. -/
def validateSourceExperiment (model : ModelDefinition) (reg : ExperimentRegistry) (registryPath : String)
    (files : String → Option (Except String Json)) (riskFile : String → Except String Json) :
    Except String StageEvidence := do
  let run ← reg.find registryPath model.sourceExperimentRun
  if run.status ≠ "completed" then .error "Source experiment is not completed"
  else if model.sourceGitCommit ≠ "" ∧ run.gitCommit ≠ model.sourceGitCommit then
    .error "Source experiment Git commit mismatch"
  else if model.sourceConfigSha256 ≠ "" ∧ run.configSha256 ≠ model.sourceConfigSha256 then
    .error "Source experiment config hash mismatch"
  else
    let r ←
      match files (researchPath run.outputDirectory) with
      | none => .error ("Source experiment does not contain research.json; " ++
          "promotion currently requires a single-asset research run")
      | some parsed => parsed
    if !(← r.value Json.getBoolean "holdout_evaluated" false) || !r.contains "final_holdout" ||
        !r.contains "selected_parameters" then
      .error "Source experiment has no selected final Holdout model"
    else
      let selected ← r.entry "selected_parameters"
      checkStrategy model.strategy selected
      let risk ← (riskFile model.riskConfig).bind loadRiskConfig
      checkRisk risk selected
      holdoutEvidence r (researchPath run.outputDirectory)

/-! ## What the evidence belongs to -/

/-- What a holdout is replayed with. -/
structure Setup where
  symbol : String
  lookback : Nat
  entryThreshold : ℚ
  risk : RiskConfig

/-- What the final holdout of an experiment was replayed with. -/
def holdoutSetup (c : ResearchConfig) (base : RiskConfig) (summary : ResearchSummary) : Setup :=
  { symbol := c.symbol, lookback := summary.selectedParameters.lookback
    entryThreshold := summary.selectedParameters.entryThreshold
    risk := applyTrialRisk base summary.selectedParameters }

/-- The symbol, and what `TradeEngine` and `RiskManager` read of the risk
configuration apart from stop loss, take profit and slippage. -/
structure RestAgrees (model : ModelDefinition) (risk : RiskConfig) (setup : Setup) : Prop where
  symbol : model.symbol = setup.symbol
  maxTotalCapital : nearlyEqual risk.maxTotalCapital setup.risk.maxTotalCapital
  riskPerTrade : nearlyEqual risk.riskPerTrade setup.risk.riskPerTrade
  trailingSlEnabled : risk.trailingSlEnabled = setup.risk.trailingSlEnabled
  trailingSlPercent : nearlyEqual risk.trailingSlPercent setup.risk.trailingSlPercent
  buyFeePercent : nearlyEqual risk.buyFeePercent setup.risk.buyFeePercent
  sellFeePercent : nearlyEqual risk.sellFeePercent setup.risk.sellFeePercent
  spreadPercent : nearlyEqual risk.spreadPercent setup.risk.spreadPercent
  leverage : nearlyEqual risk.leverage setup.risk.leverage
  minQuantity : nearlyEqual risk.minQuantity setup.risk.minQuantity
  maxQuantity : nearlyEqual risk.maxQuantity setup.risk.maxQuantity
  stepSize : nearlyEqual risk.stepSize setup.risk.stepSize
  minNotional : nearlyEqual risk.minNotional setup.risk.minNotional
  cooldownSeconds : risk.cooldownSeconds = setup.risk.cooldownSeconds
  maxHoldingSeconds : risk.maxHoldingSeconds = setup.risk.maxHoldingSeconds
  maxDataAgeMs : risk.maxDataAgeMs = setup.risk.maxDataAgeMs

/-- The strategy the factory makes is a momentum strategy with these parameters. -/
def SameStrategy (model : ModelDefinition) (setup : Setup) : Prop :=
  ∀ strategy, StrategyFactory.create model.strategy = .ok strategy →
    ∃ threshold, strategy = .momentum (.init setup.lookback threshold) ∧ nearlyEqual threshold setup.entryThreshold

/-- The model trades as the holdout was replayed. -/
structure SameSetup (model : ModelDefinition) (risk : RiskConfig) (setup : Setup) : Prop where
  rest : RestAgrees model risk setup
  strategy : SameStrategy model setup
  stopLossPercent : nearlyEqual risk.stopLossPercent setup.risk.stopLossPercent
  takeProfitPercent : nearlyEqual risk.takeProfitPercent setup.risk.takeProfitPercent
  slippagePercent : nearlyEqual risk.slippagePercent setup.risk.slippagePercent

/-! ## The source experiment -/

section
variable {c : ResearchConfig} {base : RiskConfig} {s : Surroundings} {events : List Market.MarketEvent}
  {out : ResearchSummary}

/-- A result has parameters of the grid. -/
theorem runTrials_mem {trialCount : Nat} {results : List TrialResult}
    (h : runTrials s c base events trialCount = .ok results) {r : TrialResult} (hr : r ∈ results) :
    r.parameters ∈ parameterSets c := by
  obtain ⟨pi, hpi, hr⟩ := mem_of_mapM h hr
  unfold runTrial at hr
  obtain ⟨trades, -, hr⟩ := bind_eq_ok hr
  obtain ⟨trainScore, -, hr⟩ := bind_eq_ok hr
  obtain ⟨validationScore, -, hr⟩ := bind_eq_ok hr
  cases hr
  exact (List.mem_zipIdx hpi).2.2 ▸ List.getElem_mem _

theorem calculateStability_mem {results : List TrialResult} {r : TrialResult} (hr : r ∈ calculateStability results) :
    ∃ r' ∈ results, r.parameters = r'.parameters := by
  cases results with
  | nil => cases hr
  | cons front rest =>
    obtain ⟨r', hr', rfl⟩ := List.mem_map.mp hr
    exact ⟨r', hr', rfl⟩

/-- The selected trial has parameters of the grid. -/
theorem search_selected {found : ResearchSummary} {trial : TrialResult}
    (h : search s c base events = .ok (found, some trial)) : trial.parameters ∈ parameterSets c := by
  obtain ⟨trialCount, results, hend⟩ := search_eq_ok h
  have hselected : some trial = found.leaderboard.find? fun t => t.eligible := hend.selected
  have hmem := List.mem_of_find?_eq_some hselected.symm
  rw [hend.leaderboard] at hmem
  have hsorted := (List.mem_insertionSort _).mp (List.mem_of_mem_take hmem)
  obtain ⟨r, hr, hparameters⟩ := calculateStability_mem hsorted
  exact hparameters ▸ runTrials_mem hend.trials hr

/-- The selected parameters are those of the grid that was checked. -/
theorem selected_valid (hgrid : GridValid c) (h : run s c base events = .ok out)
    (hheld : out.holdoutEvaluated = true) :
    2 ≤ out.selectedParameters.lookback ∧ out.selectedParameters.lookback < 2 ^ 64 ∧
      0 ≤ out.selectedParameters.entryThreshold := by
  obtain ⟨⟨found, selected⟩, hsearch, -, -, heval, hparameters⟩ := run_found h
  cases selected with
  | none =>
    rw [heval] at hheld
    cases hheld
  | some trial =>
    have hmem := search_selected hsearch
    have hsame : out.selectedParameters = trial.parameters := hparameters
    rw [hsame]
    simp only [parameterSets, List.mem_flatMap, List.mem_map] at hmem
    obtain ⟨l, hl, t, ht, _, -, _, -, _, -, hp⟩ := hmem
    rw [← hp]
    exact ⟨(hgrid.lookbacks l hl).1, (hgrid.lookbacks l hl).2, hgrid.entryThresholds t ht⟩

end

/-! ## What is compared -/

/-- A value that is not the fallback has been read, whatever the fallback. -/
theorem value_of_ne_fallback {α : Type} {get : Json → Except String α} {j : Json} {key : String} {fallback v : α}
    (h : j.value get key fallback = .ok v) (hne : v ≠ fallback) (other : α) : j.value get key other = .ok v := by
  cases j with
  | object entries =>
    simp only [Json.value] at h ⊢
    cases hentry : entries.lookup key with
    | none =>
      rw [hentry] at h
      exact absurd (Except.ok.inj h).symm hne
    | some entry =>
      rw [hentry] at h
      exact h
  | _ => cases h

/-- A threshold that was researched is not negative, so -1 is not near it. -/
theorem ne_neg_one_of_nearlyEqual {x t : ℚ} (h : nearlyEqual x t) (ht : 0 ≤ t) : x ≠ -1 := by
  rintro rfl
  unfold nearlyEqual at h
  have hdistance : |(-1 : ℚ) - t| = 1 + t := by
    rw [abs_of_nonpos (by linarith)]
    ring
  have hmax : max 1 (max |(-1 : ℚ)| |t|) ≤ 1 + t := by
    rw [abs_neg, abs_one, abs_of_nonneg ht]
    exact max_le (by linarith) (max_le (by linarith) (by linarith))
  have hbound : 1 / 10 ^ 12 * max 1 (max |(-1 : ℚ)| |t|) ≤ 1 / 10 ^ 12 * (1 + t) :=
    mul_le_mul_of_nonneg_left hmax (by norm_num)
  rw [hdistance] at h
  linarith

/-- The strategy of an accepted model is the one that was researched. -/
theorem checkStrategy_ok {model : ModelDefinition} {p : ParameterSet} {setup : Setup}
    (h : checkStrategy model.strategy (parameterJson p) = .ok ()) (hmin : 2 ≤ p.lookback) (hmax : p.lookback < 2 ^ 64)
    (hthreshold : 0 ≤ p.entryThreshold) (hlookback : setup.lookback = p.lookback)
    (hentry : setup.entryThreshold = p.entryThreshold) : SameStrategy model setup := by
  unfold checkStrategy at h
  obtain ⟨type, htype, h⟩ := bind_eq_ok h
  split at h
  · cases h
  · next hmomentum =>
    rw [not_not.mp hmomentum] at htype
    obtain ⟨params, hparams, h⟩ := bind_eq_ok h
    obtain ⟨lookback, hread, h⟩ := bind_eq_ok h
    obtain ⟨selected, hselected, h⟩ := bind_eq_ok h
    have hsize : selected = p.lookback := by
      have hmod : ((p.lookback : Int) % 2 ^ 64).toNat = selected := Except.ok.inj hselected
      omega
    split at h
    · cases h
    · next hequal =>
      have hlook : lookback = p.lookback := (not_not.mp hequal).trans hsize
      obtain ⟨threshold, hthread, h⟩ := bind_eq_ok h
      obtain ⟨researched, hresearched, h⟩ := bind_eq_ok h
      have hnear : researched = p.entryThreshold := (Except.ok.inj hresearched).symm
      split at h
      · cases h
      · next hnearly =>
        rw [not_not, hnear] at hnearly
        intro strategy hcreate
        refine ⟨threshold, ?_, hentry ▸ hnearly⟩
        cases hstrategy : model.strategy with
        | object entries =>
          rw [hstrategy] at htype hparams hcreate
          -- the factory reads the same two parameters, with fallbacks of its own
          have hfactory := value_of_ne_fallback htype (by decide) "momentum"
          have hparameters : ((Json.object entries).find? "parameters").getD (.object []) = params := by
            simp only [Json.value] at hparams
            simp only [Json.find?]
            cases hentry : entries.lookup "parameters" with
            | none =>
              rw [hentry] at hparams
              exact Except.ok.inj hparams
            | some v =>
              rw [hentry] at hparams
              exact Except.ok.inj hparams
          have hl := value_of_ne_fallback hread (by omega) 20
          have ht := value_of_ne_fallback hthread (ne_neg_one_of_nearlyEqual hnearly hthreshold) (1 / 1000)
          unfold StrategyFactory.create at hcreate
          simp only [hfactory] at hcreate
          rw [if_pos (by decide)] at hcreate
          split at hcreate
          · cases hcreate
          · rw [hparameters] at hcreate
            unfold StrategyFactory.createSingle at hcreate
            rw [if_pos rfl, hl, ht] at hcreate
            rw [hlookback, ← hlook]
            exact (Except.ok.inj hcreate).symm
        | _ =>
          rw [hstrategy] at htype
          cases htype

theorem checkRisk_ok {risk : RiskConfig} {p : ParameterSet} (h : checkRisk risk (parameterJson p) = .ok ()) :
    nearlyEqual risk.stopLossPercent p.stopLossPercent ∧ nearlyEqual risk.takeProfitPercent p.takeProfitPercent ∧
      nearlyEqual risk.slippagePercent p.slippagePercent := by
  unfold checkRisk at h
  obtain ⟨stopLoss, hstop, h⟩ := bind_eq_ok h
  cases hstop
  split at h
  · cases h
  · next hstop =>
    obtain ⟨takeProfit, htake, h⟩ := bind_eq_ok h
    cases htake
    split at h
    · cases h
    · next htake =>
      obtain ⟨slippage, hslip, h⟩ := bind_eq_ok h
      cases hslip
      split at h
      · cases h
      · next hslip => exact ⟨not_not.mp hstop, not_not.mp htake, not_not.mp hslip⟩

/-! ## What is accepted -/

section
variable {model : ModelDefinition} {reg : ExperimentRegistry} {registryPath : String}
  {files : String → Option (Except String Json)} {riskFile : String → Except String Json} {e : StageEvidence}

/-- An accepted model has a risk configuration and has passed both comparisons. -/
theorem validate_compared {source : ResearchRun} {summary : ResearchSummary} {registryPath : String}
    (hsource : reg.find registryPath model.sourceExperimentRun = .ok source)
    (hfile : files (researchPath source.outputDirectory) = some (.ok (toJson summary)))
    (hheld : summary.holdoutEvaluated = true)
    (h : validateSourceExperiment model reg registryPath files riskFile = .ok e) :
    checkStrategy model.strategy (parameterJson summary.selectedParameters) = .ok () ∧
      ∃ risk, (riskFile model.riskConfig).bind loadRiskConfig = .ok risk ∧
        checkRisk risk (parameterJson summary.selectedParameters) = .ok () := by
  unfold validateSourceExperiment at h
  rw [hsource] at h
  obtain ⟨run, hrun, h⟩ := bind_eq_ok h
  cases hrun
  iterate 3
    split at h
    · cases h
  rw [hfile] at h
  obtain ⟨r, hr, h⟩ := bind_eq_ok h
  cases hr
  obtain ⟨held, -, h⟩ := bind_eq_ok h
  split at h
  · cases h
  · obtain ⟨selected, hselected, h⟩ := bind_eq_ok h
    have hparameters : selected = parameterJson summary.selectedParameters := by
      unfold toJson at hselected
      rw [hheld] at hselected
      exact (Except.ok.inj hselected).symm
    subst hparameters
    obtain ⟨u, hstrategy, h⟩ := bind_eq_ok h
    obtain ⟨risk, hrisk, h⟩ := bind_eq_ok h
    obtain ⟨v, hchecked, -⟩ := bind_eq_ok h
    exact ⟨hstrategy, risk, hrisk, hchecked⟩

/-- The evidence of an accepted model belongs to it. -/
def Belongs (model : ModelDefinition) (reg : ExperimentRegistry) (registryPath : String)
    (files : String → Option (Except String Json)) (riskFile : String → Except String Json) (setup : Setup) : Prop :=
  ∀ e, validateSourceExperiment model reg registryPath files riskFile = .ok e →
    ∃ risk, (riskFile model.riskConfig).bind loadRiskConfig = .ok risk ∧ SameSetup model risk setup

/-- What is not compared agrees where a model is accepted. -/
def RestGiven (model : ModelDefinition) (reg : ExperimentRegistry) (registryPath : String)
    (files : String → Option (Except String Json)) (riskFile : String → Except String Json) (setup : Setup) : Prop :=
  ∀ e, validateSourceExperiment model reg registryPath files riskFile = .ok e →
    ∃ risk, (riskFile model.riskConfig).bind loadRiskConfig = .ok risk ∧ RestAgrees model risk setup

end

/-- **Evidence belongs to the model it is attached to** exactly when symbol and
risk configuration agree, beyond what is compared, with those the final
holdout of the source experiment was replayed with. -/
theorem belongs_iff {j : Json} {c : ResearchConfig} (hconfig : loadResearchConfig j = .ok c) (base : RiskConfig)
    (s : Surroundings) (events : List Market.MarketEvent) {summary : ResearchSummary}
    (hrun : run s c base events = .ok summary) (hheld : summary.holdoutEvaluated = true) (model : ModelDefinition)
    (reg : ExperimentRegistry) (registryPath : String) {source : ResearchRun}
    (hsource : reg.find registryPath model.sourceExperimentRun = .ok source)
    (files : String → Option (Except String Json))
    (hfile : files (researchPath source.outputDirectory) = some (.ok (toJson summary)))
    (riskFile : String → Except String Json) :
    Belongs model reg registryPath files riskFile (holdoutSetup c base summary) ↔
      RestGiven model reg registryPath files riskFile (holdoutSetup c base summary) := by
  obtain ⟨hmin, hmax, hthreshold⟩ := selected_valid (loadResearchConfig_grid hconfig) hrun hheld
  constructor
  · intro h e hvalid
    obtain ⟨risk, hrisk, hsame⟩ := h e hvalid
    exact ⟨risk, hrisk, hsame.rest⟩
  · intro h e hvalid
    obtain ⟨risk, hrisk, hrest⟩ := h e hvalid
    obtain ⟨hstrategy, risk', hrisk', hchecked⟩ := validate_compared hsource hfile hheld hvalid
    cases hrisk.symm.trans hrisk'
    obtain ⟨hstop, htake, hslip⟩ := checkRisk_ok hchecked
    exact ⟨risk, hrisk, hrest, checkStrategy_ok hstrategy hmin hmax hthreshold rfl rfl, hstop, htake, hslip⟩

/-! ### Another symbol -/

/-- One candidate, which is selected whatever it trades. -/
def oneCandidateDocument : Json :=
  .object [("dataset", .string "data/btcusdt.csv"), ("symbol", .string "BTCUSDT"), ("walk_forward_folds", .integer 1),
    ("min_validation_trades", .integer 0), ("bootstrap_samples", .integer 0), ("monte_carlo_samples", .integer 0),
    ("grid", .object [("lookback", .array [.integer 20]), ("entry_threshold", .array [.float (1 / 1000)])])]

def oneCandidate : ResearchConfig :=
  { dataset := "data/btcusdt.csv", symbol := "BTCUSDT", walkForwardFolds := 1, minValidationTrades := 0
    bootstrapSamples := 0, monteCarloSamples := 0, lookbacks := [20], entryThresholds := [1 / 1000] }

theorem oneCandidate_loaded : loadResearchConfig oneCandidateDocument = .ok oneCandidate := by
  decide +kernel

def oneCandidateSummary : ResearchSummary :=
  match run probe oneCandidate shippedRisk calm with
  | .ok out => out
  | .error _ => {}

theorem oneCandidate_run : run probe oneCandidate shippedRisk calm = .ok oneCandidateSummary := by
  have hok : (run probe oneCandidate shippedRisk calm).isOk = true := by decide +kernel
  unfold oneCandidateSummary
  cases hrun : run probe oneCandidate shippedRisk calm with
  | ok out => rfl
  | error what =>
    rw [hrun] at hok
    cases hok

theorem oneCandidate_held : oneCandidateSummary.holdoutEvaluated = true := by decide +kernel

/-- The registry of experiments with this run, its research.json, and config/risk.json. -/
def oneRun : ExperimentRegistry :=
  { runs := fun runId =>
      if runId = "1767225600000-0123456789ab" then some ⟨"completed", "", "", "log/research"⟩ else none }

def researchFiles (path : String) : Option (Except String Json) :=
  if path = researchPath "log/research" then some (.ok (toJson oneCandidateSummary)) else none

theorem belongs_iff_oneCandidate :
    Belongs btcMomentum oneRun "log/experiments.sqlite3" researchFiles (fun _ => .ok shippedDocument)
        (holdoutSetup oneCandidate shippedRisk oneCandidateSummary) ↔
      RestGiven btcMomentum oneRun "log/experiments.sqlite3" researchFiles (fun _ => .ok shippedDocument)
        (holdoutSetup oneCandidate shippedRisk oneCandidateSummary) :=
  belongs_iff oneCandidate_loaded shippedRisk probe calm oneCandidate_run oneCandidate_held btcMomentum oneRun
    "log/experiments.sqlite3" rfl researchFiles (if_pos rfl) _

/-- A model of another symbol with the researched parameters. -/
def ethMomentum : ModelDefinition := { btcMomentum with symbol := "ETHUSDT" }

theorem ethMomentum_not_belonging :
    ¬ Belongs ethMomentum oneRun "log/experiments.sqlite3" researchFiles (fun _ => .ok shippedDocument)
        (holdoutSetup oneCandidate shippedRisk oneCandidateSummary) := by
  intro h
  have hok : (validateSourceExperiment ethMomentum oneRun "log/experiments.sqlite3" researchFiles
      fun _ => .ok shippedDocument).isOk = true := by decide +kernel
  cases hvalid : validateSourceExperiment ethMomentum oneRun "log/experiments.sqlite3" researchFiles
      fun _ => .ok shippedDocument with
  | error what =>
    rw [hvalid] at hok
    cases hok
  | ok e =>
    obtain ⟨risk, -, hsame⟩ := h e hvalid
    have hsymbol : "ETHUSDT" = "BTCUSDT" := hsame.rest.symbol
    exact absurd hsymbol (by decide)

end Sentum.Promotion
