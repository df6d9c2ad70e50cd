import Mathlib.Algebra.Order.Ring.Rat
import Sentum.Lib.Returns
import Sentum.Risk.RiskConfig

/-!
# The research configuration

`loadResearchConfig` reads a parsed document in the order of the source and
then checks it; `loadResearchConfig_valid` collects what an accepted
configuration satisfies.  The sizes that the window arithmetic works with are
kept as the 64-bit numbers they are.
-/

namespace Sentum.Research

open Sentum Risk Returning

structure ParameterSet where
  lookback : Nat := 20
  entryThreshold : ℚ := 1 / 1000
  stopLossPercent : ℚ := 2 / 100
  takeProfitPercent : ℚ := 4 / 100
  slippagePercent : ℚ := 5 / 10000
deriving DecidableEq

structure ResearchConfig where
  dataset : String := ""
  symbol : String := ""
  objective : String := "sharpe"
  trainFraction : ℚ := 60 / 100
  holdoutFraction : ℚ := 15 / 100
  walkForwardFolds : UInt64 := 3
  purgeEvents : UInt64 := 0
  embargoEvents : UInt64 := 0
  minValidationTrades : Nat := 10
  maxTrials : Nat := 5000
  leaderboardSize : Nat := 25
  monteCarloSamples : Nat := 2000
  bootstrapSamples : Nat := 2000
  confidenceLevel : ℚ := 95 / 100
  randomSeed : Nat := 0x53454e54554d
  parallelism : Nat := 0
  lookbacks : List Nat := [10, 20, 40]
  entryThresholds : List ℚ := [5 / 10000, 1 / 1000, 2 / 1000]
  stopLosses : List ℚ := []
  takeProfits : List ℚ := []
  slippages : List ℚ := []
deriving DecidableEq

/-- `std::size_t` as the 64-bit number it is. -/
def getUInt64 (j : Json) : Except String UInt64 := j.getSize.map UInt64.ofNat

/-- A list of the grid; it may be left out, but not empty. -/
def valueOr {α : Type} (get : Json → Except String α) (object : Json) (key : String) (fallback : List α) :
    Except String (List α) :=
  match object.find? key with
  | none => .ok fallback
  | some j => do
    let values ← j.getArray get
    if values.isEmpty then .error ("Research grid '" ++ key ++ "' cannot be empty") else .ok values

def validatePositive (values : List ℚ) (key : String) (allowZero : Bool := false) : Except String Unit :=
  if values.any fun value => decide (value < 0) || (!allowZero && decide (value = 0)) then
    .error ("Invalid research parameter in '" ++ key ++ "'")
  else .ok ()

def validateLookbacks (values : List Nat) : Except String Unit :=
  if values.any fun value => decide (value < 2) then .error "Research lookback must be >= 2" else .ok ()

/-- The checks on the values; the first that fails throws. -/
def check (c : ResearchConfig) : Except String Unit :=
  if c.dataset = "" ∨ c.symbol = "" then .error "Research config requires dataset and symbol"
  else if ¬ (10 / 100 < c.trainFraction ∧ c.trainFraction < 90 / 100) then
    .error "train_fraction must be between 0.10 and 0.90"
  else if ¬ (0 < c.holdoutFraction ∧ c.holdoutFraction < 40 / 100) then
    .error "holdout_fraction must be between 0 and 0.40"
  else if 95 / 100 ≤ c.trainFraction + c.holdoutFraction then
    .error "train_fraction + holdout_fraction leaves insufficient validation data"
  else if c.walkForwardFolds = 0 ∨ c.leaderboardSize = 0 then
    .error "folds and leaderboard_size must be >= 1"
  else if ¬ (50 / 100 < c.confidenceLevel ∧ c.confidenceLevel < 1) then
    .error "confidence_level must be between 0.50 and 1.0"
  else do
    validateLookbacks c.lookbacks
    validatePositive c.entryThresholds "entry_threshold" true
    if c.stopLosses.isEmpty then pure () else validatePositive c.stopLosses "stop_loss_percent"
    if c.takeProfits.isEmpty then pure () else validatePositive c.takeProfits "take_profit_percent"
    if c.slippages.isEmpty then pure () else validatePositive c.slippages "slippage_percent" true

/-- The parameter grid, which may be left out. -/
def gridOf (json : Json) : Except String Json :=
  match json.find? "grid" with
  | none => .ok (.object [])
  | some (.object entries) => .ok (.object entries)
  | some _ => .error "Research grid must be a JSON object"

/-- `load_research_config` of a document that has been opened and parsed. -/
def loadResearchConfig (json : Json) : Except String ResearchConfig := do
  let dataset ← json.value Json.getString "dataset" ""
  let symbol ← json.value Json.getString "symbol" ""
  let objective ← json.value Json.getString "objective" "sharpe"
  let trainFraction ← json.value Json.getDouble "train_fraction" (60 / 100)
  let holdoutFraction ← json.value Json.getDouble "holdout_fraction" (15 / 100)
  let walkForwardFolds ← json.value getUInt64 "walk_forward_folds" 3
  let purgeEvents ← json.value getUInt64 "purge_events" 0
  let embargoEvents ← json.value getUInt64 "embargo_events" 0
  let minValidationTrades ← json.value Json.getSize "min_validation_trades" 10
  let maxTrials ← json.value Json.getSize "max_trials" 5000
  let leaderboardSize ← json.value Json.getSize "leaderboard_size" 25
  let monteCarloSamples ← json.value Json.getSize "monte_carlo_samples" 2000
  let bootstrapSamples ← json.value Json.getSize "bootstrap_samples" 2000
  let confidenceLevel ← json.value Json.getDouble "confidence_level" (95 / 100)
  let randomSeed ← json.value Json.getSize "random_seed" 0x53454e54554d
  let parallelism ← json.value Json.getSize "parallelism" 0
  let grid ← gridOf json
  let lookbacks ← valueOr Json.getSize grid "lookback" [10, 20, 40]
  let entryThresholds ← valueOr Json.getDouble grid "entry_threshold" [5 / 10000, 1 / 1000, 2 / 1000]
  let stopLosses ← valueOr Json.getDouble grid "stop_loss_percent" []
  let takeProfits ← valueOr Json.getDouble grid "take_profit_percent" []
  let slippages ← valueOr Json.getDouble grid "slippage_percent" []
  let c : ResearchConfig := {
    dataset, symbol, objective, trainFraction, holdoutFraction, walkForwardFolds, purgeEvents, embargoEvents
    minValidationTrades, maxTrials, leaderboardSize, monteCarloSamples, bootstrapSamples, confidenceLevel
    randomSeed, parallelism, lookbacks, entryThresholds, stopLosses, takeProfits, slippages }
  check c
  return c

/-- What the checks establish for the split of the data. -/
structure Valid (c : ResearchConfig) : Prop where
  train : 10 / 100 < c.trainFraction ∧ c.trainFraction < 90 / 100
  holdout : 0 < c.holdoutFraction ∧ c.holdoutFraction < 40 / 100
  folds : c.walkForwardFolds ≠ 0
  leaderboard : c.leaderboardSize ≠ 0

theorem valid_of_check {c : ResearchConfig} (h : check c = .ok ()) : Valid c := by
  unfold check at h
  iterate 6
    split at h
    · cases h
  next htrain hholdout hsum hfolds hconfidence =>
    simp only [not_not] at htrain hholdout
    simp only [not_or] at hfolds
    exact ⟨htrain, hholdout, hfolds.1, hfolds.2⟩

/-- **An accepted configuration is valid.** -/
theorem loadResearchConfig_valid {j : Json} {c : ResearchConfig} (h : loadResearchConfig j = .ok c) :
    Valid c := by
  unfold loadResearchConfig at h
  iterate 22 obtain ⟨_, -, h⟩ := bind_eq_ok h
  obtain ⟨u, hu, h⟩ := bind_eq_ok h
  cases h
  exact valid_of_check hu

/-! ## The grid -/

/-- A value of a grid is the default's or has been read. -/
theorem mem_of_valueOr {α : Type} {get : Json → Except String α} {object : Json} {key : String} {fallback : List α}
    {values : List α} (h : valueOr get object key fallback = .ok values) {v : α} (hv : v ∈ values) :
    v ∈ fallback ∨ ∃ j : Json, get j = .ok v := by
  unfold valueOr at h
  cases hfind : object.find? key with
  | none =>
    rw [hfind] at h
    cases h
    exact .inl hv
  | some j =>
    rw [hfind] at h
    obtain ⟨xs, hxs, h⟩ := bind_eq_ok h
    split at h
    · cases h
    · cases h
      cases j with
      | array js =>
        obtain ⟨x, -, hx⟩ := mem_of_mapM hxs hv
        exact .inr ⟨x, hx⟩
      | _ => cases hxs

/-- What is checked of the values of the grid. -/
structure GridValid (c : ResearchConfig) : Prop where
  lookbacks : ∀ l ∈ c.lookbacks, 2 ≤ l ∧ l < 2 ^ 64
  entryThresholds : ∀ t ∈ c.entryThresholds, 0 ≤ t

theorem grid_of_check {c : ResearchConfig} (h : check c = .ok ()) :
    (∀ l ∈ c.lookbacks, 2 ≤ l) ∧ ∀ t ∈ c.entryThresholds, 0 ≤ t := by
  unfold check at h
  iterate 6
    split at h
    · cases h
  obtain ⟨u, hlookbacks, h⟩ := bind_eq_ok h
  obtain ⟨v, hthresholds, -⟩ := bind_eq_ok h
  constructor
  · intro l hl
    unfold validateLookbacks at hlookbacks
    split at hlookbacks
    · cases hlookbacks
    · next hnone =>
      by_contra hlt
      exact hnone (List.any_eq_true.mpr ⟨l, hl, by simpa using hlt⟩)
  · intro t ht
    unfold validatePositive at hthresholds
    split at hthresholds
    · cases hthresholds
    · next hnone =>
      by_contra hlt
      exact hnone (List.any_eq_true.mpr ⟨t, ht, by simpa using hlt⟩)

/-- **The grid of an accepted configuration.** -/
theorem loadResearchConfig_grid {j : Json} {c : ResearchConfig} (h : loadResearchConfig j = .ok c) : GridValid c := by
  unfold loadResearchConfig at h
  iterate 17 obtain ⟨_, -, h⟩ := bind_eq_ok h
  obtain ⟨lookbacks, hlookbacks, h⟩ := bind_eq_ok h
  iterate 4 obtain ⟨_, -, h⟩ := bind_eq_ok h
  obtain ⟨u, hu, h⟩ := bind_eq_ok h
  cases h
  obtain ⟨hmin, hthresholds⟩ := grid_of_check hu
  refine ⟨fun l hl => ⟨hmin l hl, ?_⟩, hthresholds⟩
  rcases mem_of_valueOr hlookbacks hl with hdefault | ⟨x, hx⟩
  · have hcases : l = 10 ∨ l = 20 ∨ l = 40 := by simpa using hdefault
    omega
  · exact Json.getSize_lt hx

/-! ## config/research.example.json -/

/-- The file, with its `embargo_events` left open. -/
def exampleDocument (embargo : Int) : Json :=
  .object [("dataset", .string "data/btcusdt.csv"), ("symbol", .string "BTCUSDT"), ("objective", .string "sharpe"),
    ("train_fraction", .float (60 / 100)), ("holdout_fraction", .float (15 / 100)),
    ("walk_forward_folds", .integer 4), ("purge_events", .integer 20), ("embargo_events", .integer embargo),
    ("min_validation_trades", .integer 20), ("max_trials", .integer 5000), ("leaderboard_size", .integer 25),
    ("monte_carlo_samples", .integer 5000), ("bootstrap_samples", .integer 5000),
    ("confidence_level", .float (95 / 100)), ("random_seed", .integer 9152026), ("parallelism", .integer 0),
    ("grid", .object [("lookback", .array [.integer 10, .integer 20, .integer 40]),
      ("entry_threshold", .array [.float (5 / 10000), .float (1 / 1000), .float (2 / 1000)]),
      ("stop_loss_percent", .array [.float (1 / 100), .float (2 / 100), .float (3 / 100)]),
      ("take_profit_percent", .array [.float (2 / 100), .float (4 / 100), .float (6 / 100)]),
      ("slippage_percent", .array [.float (25 / 100000), .float (5 / 10000), .float (1 / 1000)])])]

def exampleResearch : ResearchConfig :=
  { dataset := "data/btcusdt.csv", symbol := "BTCUSDT", walkForwardFolds := 4, purgeEvents := 20
    embargoEvents := 5, minValidationTrades := 20, monteCarloSamples := 5000, bootstrapSamples := 5000
    randomSeed := 9152026, stopLosses := [1 / 100, 2 / 100, 3 / 100], takeProfits := [2 / 100, 4 / 100, 6 / 100]
    slippages := [25 / 100000, 5 / 10000, 1 / 1000] }

theorem exampleResearch_loaded : loadResearchConfig (exampleDocument 5) = .ok exampleResearch := by
  decide +kernel

end Sentum.Research
