import Sentum.Research.ModelPromotion

/-!
# The application configuration

`loadConfig` of a document that has been parsed.  The model definition it may
name is another file, and the stage of that model comes from the registry;
both are functions here.
-/

namespace Sentum

open Promotion

structure Config where
  quoteAsset : String := "USDC"
  databasePath : String := "log/sentum.sqlite3"
  minCumulativeReturn : ℚ := 5 / 10000
  paperTrading : Bool := true
  strategy : Json := .object [("type", .string "momentum"),
    ("parameters", .object [("lookback", .integer 20), ("entry_threshold", .float (1 / 1000))])]
  paperInitialBalance : ℚ := 10000
  paperStatePath : String := "log/paper_account.json"
  paperAutoSymbol : Bool := true
  paperSymbol : String := ""
  paperModelDefinition : String := ""
  paperRiskConfigPath : String := "config/risk.json"
  paperModelId : String := ""
  dashboardHost : String := "127.0.0.1"
  dashboardPort : Int := 8080

namespace Config

/-- The entry `paper`, unless it is missing or no object. -/
def loadPaper (config : Config) (json : Json) : Except String Config :=
  match json.find? "paper" with
  | some (.object entries) => do
    let paper := Json.object entries
    let paperInitialBalance ← paper.value Json.getDouble "initialBalance" config.paperInitialBalance
    let paperStatePath ← paper.value Json.getString "statePath" config.paperStatePath
    let paperAutoSymbol ← paper.value Json.getBoolean "autoSymbol" config.paperAutoSymbol
    let paperSymbol ← paper.value Json.getString "symbol" config.paperSymbol
    let paperModelDefinition ← paper.value Json.getString "modelDefinition" config.paperModelDefinition
    return { config with paperInitialBalance, paperStatePath, paperAutoSymbol, paperSymbol, paperModelDefinition }
  | _ => .ok config

/-- `load_config` up to the model definition. -/
def loadEntries (json : Json) : Except String Config := do
  let config : Config := {}
  let quoteAsset ← json.value Json.getString "quoteAsset" config.quoteAsset
  let minCumulativeReturn ← json.value Json.getDouble "minCumulativeReturn" config.minCumulativeReturn
  let databasePath ← json.value Json.getString "databasePath" config.databasePath
  let paperTrading ← json.value Json.getBoolean "paperTrading" config.paperTrading
  let strategy ← json.value Except.ok "strategy" config.strategy
  let config ← { config with quoteAsset, minCumulativeReturn, databasePath, paperTrading, strategy }.loadPaper json
  let dashboardHost ← json.value Json.getString "dashboardHost" config.dashboardHost
  let dashboardPort ← json.value Json.getInt "dashboardPort" config.dashboardPort
  if dashboardPort < 1 ∨ 65535 < dashboardPort then .error "dashboardPort must be between 1 and 65535"
  else if dashboardHost = "" then .error "dashboardHost must not be empty"
  else if ¬ 0 < config.paperInitialBalance then .error "paper.initialBalance must be > 0"
  else if isObject config.strategy = false then .error "strategy must be a JSON object"
  else return { config with dashboardHost, dashboardPort }

/-- The model that `paper.modelDefinition` names takes the place of strategy, symbol and risk configuration. -/
def installModel (config : Config) (loadModelDefinition : String → Except String ModelDefinition)
    (stage : String → Except String String) : Except String Config :=
  if config.paperModelDefinition = "" then .ok config
  else do
    let model ← loadModelDefinition config.paperModelDefinition
    if (← stage model.modelId) ≠ "paper" then
      .error ("paper.modelDefinition requires a model promoted to the paper stage: " ++ model.modelId)
    else
      return { config with
        paperModelId := model.modelId, strategy := model.strategy, paperSymbol := model.symbol
        paperAutoSymbol := false, paperRiskConfigPath := model.riskConfig }

end Config

open Config

def loadConfig (json : Json) (loadModelDefinition : String → Except String ModelDefinition)
    (stage : String → Except String String) : Except String Config := do
  let config ← loadEntries json
  let config ← config.installModel loadModelDefinition stage
  if config.paperAutoSymbol = false ∧ config.paperSymbol = "" then
    .error "paper.symbol is required when paper.autoSymbol=false"
  else return config

/-- A configuration that names a model has been given that model. -/
structure Installed (config : Config) (model : ModelDefinition) : Prop where
  modelId : config.paperModelId = model.modelId
  strategy : config.strategy = model.strategy
  symbol : config.paperSymbol = model.symbol
  riskConfig : config.paperRiskConfigPath = model.riskConfig

/-- **An accepted configuration** has the model of the file it names, and that
model is at stage paper. -/
theorem loadConfig_installed {json : Json} {load : String → Except String ModelDefinition}
    {stage : String → Except String String} {config : Config} (h : loadConfig json load stage = .ok config)
    (hnamed : config.paperModelDefinition ≠ "") :
    ∃ model, load config.paperModelDefinition = .ok model ∧ stage model.modelId = .ok "paper" ∧
      Installed config model := by
  unfold loadConfig at h
  obtain ⟨entries, -, h⟩ := Risk.bind_eq_ok h
  obtain ⟨installed, hinstalled, h⟩ := Risk.bind_eq_ok h
  split at h
  · cases h
  · cases h
    unfold installModel at hinstalled
    split at hinstalled
    · next hempty =>
      cases hinstalled
      exact absurd hempty hnamed
    · obtain ⟨model, hmodel, hinstalled⟩ := Risk.bind_eq_ok hinstalled
      obtain ⟨value, hvalue, hinstalled⟩ := Risk.bind_eq_ok hinstalled
      split at hinstalled
      · cases hinstalled
      · next hpaper =>
        cases hinstalled
        exact ⟨model, hmodel, not_not.mp hpaper ▸ hvalue, rfl, rfl, rfl, rfl⟩

end Sentum
