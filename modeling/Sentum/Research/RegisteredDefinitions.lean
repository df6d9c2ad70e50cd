import Sentum.Lib.Run
import Sentum.Utils.ConfigLoader

/-!
# Registered definitions

A model definition is a file, and the text that was registered from it.
`promote` and `load_config` read the file; `World` has the files and the
registry, and a run edits the former at any time.

`decisions_registered_iff`: the decisions of a run are those the registered
definitions call for exactly when, at each of them, the file agrees with the
registered text in what the decision uses.
-/

namespace Sentum.Promotion

open Sentum Run ModelStage

/-- The files and the registry. -/
structure World where
  files : String → Option String
  registry : ModelRegistry := {}

inductive Operation where
  /-- a file is written, or removed -/
  | edit (path : String) (content : Option String)
  /-- `sentum_model register`, with the outcome of `validate_source_experiment` -/
  | register (path : String) (validated : Except String StageEvidence) (now : Int) (model evidence : Statement)
  /-- a shadow session or `sentum_model record-evidence` -/
  | saveEvidence (modelId : String) (e : StageEvidence) (o : Statement)
  /-- `sentum_model promote` -/
  | promote (path : String) (target : ModelStage) (confirmation : String) (sql : PromoteStatements)
  /-- `load_config` of a parsed configuration -/
  | loadConfig (json : Json) (stage : Statement)

namespace World

-- nlohmann's parser
variable (parse : String → Except String Json)

/-- `load_model_definition(path)` -/
def loadModelFile (w : World) (path : String) : Except String ModelDefinition :=
  match w.files path with
  | none => .error ("Cannot open model definition: " ++ path)
  | some text => (parse text).bind loadModelDefinition

/-- `read_all` -/
def readAll (w : World) (path : String) : Except String String :=
  match w.files path with
  | none => .error ("Cannot open file: " ++ path)
  | some text => .ok text

/-- `sentum_model register` -/
def register (w : World) (path : String) (validated : Except String StageEvidence) (now : Int)
    (model evidence : Statement) : ModelRegistry :=
  match w.loadModelFile parse path, validated, w.readAll path with
  | .ok d, .ok e, .ok text =>
    match w.registry.registerModel d text now model with
    | (registry, .error _) => registry
    | (registry, .ok _) => (registry.saveEvidence d.modelId e evidence).1
  | _, _, _ => w.registry

/-- The configuration that `load_config` accepts. -/
def config (w : World) (json : Json) (stage : Statement) : Except String Config :=
  Sentum.loadConfig json (w.loadModelFile parse) fun modelId => w.registry.stage modelId stage

def step (w : World) : Operation → World
  | .edit path content => { w with files := Function.update w.files path content }
  | .register path validated now model evidence =>
    { w with registry := w.register parse path validated now model evidence }
  | .saveEvidence modelId e o => { w with registry := (w.registry.saveEvidence modelId e o).1 }
  | .promote path target confirmation sql =>
    match w.loadModelFile parse path with
    | .error _ => w
    | .ok d => { w with registry := (w.registry.promote d target confirmation sql).1 }
  | .loadConfig _ _ => w

/-- The definition in a registered text. -/
def definitionOf (row : ModelRow) : Except String ModelDefinition := (parse row.definitionJson).bind loadModelDefinition

/-- The definition registered for a model. -/
def Registered (w : World) (modelId : String) (reg : ModelDefinition) : Prop :=
  ∃ row, w.registry.models modelId = some row ∧ definitionOf parse row = .ok reg

/-- A promotion that succeeds had evidence that passes the registered policy,
and an accepted configuration has the strategy, the symbol and the risk
configuration of a registered model at stage paper. -/
def Decides (w : World) : Operation → Prop
  | .promote path target confirmation sql =>
    ∀ d, w.loadModelFile parse path = .ok d → (w.registry.promote d target confirmation sql).2 = .ok () →
      ∃ reg current evidence, w.Registered parse d.modelId reg ∧
        ModelRegistry.Admits w.registry d target confirmation sql current evidence ∧
        (passesPolicy evidence reg.policy).1 = true
  | .loadConfig json stage =>
    ∀ config, w.config parse json stage = .ok config → config.paperModelDefinition ≠ "" →
      ∃ reg row, w.Registered parse config.paperModelId reg ∧
        w.registry.models config.paperModelId = some row ∧ row.stage = "paper" ∧
        config.strategy = reg.strategy ∧ config.paperSymbol = reg.symbol ∧
        config.paperRiskConfigPath = reg.riskConfig
  | _ => True

/-- The file a decision reads agrees with the registered text: evidence that is
enough for its policy is enough for the registered one, and it has the
registered strategy, symbol and risk configuration. -/
def FileAgrees (w : World) : Operation → Prop
  | .promote path target confirmation sql =>
    ∀ d reg current evidence, w.loadModelFile parse path = .ok d → w.Registered parse d.modelId reg →
      ModelRegistry.Admits w.registry d target confirmation sql current evidence →
      sql.event = .done → sql.update = .done →
      (passesPolicy evidence d.policy).1 = true → (passesPolicy evidence reg.policy).1 = true
  | .loadConfig json stage =>
    ∀ config d reg, w.config parse json stage = .ok config → config.paperModelDefinition ≠ "" →
      w.loadModelFile parse config.paperModelDefinition = .ok d → w.Registered parse d.modelId reg →
      d.strategy = reg.strategy ∧ d.symbol = reg.symbol ∧ d.riskConfig = reg.riskConfig
  | _ => True

/-- **Invariant**: every registered text is a definition of its model. -/
def Readable (w : World) : Prop :=
  ∀ modelId row, w.registry.models modelId = some row → ∃ reg, definitionOf parse row = .ok reg

section
variable {parse} {w w' : World}

/-- Every registered text was registered before. -/
theorem Readable.same (h : w.Readable parse)
    (htexts : ∀ modelId row', w'.registry.models modelId = some row' →
      ∃ row, w.registry.models modelId = some row ∧ row'.definitionJson = row.definitionJson) :
    w'.Readable parse := by
  intro modelId row' hrow'
  obtain ⟨row, hrow, htext⟩ := htexts modelId row' hrow'
  unfold definitionOf
  rw [htext]
  exact h modelId row hrow

theorem loadModelFile_ok {path : String} {d : ModelDefinition} (h : w.loadModelFile parse path = .ok d) :
    ∃ text, w.readAll path = .ok text ∧ (parse text).bind loadModelDefinition = .ok d := by
  unfold loadModelFile at h
  unfold readAll
  cases htext : w.files path with
  | none =>
    rw [htext] at h
    cases h
  | some text =>
    rw [htext] at h
    exact ⟨text, rfl, h⟩

/-- What `register` stores is the text of the file it has loaded. -/
theorem Readable.register (h : w.Readable parse) (path : String) (validated : Except String StageEvidence) (now : Int)
    (model evidence : Statement) :
    Readable parse { w with registry := w.register parse path validated now model evidence } := by
  intro modelId row hrow
  cases hd : w.loadModelFile parse path with
  | error what =>
    simp only [World.register, hd] at hrow
    exact h modelId row hrow
  | ok d =>
    cases validated with
    | error what =>
      simp only [World.register, hd] at hrow
      exact h modelId row hrow
    | ok e =>
      obtain ⟨text, htext, hload⟩ := loadModelFile_ok hd
      simp only [World.register, hd, htext] at hrow
      cases model with
      | prepareFails what => exact h modelId row hrow
      | stepFails what => exact h modelId row hrow
      | done =>
        have hrow' : Function.update w.registry.models d.modelId
            (some (ModelRegistry.registeredRow (w.registry.models d.modelId) d text now)) modelId = some row := by
          cases evidence <;> exact hrow
        by_cases hid : modelId = d.modelId
        · rw [hid, Function.update_self] at hrow'
          cases hrow'
          exact ⟨d, hload⟩
        · rw [Function.update_of_ne hid] at hrow'
          exact h modelId row hrow'

/-- `promote` keeps the texts. -/
theorem promote_texts (r : ModelRegistry) (d : ModelDefinition) (target : ModelStage) (confirmation : String)
    (sql : PromoteStatements) (modelId : String) (row' : ModelRow)
    (h : (r.promote d target confirmation sql).1.models modelId = some row') :
    ∃ row, r.models modelId = some row ∧ row'.definitionJson = row.definitionJson := by
  have houtcome := r.promote_outcome d target confirmation sql
  generalize r.promote d target confirmation sql = result at h houtcome
  cases houtcome with
  | promoted current evidence hadmits hevent hpasses hupdate =>
    simp only [ModelRegistry.moved, ModelRegistry.recorded] at h
    by_cases hid : modelId = d.modelId
    · subst hid
      rw [Function.update_self, Option.map_eq_some_iff] at h
      obtain ⟨row, hrow, rfl⟩ := h
      exact ⟨row, hrow, rfl⟩
    · rw [Function.update_of_ne hid] at h
      exact ⟨row', h, rfl⟩
  | _ => exact ⟨row', h, rfl⟩

/-- **Step lemma.** -/
theorem Readable.step (h : w.Readable parse) (op : Operation) : (w.step parse op).Readable parse := by
  cases op with
  | edit path content => exact h
  | register path validated now model evidence => exact h.register path validated now model evidence
  | saveEvidence modelId e o =>
    refine h.same fun modelId row' hrow' => ⟨row', ?_, rfl⟩
    cases o <;> exact hrow'
  | promote path target confirmation sql =>
    simp only [World.step]
    split
    · exact h
    · exact h.same fun modelId row' hrow' => promote_texts _ _ _ _ _ _ _ hrow'
  | loadConfig json stage => exact h

theorem Registered.unique {modelId : String} {reg reg' : ModelDefinition} (h : w.Registered parse modelId reg)
    (h' : w.Registered parse modelId reg') : reg = reg' := by
  obtain ⟨row, hrow, hreg⟩ := h
  obtain ⟨row', hrow', hreg'⟩ := h'
  cases hrow.symm.trans hrow'
  exact Except.ok.inj (hreg.symm.trans hreg')

/-- A promotion goes through when the evidence passes the policy of the file. -/
theorem promote_ok_iff {r : ModelRegistry} {d : ModelDefinition} {target : ModelStage} {confirmation : String}
    {sql : PromoteStatements} : (r.promote d target confirmation sql).2 = .ok () ↔
      ∃ current evidence, ModelRegistry.Admits r d target confirmation sql current evidence ∧ sql.event = .done ∧
        sql.update = .done ∧ (passesPolicy evidence d.policy).1 = true := by
  have houtcome := r.promote_outcome d target confirmation sql
  generalize r.promote d target confirmation sql = result at houtcome
  constructor
  · intro h
    cases houtcome with
    | promoted current evidence hadmits hevent hpasses hupdate =>
      exact ⟨current, evidence, hadmits, hevent, hupdate, hpasses⟩
    | _ => cases h
  · rintro ⟨current, evidence, hadmits, hevent, hupdate, hpasses⟩
    cases houtcome with
    | notAdmitted what h => exact absurd hadmits (h current evidence)
    | notRecorded what h => exact absurd hevent h
    | blocked what current' evidence' hadmits' hevent' hfails =>
      obtain ⟨-, rfl⟩ := hadmits.unique hadmits'
      rw [hpasses] at hfails
      cases hfails
    | notUpdated what current' evidence' hadmits' hevent' hpasses' hupdate' => exact absurd hupdate hupdate'
    | promoted current' evidence' hadmits' hevent' hpasses' hupdate' => rfl

/-- `load_config` decides by the file, so it has to agree. -/
theorem decides_loadConfig_iff (h : w.Readable parse) (json : Json) (stage : Statement) :
    w.Decides parse (.loadConfig json stage) ↔ w.FileAgrees parse (.loadConfig json stage) := by
  constructor
  · intro hdecides config d reg hconfig hnamed hd hreg
    obtain ⟨reg', row, hreg', -, -, hstrategy, hsymbol, hrisk⟩ := hdecides config hconfig hnamed
    obtain ⟨model, hmodel, -, hinstalled⟩ := loadConfig_installed hconfig hnamed
    cases hd.symm.trans hmodel
    rw [hinstalled.modelId] at hreg'
    cases hreg.unique hreg'
    exact ⟨hinstalled.strategy.symm.trans hstrategy, hinstalled.symbol.symm.trans hsymbol,
      hinstalled.riskConfig.symm.trans hrisk⟩
  · intro hagrees config hconfig hnamed
    obtain ⟨model, hmodel, hstage, hinstalled⟩ := loadConfig_installed hconfig hnamed
    obtain ⟨-, row, hrow, hpaper⟩ := ModelRegistry.stage_ok hstage
    obtain ⟨reg, hreg⟩ := h model.modelId row hrow
    obtain ⟨hstrategy, hsymbol, hrisk⟩ := hagrees config model reg hconfig hnamed hmodel ⟨row, hrow, hreg⟩
    refine ⟨reg, row, ?_, ?_, hpaper, hinstalled.strategy.trans hstrategy, hinstalled.symbol.trans hsymbol,
      hinstalled.riskConfig.trans hrisk⟩
    · rw [hinstalled.modelId]
      exact ⟨row, hrow, hreg⟩
    · rw [hinstalled.modelId]
      exact hrow

/-- `promote` decides by the policy of the file. -/
theorem decides_promote_iff (h : w.Readable parse) (path : String) (target : ModelStage) (confirmation : String)
    (sql : PromoteStatements) :
    w.Decides parse (.promote path target confirmation sql) ↔
      w.FileAgrees parse (.promote path target confirmation sql) := by
  constructor
  · intro hdecides d reg current evidence hd hreg hadmits hevent hupdate hpasses
    obtain ⟨reg', current', evidence', hreg', hadmits', hpasses'⟩ :=
      hdecides d hd (promote_ok_iff.mpr ⟨current, evidence, hadmits, hevent, hupdate, hpasses⟩)
    obtain ⟨-, rfl⟩ := hadmits.unique hadmits'
    cases hreg.unique hreg'
    exact hpasses'
  · intro hagrees d hd hok
    obtain ⟨current, evidence, hadmits, hevent, hupdate, hpasses⟩ := promote_ok_iff.mp hok
    obtain ⟨row, hrow, -⟩ := hadmits.known
    obtain ⟨reg, hreg⟩ := h d.modelId row hrow
    have hregistered : w.Registered parse d.modelId reg := ⟨row, hrow, hreg⟩
    exact ⟨reg, current, evidence, hregistered, hadmits,
      hagrees d reg current evidence hd hregistered hadmits hevent hupdate hpasses⟩

theorem decides_iff (h : w.Readable parse) (op : Operation) : w.Decides parse op ↔ w.FileAgrees parse op := by
  cases op with
  | promote path target confirmation sql => exact decides_promote_iff h path target confirmation sql
  | loadConfig json stage => exact decides_loadConfig_iff h json stage
  | _ => exact Iff.rfl

end

/-- **Decisions act on the registered definitions** in a run exactly when at
each of them the file agrees with the registered text. -/
theorem decisions_registered_iff (files : String → Option String) (ops : List Operation) :
    Guarded (step parse) (Decides parse) { files } ops ↔ Guarded (step parse) (FileAgrees parse) { files } ops := by
  -- nothing is registered yet
  have hempty : Readable parse { files } := by
    intro modelId row h
    cases h
  have hstep : ∀ w op, Readable parse w → Readable parse (step parse w op) := fun w op h => h.step op
  have hiff : ∀ w op, Readable parse w → (Decides parse w op ↔ FileAgrees parse w op) := fun w op h => decides_iff h op
  exact guarded_congr_of_inv hstep hiff hempty

/-! ### A policy that is edited after the registration -/

/-- A definition that asks for a number of trades, as text and parsed. -/
def minTradesText (n : String) : String :=
  "\x7b\"model_id\": \"btc-momentum-v1\", \"symbol\": \"BTCUSDT\", \"source_experiment_run\": \"1767225600000-0123456789ab\", " ++
    "\"promotion_policy\": \x7b\"min_trades\": " ++ n ++ "\x7d\x7d"

def minTradesDocument (n : Int) : Json :=
  .object [("model_id", .string "btc-momentum-v1"), ("symbol", .string "BTCUSDT"),
    ("source_experiment_run", .string "1767225600000-0123456789ab"),
    ("promotion_policy", .object [("min_trades", .integer n)])]

def minTradesModel (n : Nat) : ModelDefinition :=
  { modelId := "btc-momentum-v1", name := "btc-momentum-v1", symbol := "BTCUSDT"
    sourceExperimentRun := "1767225600000-0123456789ab", strategy := .object [], policy := { minTrades := n } }

/-- The parser on two such texts. -/
def parseMinTrades (text : String) : Except String Json :=
  if text = minTradesText "100" then .ok (minTradesDocument 100)
  else if text = minTradesText "30" then .ok (minTradesDocument 30)
  else .error "[json.exception.parse_error.101] parse error"

/-- 100 trades are asked for at the registration, 30 in the file `promote` reads; the evidence has 40. -/
def loosenedRun : List Operation :=
  [.edit "config/model.json" (some (minTradesText "100")),
    .register "config/model.json" (.ok passingEvidence) 0 .done .done,
    .edit "config/model.json" (some (minTradesText "30")),
    .promote "config/model.json" .shadow "I_APPROVE_MODEL_PROMOTION" {}]

/-- Before the promotion. -/
def loosened : World := exec (step parseMinTrades) { files := fun _ => none } (loosenedRun.take 3)

theorem loosenedRun_not_decided :
    ¬ Guarded (step parseMinTrades) (Decides parseMinTrades) { files := fun _ => none } loosenedRun := by
  intro h
  have hpromote : loosened.Decides parseMinTrades
      (.promote "config/model.json" .shadow "I_APPROVE_MODEL_PROMOTION" {}) := h.2.2.2.1
  obtain ⟨reg, current, evidence, ⟨row, hrow, hreg⟩, hadmits, hpasses⟩ :=
    hpromote (minTradesModel 30) rfl (by decide +kernel)
  have hpolicy : (loosened.registry.models "btc-momentum-v1").map (fun row =>
      (definitionOf parseMinTrades row).map fun d => d.policy.minTrades) = some (.ok 100) := by decide +kernel
  have hstage : (loosened.registry.models "btc-momentum-v1").map ModelRow.stage = some "research" := by decide +kernel
  have hfound : loosened.registry.evidence? "btc-momentum-v1" "research" = some passingEvidence := by decide +kernel
  obtain ⟨row', hrow', hcurrent⟩ := hadmits.known
  have hid : (minTradesModel 30).modelId = "btc-momentum-v1" := rfl
  rw [hid] at hrow hrow'
  rw [hrow, Option.map_some, hreg] at hpolicy
  rw [hrow', Option.map_some, hcurrent] at hstage
  have hevidence := hadmits.found
  rw [hid, Option.some.inj hstage, hfound] at hevidence
  have htrades : evidence.trades < reg.policy.minTrades := by
    have hmin : reg.policy.minTrades = 100 := Except.ok.inj (Option.some.inj hpolicy)
    rw [hmin, ← Option.some.inj hevidence]
    decide
  rw [passesPolicy_of_trades htrades] at hpasses
  cases hpasses

end World

end Sentum.Promotion
