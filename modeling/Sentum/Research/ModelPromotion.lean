import Mathlib.Logic.Function.Basic
import Sentum.Backtest.Metrics
import Sentum.Lib.LastPerKey

/-!
# Model promotion

Model definitions, the promotion policy and the registry with its three
tables.  A statement that SQLite refuses, when it is prepared or when it is
stepped, throws and changes nothing; how every statement of a call is answered
is an argument of the call.

`promote_outcome` is all that a call of `promote` can do.
-/

namespace Sentum.Promotion

open Sentum Backtest

/-! ## Stages -/

inductive ModelStage where
  | research | shadow | paper | testnet
deriving DecidableEq

namespace ModelStage

def stageName : ModelStage → String
  | research => "research"
  | shadow => "shadow"
  | paper => "paper"
  | testnet => "testnet"

def parseStage (value : String) : Except String ModelStage :=
  if value = "research" then .ok research
  else if value = "shadow" then .ok shadow
  else if value = "paper" then .ok paper
  else if value = "testnet" then .ok testnet
  else .error ("Unsupported model stage: " ++ value)

def validTransition (current target : ModelStage) : Bool :=
  (current = research && target = shadow) || (current = shadow && target = paper) ||
    (current = paper && target = testnet)

/-- The stages before this one. -/
def lower : ModelStage → List ModelStage
  | research => []
  | shadow => [research]
  | paper => [research, shadow]
  | testnet => [research, shadow, paper]

@[simp] theorem parseStage_stageName (m : ModelStage) : parseStage m.stageName = .ok m := by
  cases m <;> rfl

theorem stageName_of_parseStage {value : String} {m : ModelStage} (h : parseStage value = .ok m) :
    value = m.stageName := by
  unfold parseStage at h
  repeat' split at h
  all_goals first | (cases h; assumption) | cases h

theorem stageName_injective {m n : ModelStage} (h : m.stageName = n.stageName) : m = n := by
  have hm := parseStage_stageName m
  rw [h, parseStage_stageName n] at hm
  exact (Except.ok.inj hm).symm

/-- A promotion adds the stage it leaves. -/
theorem lower_of_validTransition {current target : ModelStage} (h : validTransition current target = true) :
    target.lower = current.lower ++ [current] := by
  revert h
  cases current <;> cases target <;> decide

theorem not_mem_lower (m : ModelStage) : m ∉ m.lower := by
  cases m <;> decide

end ModelStage

open ModelStage

/-! ## Definitions and evidence -/

structure PromotionPolicy where
  minTrades : Nat := 30
  minNetProfit : ℚ := 0
  minProfitFactor : ℚ := 110 / 100
  minWinRate : ℚ := 45
  minSharpe : ℚ := 50 / 100
  /-- 0 disables the cap -/
  maxDrawdown : ℚ := 0
deriving DecidableEq

structure StageEvidence where
  stage : String := ""
  startedAtMs : Int := 0
  finishedAtMs : Int := 0
  trades : Nat := 0
  netProfit : ℚ := 0
  maxDrawdown : ℚ := 0
  profitFactor : WithTop ℚ := 0
  winRate : ℚ := 0
  expectancy : ℚ := 0
  sharpe : ℚ := 0
  sortino : ℚ := 0
  artifact : String := ""
deriving DecidableEq

structure ModelDefinition where
  modelId : String
  name : String
  symbol : String
  sourceExperimentRun : String
  sourceGitCommit : String := ""
  sourceConfigSha256 : String := ""
  riskConfig : String := "config/risk.json"
  strategy : Json
  policy : PromotionPolicy := {}

/-- The entry `promotion_policy`. -/
def loadPromotionPolicy (p : Json) : Except String PromotionPolicy := do
  let d : PromotionPolicy := {}
  let minTrades ← p.value Json.getSize "min_trades" d.minTrades
  let minNetProfit ← p.value Json.getDouble "min_net_profit" d.minNetProfit
  let minProfitFactor ← p.value Json.getDouble "min_profit_factor" d.minProfitFactor
  let minWinRate ← p.value Json.getDouble "min_win_rate" d.minWinRate
  let minSharpe ← p.value Json.getDouble "min_sharpe" d.minSharpe
  let maxDrawdown ← p.value Json.getDouble "max_drawdown" d.maxDrawdown
  return { minTrades, minNetProfit, minProfitFactor, minWinRate, minSharpe, maxDrawdown }

def isObject : Json → Bool
  | .object _ => true
  | _ => false

/-- `load_model_definition` of a document that has been opened and parsed. -/
def loadModelDefinition (j : Json) : Except String ModelDefinition := do
  let modelId ← j.value Json.getString "model_id" ""
  let name ← j.value Json.getString "name" modelId
  let symbol ← j.value Json.getString "symbol" ""
  let sourceExperimentRun ← j.value Json.getString "source_experiment_run" ""
  let sourceGitCommit ← j.value Json.getString "source_git_commit" ""
  let sourceConfigSha256 ← j.value Json.getString "source_config_sha256" ""
  let riskConfig ← j.value Json.getString "risk_config" "config/risk.json"
  let strategy ← j.value Except.ok "strategy" (.object [])
  let policy ←
    match j.find? "promotion_policy" with
    | some p => loadPromotionPolicy p
    | none => .ok {}
  if modelId = "" ∨ symbol = "" ∨ sourceExperimentRun = "" ∨ isObject strategy = false then
    .error "Model definition requires model_id, symbol, source_experiment_run and strategy"
  else
    return { modelId, name, symbol, sourceExperimentRun, sourceGitCommit, sourceConfigSha256, riskConfig, strategy
             policy }

def evidenceFromMetrics (stage : String) (m : BacktestMetrics) (start finish : Int) (artifact : String) :
    StageEvidence :=
  { stage, startedAtMs := start, finishedAtMs := finish, trades := m.trades, netProfit := m.netProfit
    maxDrawdown := m.maxDrawdown, profitFactor := m.profitFactor, winRate := m.winRate
    expectancy := m.expectancy, sharpe := m.sharpe, sortino := m.sortino, artifact }

/-- Whether the gates are passed, and `reason`. -/
def passesPolicy (e : StageEvidence) (p : PromotionPolicy) : Bool × String :=
  if e.trades < p.minTrades then (false, "insufficient trades")
  else if e.netProfit < p.minNetProfit then (false, "net profit below threshold")
  else if e.profitFactor = ⊤ ∨ e.profitFactor < (p.minProfitFactor : WithTop ℚ) then
    (false, "profit factor below threshold")
  else if e.winRate < p.minWinRate then (false, "win rate below threshold")
  else if e.sharpe < p.minSharpe then (false, "Sharpe below threshold")
  else if 0 < p.maxDrawdown ∧ p.maxDrawdown < e.maxDrawdown then (false, "drawdown above threshold")
  else (true, "promotion gates passed")

theorem passesPolicy_of_trades {e : StageEvidence} {p : PromotionPolicy} (h : e.trades < p.minTrades) :
    (passesPolicy e p).1 = false := by
  unfold passesPolicy
  rw [if_pos h]

/-! ## The registry -/

/-- How SQLite answers a statement. -/
inductive Statement where
  | done
  | prepareFails (what : String)
  | stepFails (what : String)
deriving DecidableEq

/-- A row of `models`, without its key. -/
structure ModelRow where
  name : String
  symbol : String
  stage : String
  sourceExperimentRun : String
  sourceGitCommit : String
  sourceConfigSha256 : String
  definitionJson : String
  createdAtMs : Int
  updatedAtMs : Int

/-- A row of `promotion_events`. -/
structure PromotionEvent where
  modelId : String
  fromStage : String
  toStage : String
  approved : Bool
  reason : String
  operatorConfirmation : String
  createdAtMs : Int
deriving DecidableEq

/-- The tables; rows without a key are in the order of their ids. -/
structure ModelRegistry where
  models : String → Option ModelRow := fun _ => none
  stageEvidence : List (String × StageEvidence) := []
  promotionEvents : List PromotionEvent := []

/-- The answers to the statements of a call of `promote`, and its times. -/
structure PromoteStatements where
  stage : Statement := .done
  evidence : Statement := .done
  event : Statement := .done
  update : Statement := .done
  recordedAtMs : Int := 0
  updatedAtMs : Int := 0

/-- A call of a `ModelRegistry`, with SQLite's answers. -/
inductive Call where
  | registerModel (d : ModelDefinition) (definitionJson : String) (now : Int) (o : Statement)
  | saveEvidence (modelId : String) (e : StageEvidence) (o : Statement)
  | promote (d : ModelDefinition) (target : ModelStage) (confirmation : String) (sql : PromoteStatements)

namespace ModelRegistry

/-- `prepare` and `done` of a statement that writes. -/
def execute (r : ModelRegistry) (o : Statement) (write : ModelRegistry → ModelRegistry) :
    ModelRegistry × Except String Unit :=
  match o with
  | .done => (write r, .ok ())
  | .prepareFails what | .stepFails what => (r, .error what)

/-- The row `register_model` leaves: an existing one keeps its stage and its age. -/
def registeredRow (old : Option ModelRow) (d : ModelDefinition) (definitionJson : String) (now : Int) : ModelRow :=
  { name := d.name, symbol := d.symbol
    stage := match old with
      | some row => row.stage
      | none => "research"
    sourceExperimentRun := d.sourceExperimentRun, sourceGitCommit := d.sourceGitCommit
    sourceConfigSha256 := d.sourceConfigSha256, definitionJson
    createdAtMs := match old with
      | some row => row.createdAtMs
      | none => now
    updatedAtMs := now }

def registerModel (r : ModelRegistry) (d : ModelDefinition) (definitionJson : String) (now : Int) (o : Statement) :
    ModelRegistry × Except String Unit :=
  r.execute o fun r =>
    { r with
      models := Function.update r.models d.modelId
        (some (registeredRow (r.models d.modelId) d definitionJson now)) }

def stage (r : ModelRegistry) (modelId : String) (o : Statement) : Except String String :=
  match o with
  | .prepareFails what => .error what
  | .stepFails _ => .error ("Unknown model: " ++ modelId)
  | .done =>
    match r.models modelId with
    | none => .error ("Unknown model: " ++ modelId)
    | some row => if row.stage = "" then .error ("Unknown model: " ++ modelId) else .ok row.stage

def saveEvidence (r : ModelRegistry) (modelId : String) (e : StageEvidence) (o : Statement) :
    ModelRegistry × Except String Unit :=
  r.execute o fun r => { r with stageEvidence := r.stageEvidence ++ [(modelId, e)] }

/-- The last row of a model and a stage. -/
def evidence? (r : ModelRegistry) (modelId stageValue : String) : Option StageEvidence :=
  (LastPerKey.last (fun row : String × StageEvidence => (row.1, row.2.stage)) r.stageEvidence
    (modelId, stageValue)).map Prod.snd

def latestEvidence (r : ModelRegistry) (modelId stageValue : String) (o : Statement) : Except String StageEvidence :=
  match o with
  | .prepareFails what => .error what
  | .stepFails _ => .error ("No stage evidence for " ++ stageValue)
  | .done =>
    match r.evidence? modelId stageValue with
    | none => .error ("No stage evidence for " ++ stageValue)
    | some e => .ok e

def recordEvent (r : ModelRegistry) (e : PromotionEvent) (o : Statement) : ModelRegistry × Except String Unit :=
  r.execute o fun r => { r with promotionEvents := r.promotionEvents ++ [e] }

/-- `UPDATE models SET stage=?,updated_at_ms=?` -/
def setStage (r : ModelRegistry) (modelId : String) (target : ModelStage) (now : Int) (o : Statement) :
    ModelRegistry × Except String Unit :=
  r.execute o fun r =>
    { r with
      models := Function.update r.models modelId
        ((r.models modelId).map fun row => { row with stage := target.stageName, updatedAtMs := now }) }

def approvalText : String := "I_APPROVE_MODEL_PROMOTION"

/-- `promote` up to the evidence: the stage the model is at and its latest evidence there. -/
def examine (r : ModelRegistry) (d : ModelDefinition) (target : ModelStage) (confirmation : String)
    (sql : PromoteStatements) : Except String (ModelStage × StageEvidence) := do
  if target = .research then .error "Cannot promote to research"
  else
    let current ← parseStage (← r.stage d.modelId sql.stage)
    if validTransition current target = false then
      .error ("Invalid promotion transition: " ++ current.stageName ++ " -> " ++ target.stageName)
    else if confirmation ≠ approvalText then .error "Explicit operator confirmation required"
    else
      let evidence ← r.latestEvidence d.modelId current.stageName sql.evidence
      return (current, evidence)

/-- What `promote` records about evidence it has found. -/
def attempt (d : ModelDefinition) (current target : ModelStage) (confirmation : String) (evidence : StageEvidence)
    (now : Int) : PromotionEvent :=
  { modelId := d.modelId, fromStage := current.stageName, toStage := target.stageName
    approved := (passesPolicy evidence d.policy).1, reason := (passesPolicy evidence d.policy).2
    operatorConfirmation := confirmation, createdAtMs := now }

def promote (r : ModelRegistry) (d : ModelDefinition) (target : ModelStage) (confirmation : String)
    (sql : PromoteStatements) : ModelRegistry × Except String Unit :=
  match r.examine d target confirmation sql with
  | .error what => (r, .error what)
  | .ok (current, evidence) =>
    match r.recordEvent (attempt d current target confirmation evidence sql.recordedAtMs) sql.event with
    | (r, .error what) => (r, .error what)
    | (r, .ok _) =>
      if (passesPolicy evidence d.policy).1 = false then
        (r, .error ("Promotion blocked: " ++ (passesPolicy evidence d.policy).2))
      else r.setStage d.modelId target sql.updatedAtMs sql.update

def call (r : ModelRegistry) : Call → ModelRegistry × Except String Unit
  | .registerModel d definitionJson now o => r.registerModel d definitionJson now o
  | .saveEvidence modelId e o => r.saveEvidence modelId e o
  | .promote d target confirmation sql => r.promote d target confirmation sql

/-! ## What a call does -/

/-- `promote` finds the model at `current`, with `evidence` to judge it by. -/
structure Admits (r : ModelRegistry) (d : ModelDefinition) (target : ModelStage) (confirmation : String)
    (sql : PromoteStatements) (current : ModelStage) (evidence : StageEvidence) : Prop where
  stageRead : sql.stage = .done
  known : ∃ row, r.models d.modelId = some row ∧ row.stage = current.stageName
  transition : validTransition current target = true
  confirmed : confirmation = approvalText
  evidenceRead : sql.evidence = .done
  found : r.evidence? d.modelId current.stageName = some evidence

theorem stage_done {r : ModelRegistry} {modelId : String} {row : ModelRow} {m : ModelStage}
    (hrow : r.models modelId = some row) (hm : row.stage = m.stageName) : r.stage modelId .done = .ok row.stage := by
  have hne : row.stage ≠ "" := by
    rw [hm]
    cases m <;> decide
  simp only [stage, hrow, if_neg hne]

theorem stage_ok {r : ModelRegistry} {modelId value : String} {o : Statement} (h : r.stage modelId o = .ok value) :
    o = .done ∧ ∃ row, r.models modelId = some row ∧ row.stage = value := by
  unfold stage at h
  cases o with
  | prepareFails what => cases h
  | stepFails what => cases h
  | done =>
    cases hrow : r.models modelId with
    | none =>
      rw [hrow] at h
      cases h
    | some row =>
      simp only [hrow] at h
      split at h
      · cases h
      · exact ⟨rfl, row, rfl, Except.ok.inj h⟩

theorem latestEvidence_ok {r : ModelRegistry} {modelId stageValue : String} {o : Statement} {e : StageEvidence} :
    r.latestEvidence modelId stageValue o = .ok e ↔ o = .done ∧ r.evidence? modelId stageValue = some e := by
  unfold latestEvidence
  cases o with
  | prepareFails what => simp
  | stepFails what => simp
  | done => cases r.evidence? modelId stageValue <;> simp

section
variable {r : ModelRegistry} {d : ModelDefinition} {target : ModelStage} {confirmation : String}
  {sql : PromoteStatements} {current : ModelStage} {evidence : StageEvidence}

theorem examine_eq_ok : r.examine d target confirmation sql = .ok (current, evidence) ↔
    Admits r d target confirmation sql current evidence := by
  constructor
  · intro h
    unfold examine at h
    split at h
    · cases h
    · obtain ⟨value, hvalue, h⟩ := Risk.bind_eq_ok h
      obtain ⟨stage, hstage, h⟩ := Risk.bind_eq_ok h
      split at h
      · cases h
      · next htransition =>
        split at h
        · cases h
        · next hconfirmed =>
          obtain ⟨e, he, h⟩ := Risk.bind_eq_ok h
          cases h
          obtain ⟨hread, row, hrow, hvalue⟩ := stage_ok hvalue
          obtain ⟨hevidence, hfound⟩ := latestEvidence_ok.mp he
          exact ⟨hread, ⟨row, hrow, hvalue.trans (stageName_of_parseStage hstage)⟩, by simpa using htransition,
            not_not.mp hconfirmed, hevidence, hfound⟩
  · rintro ⟨hread, ⟨row, hrow, hstage⟩, htransition, hconfirmed, hevidence, hfound⟩
    have htarget : target ≠ .research := by
      rintro rfl
      revert htransition
      cases current <;> decide
    have hvalue : r.stage d.modelId sql.stage = .ok current.stageName := by
      rw [hread, stage_done hrow hstage, hstage]
    have he : r.latestEvidence d.modelId current.stageName sql.evidence = .ok evidence :=
      latestEvidence_ok.mpr ⟨hevidence, hfound⟩
    unfold examine
    rw [if_neg htarget, hvalue]
    simp only [bind, Except.bind, parseStage_stageName, htransition, Bool.true_eq_false, if_false, hconfirmed,
      ne_eq, not_true_eq_false, he]
    rfl

/-- The registry with the attempt recorded. -/
def recorded (r : ModelRegistry) (d : ModelDefinition) (target : ModelStage) (confirmation : String)
    (sql : PromoteStatements) (current : ModelStage) (evidence : StageEvidence) : ModelRegistry :=
  { r with
    promotionEvents := r.promotionEvents ++ [attempt d current target confirmation evidence sql.recordedAtMs] }

/-- The registry with the model at its new stage. -/
def moved (r : ModelRegistry) (modelId : String) (target : ModelStage) (now : Int) : ModelRegistry :=
  { r with
    models := Function.update r.models modelId
      ((r.models modelId).map fun row => { row with stage := target.stageName, updatedAtMs := now }) }

/-- Every way a call of `promote` can go. -/
inductive Outcome (r : ModelRegistry) (d : ModelDefinition) (target : ModelStage) (confirmation : String)
    (sql : PromoteStatements) : ModelRegistry × Except String Unit → Prop
  | notAdmitted (what : String) (h : ∀ current evidence, ¬ Admits r d target confirmation sql current evidence) :
      Outcome r d target confirmation sql (r, .error what)
  | notRecorded (what : String) (h : sql.event ≠ .done) : Outcome r d target confirmation sql (r, .error what)
  | blocked (what : String) (current : ModelStage) (evidence : StageEvidence)
      (hadmits : Admits r d target confirmation sql current evidence) (hevent : sql.event = .done)
      (hfails : (passesPolicy evidence d.policy).1 = false) :
      Outcome r d target confirmation sql (recorded r d target confirmation sql current evidence, .error what)
  | notUpdated (what : String) (current : ModelStage) (evidence : StageEvidence)
      (hadmits : Admits r d target confirmation sql current evidence) (hevent : sql.event = .done)
      (hpasses : (passesPolicy evidence d.policy).1 = true) (hupdate : sql.update ≠ .done) :
      Outcome r d target confirmation sql (recorded r d target confirmation sql current evidence, .error what)
  | promoted (current : ModelStage) (evidence : StageEvidence)
      (hadmits : Admits r d target confirmation sql current evidence) (hevent : sql.event = .done)
      (hpasses : (passesPolicy evidence d.policy).1 = true) (hupdate : sql.update = .done) :
      Outcome r d target confirmation sql
        ((recorded r d target confirmation sql current evidence).moved d.modelId target sql.updatedAtMs, .ok ())

theorem execute_done (write : ModelRegistry → ModelRegistry) : r.execute .done write = (write r, .ok ()) := rfl

theorem execute_refused {o : Statement} (h : o ≠ .done) (write : ModelRegistry → ModelRegistry) :
    ∃ what, r.execute o write = (r, .error what) := by
  cases o with
  | done => exact absurd rfl h
  | prepareFails what => exact ⟨what, rfl⟩
  | stepFails what => exact ⟨what, rfl⟩

/-- **One call of `promote`.** -/
theorem promote_outcome (r : ModelRegistry) (d : ModelDefinition) (target : ModelStage) (confirmation : String)
    (sql : PromoteStatements) : Outcome r d target confirmation sql (r.promote d target confirmation sql) := by
  unfold promote
  cases hexamine : r.examine d target confirmation sql with
  | error what =>
    refine .notAdmitted what fun current evidence hadmits => ?_
    rw [examine_eq_ok.mpr hadmits] at hexamine
    cases hexamine
  | ok found =>
    obtain ⟨current, evidence⟩ := found
    have hadmits := examine_eq_ok.mp hexamine
    simp only [recordEvent]
    by_cases hevent : sql.event = .done
    · rw [hevent, execute_done]
      simp only
      cases hpasses : (passesPolicy evidence d.policy).1 with
      | false =>
        rw [if_pos rfl]
        exact .blocked _ current evidence hadmits hevent hpasses
      | true =>
        rw [if_neg (by decide)]
        unfold setStage
        by_cases hupdate : sql.update = .done
        · rw [hupdate, execute_done]
          exact .promoted current evidence hadmits hevent hpasses hupdate
        · obtain ⟨what, hwhat⟩ := execute_refused (r := recorded r d target confirmation sql current evidence)
            hupdate (fun r => r.moved d.modelId target sql.updatedAtMs)
          exact hwhat ▸ .notUpdated what current evidence hadmits hevent hpasses hupdate
    · obtain ⟨what, hwhat⟩ := execute_refused (r := r) hevent fun r =>
        { r with
          promotionEvents := r.promotionEvents ++ [attempt d current target confirmation evidence sql.recordedAtMs] }
      rw [hwhat]
      exact .notRecorded what hevent

/-- A call finds at most one stage and one piece of evidence. -/
theorem Admits.unique {current' : ModelStage} {evidence' : StageEvidence}
    (h : Admits r d target confirmation sql current evidence)
    (h' : Admits r d target confirmation sql current' evidence') : current = current' ∧ evidence = evidence' := by
  have heq := (examine_eq_ok.mpr h).symm.trans (examine_eq_ok.mpr h')
  exact Prod.mk.inj (Except.ok.inj heq)

end

end ModelRegistry

/-! ## config/model.example.json -/

/-- The document with a policy of its own. -/
def modelDocument (policy : List (String × Json)) : Json :=
  .object [("model_id", .string "btc-momentum-v1"), ("name", .string "BTC Momentum Candidate v1"),
    ("symbol", .string "BTCUSDT"), ("source_experiment_run", .string "1767225600000-0123456789ab"),
    ("risk_config", .string "config/risk.json"),
    ("strategy", .object [("type", .string "momentum"),
      ("parameters", .object [("lookback", .integer 20), ("entry_threshold", .float (1 / 1000))])]),
    ("promotion_policy", .object policy)]

def btcMomentum : ModelDefinition :=
  { modelId := "btc-momentum-v1", name := "BTC Momentum Candidate v1", symbol := "BTCUSDT"
    sourceExperimentRun := "1767225600000-0123456789ab"
    strategy := .object [("type", .string "momentum"),
      ("parameters", .object [("lookback", .integer 20), ("entry_threshold", .float (1 / 1000))])] }

example : loadModelDefinition (modelDocument []) = .ok btcMomentum := rfl

/-- Evidence that passes the default policy. -/
def passingEvidence : StageEvidence :=
  { stage := "research", trades := 40, netProfit := 120, profitFactor := ((3 / 2 : ℚ) : WithTop ℚ), winRate := 55
    sharpe := 1 }

end Sentum.Promotion
