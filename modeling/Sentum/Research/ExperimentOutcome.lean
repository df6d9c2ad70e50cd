import Sentum.Lib.Unwinding
import Sentum.Research.ExperimentProvenance
import Sentum.Research.PortfolioResearch
import Sentum.Research.TrialErrors

/-!
# How an experiment ends

`ExperimentRunner::run`, cut where the file system or the database can fail it.
Before the `try` block a failure leaves no row or one that says `started`, in
it an exception is recorded, and one in a worker thread ends the process:

    Recorded … ↔ FailsInStage …                                   (recorded_iff)
-/

namespace Sentum.Research

open Sentum Market Strategy Risk Trader Backtest Unwinding

/-! ## What a run writes -/

/-- `ExperimentManifest`, with what `materialize` does not use. -/
structure RunManifest extends ExperimentManifest where
  name : String
  kind : String
  status : String := "started"
  startedAtMs : Int
  finishedAtMs : Int := 0
  gitCommit : String
  configSha256 : String
  riskSha256 : String
  artifacts : List String := []
deriving DecidableEq

/-- A row of `research_runs`. -/
structure RunRow where
  runId : String
  name : String
  kind : String
  status : String
  startedAtMs : Int
  finishedAtMs : Int
  gitCommit : String
  configSha256 : String
  riskSha256 : String
  outputDirectory : String
deriving DecidableEq

def RunManifest.row (m : RunManifest) : RunRow :=
  { runId := m.runId, name := m.name, kind := m.kind, status := m.status, startedAtMs := m.startedAtMs
    finishedAtMs := m.finishedAtMs, gitCommit := m.gitCommit, configSha256 := m.configSha256
    riskSha256 := m.riskSha256, outputDirectory := m.outputDirectory }

/-- A row of `research_artifacts`. -/
structure ArtifactRow where
  runId : String
  path : String
  sha256 : String
deriving DecidableEq

/-- The manifest in hand, the files, and what the run has inserted into the
registry.  All rows of `runs` have one key: the last one stays. -/
structure RunState (File : Type) where
  manifest : RunManifest
  disk : Disk File := []
  runs : List RunRow := []
  datasets : ExperimentRepository := []
  artifacts : List ArtifactRow := []

/-! ## What a run meets outside -/

/-- Manifest and rows are written before the research and after it. -/
inductive Pass where
  | started | final

inductive Operation where
  | createDirectories
  | copySpec | copyCatalog | copyRisk
  | openRegistry
  | writeManifest (pass : Pass)
  | insertRun (pass : Pass)
  | insertDataset (pass : Pass) (i : Nat)
  /-- research.json and trials.csv -/
  | writeArtifacts
  /-- `build_research_visualization` included -/
  | writeVisualization
  | writePortfolio
  | copyConfig

structure RunHost (File : Type) extends Host File where
  /-- the exception that an operation throws, if it does -/
  fails : Operation → Option String
  /-- a configuration file, opened and parsed -/
  document : String → Except String Json
  /-- `Sha256::file` of an input -/
  hash : String → Except String String
  /-- what a `save` finds at the path of an artifact: its hash, or nothing; the
  exception if it cannot be hashed or inserted -/
  artifact : Pass → String → Except String (Option String)
  gitCommit : String
  startedAtMs : Int
  finishedAtMs : Int
  surroundings : Surroundings
  /-- `system_clock::now()` in `approve_entry`, at an event of a portfolio's dataset -/
  portfolioNow : Nat → Nat → TimePoint := fun _ _ => 0
  sorts : PortfolioSorts := .stable

/-- The statements of a `save` succeed. -/
structure RunHost.Saves {File : Type} (h : RunHost File) (pass : Pass) : Prop where
  run : h.fails (.insertRun pass) = none
  dataset : ∀ i, h.fails (.insertDataset pass i) = none
  artifact : ∀ path, ∃ found, h.artifact pass path = .ok found

/-! ## The run -/

def makeRunId (sha256 : String → String) (name configHash gitCommit : String) (startedAtMs : Int) : String :=
  let digest := sha256 (name ++ "|" ++ configHash ++ "|" ++ gitCommit ++ "|" ++ toString startedAtMs)
  toString startedAtMs ++ "-" ++ String.ofList (digest.toList.take 12)

/-- What a run has in hand when its directory has been created. -/
structure Begun where
  catalog : DatasetCatalog
  risk : RiskConfig
  manifest : RunManifest
deriving DecidableEq

namespace ExperimentRunner

variable {File : Type} [DecidableEq File] (h : RunHost File) (spec : ExperimentSpec)

/-- `run` as far as the directory of its output. -/
def createOutput (specPath : String) : Except String Begun := do
  let catalog ← h.document spec.datasetCatalog >>= DatasetCatalog.load
  let risk ← h.document spec.riskConfig >>= loadRiskConfig
  let configSha256 ← h.hash specPath
  let riskSha256 ← h.hash spec.riskConfig
  let runId := makeRunId h.sha256 spec.name configSha256 h.gitCommit h.startedAtMs
  let outputDirectory := joinPath spec.outputRoot runId
  match h.fails .createDirectories with
  | some what => .error what
  | none => return {
      catalog, risk
      manifest := { runId, outputDirectory, name := spec.name, kind := spec.kind, startedAtMs := h.startedAtMs
                    gitCommit := h.gitCommit, configSha256, riskSha256 } }

abbrev Run (File α : Type) : Type := Program (RunState File) String α

open Program

def attempt (op : Operation) : Run File Unit :=
  match h.fails op with
  | some what => raise what
  | none => pure ()

def setManifest (f : RunManifest → RunManifest) : Run File Unit := modify fun s => { s with manifest := f s.manifest }

def addArtifacts (names : List String) : Run File Unit :=
  setManifest fun m => { m with artifacts := m.artifacts ++ names.map (joinPath m.outputDirectory) }

/-- `ExperimentRepository::save`; there is no transaction. -/
def save (pass : Pass) : Run File Unit := do
  let m ← read RunState.manifest
  attempt h (.insertRun pass)
  modify fun s => { s with runs := s.runs ++ [m.row] }
  forEach m.datasets.zipIdx fun di => do
    attempt h (.insertDataset pass di.2)
    modify fun s => { s with datasets := s.datasets ++ [{ runId := m.runId, record := di.1 }] }
  forEach m.artifacts fun path => do
    match h.artifact pass path with
    | .error what => raise what
    -- an artifact that does not exist is passed over
    | .ok none => pure ()
    | .ok (some sha256) => modify fun s => { s with artifacts := s.artifacts ++ [{ runId := m.runId, path, sha256 }] }

/-- `write_manifest` and `save` -/
def publish (pass : Pass) : Run File Unit := do
  attempt h (.writeManifest pass)
  save h pass

/-- An exception leaves the files that it has written; nobody looks at them. -/
def materializeRun (catalog : DatasetCatalog) : Run File Unit := do
  let s ← read id
  let (m, disk) ← lift (materialize h.toHost catalog spec s.manifest.toExperimentManifest s.disk)
  modify fun s => { s with manifest := { s.manifest with toExperimentManifest := m }, disk }

/-- From there to the `try` block. -/
def prepare (catalog : DatasetCatalog) : Run File Unit := do
  attempt h .copySpec
  attempt h .copyCatalog
  attempt h .copyRisk
  addArtifacts ["experiment.json", "dataset-catalog.json", "risk.json"]
  attempt h .openRegistry
  materializeRun h spec catalog
  publish h .started

def ofFailure {α : Type} : Except Failure α → Run File α
  | .ok a => pure a
  | .error (.thrown what) => raise what
  | .error (.terminated what) => terminate what

def readCsv (disk : Disk File) (path symbol : String) : Except String (List MarketEvent) :=
  match h.read disk path with
  | none => .error ("Cannot open replay file: " ++ path)
  | some text => HistoricalEventReader.readCsv text symbol

/-- `ResearchRunner(risk).run(config)`: the grid is checked before the dataset is read. -/
def research (risk : RiskConfig) (disk : Disk File) (config : ResearchConfig) : Except Failure ResearchSummary := do
  let _ ← (checkedTrialCount (config.effective risk)).mapError .thrown
  let events ← (readCsv h disk config.dataset config.symbol).mapError .thrown
  Research.run h.surroundings config risk events

def runSingle (risk : RiskConfig) : Run File Unit := do
  let config ← lift (h.document spec.researchConfig >>= loadResearchConfig)
  let s ← read id
  match s.manifest.datasets with
  -- `front` of an empty vector; a specification without datasets is not loaded
  | [] => terminate "undefined"
  | front :: _ =>
    let config := { config with dataset := front.materializedPath, symbol := front.symbol }
    let _ ← ofFailure (research h risk s.disk config)
    attempt h .writeArtifacts
    attempt h .writeVisualization
    addArtifacts ["research.json", "trials.csv", "research-visualization.json"]
    attempt h .copyConfig
    addArtifacts ["research-config.json"]

def runPortfolioStage (risk : RiskConfig) : Run File Unit := do
  let config ← lift (h.document spec.portfolioConfig >>= loadPortfolioResearchConfig)
  let s ← read id
  let datasets := (s.manifest.datasets.zip spec.datasets).map fun rs =>
    { path := rs.1.materializedPath, symbol := rs.1.symbol, weight := rs.2.weight : PortfolioDataset }
  let _ ← lift (runPortfolio h.surroundings.fn h.sorts (readCsv h s.disk) h.portfolioNow risk
    { config with datasets })
  attempt h .writePortfolio
  addArtifacts ["portfolio-research.json"]
  attempt h .copyConfig
  addArtifacts ["portfolio-config.json"]

/-- What the `try` block calls. -/
def stage (risk : RiskConfig) : Run File Unit :=
  if spec.kind = "research" then runSingle h spec risk else runPortfolioStage h spec risk

def finish (status : String) : Run File Unit :=
  setManifest fun m => { m with status, finishedAtMs := h.finishedAtMs }

/-- `catch (...)` -/
def recordFailure (what : String) : Run File Unit := do
  finish h "failed"
  publish h .final
  raise what

/-- `run` from where its directory has been created. -/
def conduct (begun : Begun) : Run File Unit := do
  prepare h spec begun.catalog
  catching (do stage h spec begun.risk; finish h "completed") (recordFailure h)
  publish h .final

/-- How it ends, and what it has written. -/
def outcome (begun : Begun) : Ending String Unit × RunState File := conduct h spec begun { manifest := begun.manifest }

/-! ## The property -/

/-- The row of the run ends with status `failed`, and the caller gets an error. -/
def Recorded (r : Ending String Unit × RunState File) : Prop :=
  (∃ what, r.1 = .threw what) ∧ r.2.runs.getLast?.map RunRow.status = some "failed"

/-- An exception leaves what the `try` block calls, and the manifest can be written after it. -/
def FailsInStage (begun : Begun) : Prop :=
  let prepared := prepare h spec begun.catalog { manifest := begun.manifest }
  prepared.1 = .returned () ∧ (∃ what, (stage h spec begun.risk prepared.2).1 = .threw what) ∧
    h.fails (.writeManifest .final) = none

/-! ## What the parts of a run leave alone -/

variable {h spec}

omit [DecidableEq File] in
theorem keeps_attempt {P : RunState File → Prop} (op : Operation) : Keeps P (attempt h op) := by
  unfold attempt
  split
  · exact keeps_raise _
  · exact keeps_pure ()

/-- No row says anything but `started`. -/
def Started (s : RunState File) : Prop :=
  s.manifest.status = "started" ∧ ∀ row ∈ s.runs, row.status = "started"

omit [DecidableEq File] in
theorem Started.not_failed {s : RunState File} (hs : Started s) :
    s.runs.getLast?.map RunRow.status ≠ some "failed" := by
  intro hlast
  obtain ⟨row, hrow, hstatus⟩ := Option.map_eq_some_iff.mp hlast
  have hstarted := hs.2 row (List.mem_of_getLast? hrow)
  rw [hstatus] at hstarted
  exact absurd hstarted (by decide)

omit [DecidableEq File] in
theorem keeps_save (pass : Pass) : Keeps Started (save h pass) := by
  refine keeps_read_bind fun s hs => (keeps_attempt _).bind fun _ => Keeps.bind (keeps_modify ?_) fun _ =>
    Keeps.bind (Keeps.forEach ?_ _) fun _ => Keeps.forEach ?_ _
  · rintro s' ⟨hstatus, hrows⟩
    refine ⟨hstatus, fun row hrow => ?_⟩
    rcases List.mem_append.mp hrow with hold | hnew
    · exact hrows row hold
    · rw [List.mem_singleton.mp hnew]
      exact hs.1
  · exact fun di => (keeps_attempt _).bind fun _ => keeps_modify fun _ hs' => hs'
  · intro path
    split
    · exact keeps_raise _
    · exact keeps_pure ()
    · exact keeps_modify fun _ hs' => hs'

theorem keeps_prepare (catalog : DatasetCatalog) : Keeps Started (prepare h spec catalog) := by
  refine (keeps_attempt _).bind fun _ => (keeps_attempt _).bind fun _ => (keeps_attempt _).bind fun _ =>
    Keeps.bind (keeps_modify fun _ hs => hs) fun _ => (keeps_attempt _).bind fun _ => Keeps.bind ?_ fun _ =>
      (keeps_attempt _).bind fun _ => keeps_save .started
  exact keeps_read_bind fun s _ => (keeps_lift _).bind fun md => keeps_modify fun _ hs => hs

omit [DecidableEq File] in
theorem keeps_ofFailure {α : Type} {P : RunState File → Prop} (x : Except Failure α) : Keeps P (ofFailure x) := by
  rcases x with (what | what) | a
  · exact keeps_raise what
  · exact keeps_terminate what
  · exact keeps_pure a

/-- The stage does not write to the registry. -/
theorem keeps_stage (risk : RiskConfig) (rows : List RunRow) :
    Keeps (fun s : RunState File => s.runs = rows) (stage h spec risk) := by
  have hadd : ∀ names, Keeps (fun s : RunState File => s.runs = rows) (addArtifacts names) :=
    fun names => keeps_modify fun _ hs => hs
  unfold stage
  split
  · refine (keeps_lift _).bind fun config => keeps_read_bind fun s _ => ?_
    split
    · exact keeps_terminate _
    · exact (keeps_ofFailure _).bind fun _ => (keeps_attempt _).bind fun _ => (keeps_attempt _).bind fun _ =>
        (hadd _).bind fun _ => (keeps_attempt _).bind fun _ => hadd _
  · exact (keeps_lift _).bind fun config => keeps_read_bind fun s _ => (keeps_lift _).bind fun _ =>
      (keeps_attempt _).bind fun _ => (hadd _).bind fun _ => (keeps_attempt _).bind fun _ => hadd _

omit [DecidableEq File] in
theorem attempt_succeeds {op : Operation} (hop : h.fails op = none) : attempt h op = pure () := by
  unfold attempt
  rw [hop]

omit [DecidableEq File] in
theorem attempt_fails {op : Operation} {what : String} (hop : h.fails op = some what) (s : RunState File) :
    attempt h op s = (.threw what, s) := by
  unfold attempt
  rw [hop]
  rfl

omit [DecidableEq File] in
/-- A `save` whose statements succeed. -/
theorem save_returned {pass : Pass} (hsaves : h.Saves pass) (s : RunState File) :
    ∃ s', save h pass s = (.returned (), s') ∧ s'.runs = s.runs ++ [s.manifest.row] := by
  have hrow : ∀ di : ExperimentDatasetRecord × Nat, Returns (fun s' : RunState File => s'.runs = s.runs ++ [s.manifest.row])
      (attempt h (.insertDataset pass di.2) >>= fun _ =>
        modify fun s' => { s' with datasets := s'.datasets ++ [{ runId := s.manifest.runId, record := di.1 }] }) := by
    intro di
    rw [attempt_succeeds (hsaves.dataset di.2)]
    exact returns_pure.bind (returns_modify fun _ hs => hs)
  have hartifact : ∀ path, Returns (fun s' : RunState File => s'.runs = s.runs ++ [s.manifest.row])
      (match h.artifact pass path with
        | .error what => raise what
        | .ok none => pure ()
        | .ok (some sha256) => modify fun s' =>
            { s' with artifacts := s'.artifacts ++ [{ runId := s.manifest.runId, path, sha256 }] }) := by
    intro path
    obtain ⟨found, hfound⟩ := hsaves.artifact path
    rw [hfound]
    cases found with
    | none => exact returns_pure
    | some sha256 => exact returns_modify fun _ hs => hs
  have hloops := (Returns.forEach fun di (_ : di ∈ s.manifest.datasets.zipIdx) => hrow di).bind
    (Returns.forEach fun path (_ : path ∈ s.manifest.artifacts) => hartifact path)
  obtain ⟨s', hrun, hrows⟩ := hloops { s with runs := s.runs ++ [s.manifest.row] } rfl
  refine ⟨s', ?_, hrows⟩
  unfold save
  rw [attempt_succeeds hsaves.run]
  exact hrun

omit [DecidableEq File] in
/-- The rows can be written: they are, if the manifest is. -/
theorem publish_ends (hsaves : h.Saves .final) (s : RunState File) :
    (∃ what, h.fails (.writeManifest .final) = some what ∧ publish h .final s = (.threw what, s)) ∨
      h.fails (.writeManifest .final) = none ∧
        ∃ s', publish h .final s = (.returned (), s') ∧ s'.runs = s.runs ++ [s.manifest.row] := by
  cases hop : h.fails (.writeManifest .final) with
  | some what => exact .inl ⟨what, rfl, bind_threw (attempt_fails hop s)⟩
  | none =>
    obtain ⟨s', hrun, hrows⟩ := save_returned hsaves s
    refine .inr ⟨rfl, s', ?_, hrows⟩
    unfold publish
    rw [attempt_succeeds hop]
    exact hrun

omit [DecidableEq File] in
theorem createOutput_status {specPath : String} {begun : Begun} (hbegun : createOutput h spec specPath = .ok begun) :
    begun.manifest.status = "started" := by
  unfold createOutput at hbegun
  obtain ⟨catalog, -, hbegun⟩ := bind_eq_ok hbegun
  obtain ⟨risk, -, hbegun⟩ := bind_eq_ok hbegun
  obtain ⟨configSha256, -, hbegun⟩ := bind_eq_ok hbegun
  obtain ⟨riskSha256, -, hbegun⟩ := bind_eq_ok hbegun
  split at hbegun
  · cases hbegun
  · cases hbegun
    rfl

/-! ## The ways out -/

section
variable {begun : Begun} {s₁ s₂ : RunState File} {what : String}

/-- A failure before the `try` block ends the run as it is. -/
theorem outcome_prepare_threw
    (hprepare : prepare h spec begun.catalog { manifest := begun.manifest } = (.threw what, s₁)) :
    outcome h spec begun = (.threw what, s₁) := bind_threw hprepare

theorem outcome_prepare_terminated
    (hprepare : prepare h spec begun.catalog { manifest := begun.manifest } = (.terminated what, s₁)) :
    outcome h spec begun = (.terminated what, s₁) := bind_terminated hprepare

theorem outcome_prepared
    (hprepare : prepare h spec begun.catalog { manifest := begun.manifest } = (.returned (), s₁)) :
    outcome h spec begun = (catching (do stage h spec begun.risk; finish h "completed") (recordFailure h) >>=
      fun _ => publish h .final) s₁ := bind_returned hprepare

/-- The manifest in hand is given its last status. -/
def finished (h : RunHost File) (status : String) (s : RunState File) : RunState File :=
  { s with manifest := { s.manifest with status, finishedAtMs := h.finishedAtMs } }

theorem outcome_completed
    (hprepare : prepare h spec begun.catalog { manifest := begun.manifest } = (.returned (), s₁))
    (hstage : stage h spec begun.risk s₁ = (.returned (), s₂)) :
    outcome h spec begun = publish h .final (finished h "completed" s₂) :=
  (outcome_prepared hprepare).trans (bind_returned (catching_returned (bind_returned hstage)))

theorem outcome_threw
    (hprepare : prepare h spec begun.catalog { manifest := begun.manifest } = (.returned (), s₁))
    (hstage : stage h spec begun.risk s₁ = (.threw what, s₂)) :
    outcome h spec begun = (recordFailure h what >>= fun _ => publish h .final) s₂ := by
  rw [outcome_prepared hprepare, bind_run, catching_threw (bind_threw hstage)]
  rfl

/-- **The process ends** with an exception of a worker thread: no handler runs,
and the row is as it was before the research. -/
theorem outcome_terminated
    (hprepare : prepare h spec begun.catalog { manifest := begun.manifest } = (.returned (), s₁))
    (hstage : stage h spec begun.risk s₁ = (.terminated what, s₂)) :
    outcome h spec begun = (.terminated what, s₂) ∧ s₂.runs = s₁.runs := by
  refine ⟨(outcome_prepared hprepare).trans (bind_terminated (catching_terminated (bind_terminated hstage))), ?_⟩
  have hrows : (stage h spec begun.risk s₁).2.runs = s₁.runs := keeps_stage begun.risk s₁.runs s₁ rfl
  rwa [hstage] at hrows

omit [DecidableEq File] in
/-- The `catch` block: the failure is recorded, if the manifest can be written. -/
theorem recordFailure_ends (hsaves : h.Saves .final) (what : String) (s : RunState File) :
    (∃ what' s', h.fails (.writeManifest .final) = some what' ∧ recordFailure h what s = (.threw what', s') ∧
        s'.runs = s.runs) ∨
      h.fails (.writeManifest .final) = none ∧ ∃ s' row, recordFailure h what s = (.threw what, s') ∧
        s'.runs = s.runs ++ [row] ∧ row.status = "failed" := by
  have hblock : recordFailure h what s = (publish h .final >>= fun _ => raise what) (finished h "failed" s) := rfl
  rw [hblock]
  rcases publish_ends hsaves (finished h "failed" s) with ⟨what', hop, hrun⟩ | ⟨hop, s', hrun, hrows⟩
  · exact .inl ⟨what', finished h "failed" s, hop, bind_threw hrun, rfl⟩
  · exact .inr ⟨hop, s', (finished h "failed" s).manifest.row, bind_returned hrun, hrows, rfl⟩

/-- **Failures on record.**  The last row of a run that has failed says so, and
its caller has got an error, exactly when an exception has left the `try` block
and the manifest could be written once more. -/
theorem recorded_iff {specPath : String} (hbegun : createOutput h spec specPath = .ok begun)
    (hsaves : h.Saves .final) (hfails : (outcome h spec begun).1 ≠ .returned ()) :
    Recorded (outcome h spec begun) ↔ FailsInStage h spec begun := by
  have hstart : Started ({ manifest := begun.manifest } : RunState File) :=
    ⟨createOutput_status hbegun, fun _ hrow => by cases hrow⟩
  have hkept : Started (prepare h spec begun.catalog { manifest := begun.manifest }).2 :=
    keeps_prepare begun.catalog _ hstart
  unfold FailsInStage
  rcases hprepare : prepare h spec begun.catalog { manifest := begun.manifest } with ⟨e, s₁⟩
  rw [hprepare] at hkept
  cases e with
  | threw what =>
    rw [outcome_prepare_threw hprepare]
    exact iff_of_false (fun hr => hkept.not_failed hr.2) (fun ⟨hr, _⟩ => by cases hr)
  | terminated what =>
    rw [outcome_prepare_terminated hprepare]
    exact iff_of_false (fun hr => hkept.not_failed hr.2) (fun ⟨hr, _⟩ => by cases hr)
  | returned =>
    dsimp only
    have hrows : (stage h spec begun.risk s₁).2.runs = s₁.runs := keeps_stage begun.risk s₁.runs s₁ rfl
    rcases hstage : stage h spec begun.risk s₁ with ⟨e, s₂⟩
    rw [hstage] at hrows
    cases e with
    | returned =>
      -- nothing has failed before the last writes, and the rows can be written
      rw [outcome_completed hprepare hstage] at hfails ⊢
      rcases publish_ends hsaves (finished h "completed" s₂) with ⟨what, hop, hrun⟩ | ⟨hop, s', hrun, -⟩
      · rw [hrun]
        exact iff_of_false (fun hr => hkept.not_failed (hrows ▸ hr.2)) (fun ⟨_, ⟨_, hno⟩, _⟩ => by cases hno)
      · rw [hrun] at hfails
        exact absurd rfl hfails
    | threw what =>
      rw [outcome_threw hprepare hstage]
      rcases recordFailure_ends hsaves what s₂ with
        ⟨what', s', hop, hrun, hsame⟩ | ⟨hop, s', row, hrun, hrow, hstatus⟩
      · rw [bind_threw hrun]
        refine iff_of_false (fun hr => hkept.not_failed ?_) (fun ⟨_, _, hno⟩ => ?_)
        · rw [← hrows, ← hsame]
          exact hr.2
        · rw [hop] at hno
          cases hno
      · rw [bind_threw hrun]
        refine iff_of_true ⟨⟨what, rfl⟩, ?_⟩ ⟨rfl, ⟨what, rfl⟩, hop⟩
        simp [hrow, hstatus]
    | terminated what =>
      rw [(outcome_terminated hprepare hstage).1]
      exact iff_of_false (fun ⟨⟨_, hr⟩, _⟩ => by cases hr) (fun ⟨_, ⟨_, hno⟩, _⟩ => by cases hno)

end

end ExperimentRunner

/-! ## An exception in a worker thread -/

namespace ExperimentRunner

section
variable {File : Type} [DecidableEq File] {h : RunHost File} {spec : ExperimentSpec} {begun : Begun}
  {s₁ : RunState File} {config : ResearchConfig} {front : ExperimentDatasetRecord}
  {rest : List ExperimentDatasetRecord} {events : List MarketEvent} {trialCount : Nat}

/-- **A failed run without a record**: its objective is unknown, which is noticed in a worker thread. -/
theorem outcome_unsupported (hkind : spec.kind = "research")
    (hprepare : prepare h spec begun.catalog { manifest := begun.manifest } = (.returned (), s₁))
    (hconfig : h.document spec.researchConfig >>= loadResearchConfig = .ok config)
    (hobjective : config.objective ∉ objectives) (hdatasets : s₁.manifest.datasets = front :: rest)
    (hread : readCsv h s₁.disk front.materializedPath front.symbol = .ok events)
    (hcount : checkedTrialCount (config.effective begun.risk) = .ok trialCount)
    (hevents : ¬ UInt64.ofNat events.length < 50) (hfolds : config.folds (UInt64.ofNat events.length) ≠ 0) :
    ∃ what, outcome h spec begun = (.terminated what, s₁) := by
  let used : ResearchConfig := { config with dataset := front.materializedPath, symbol := front.symbol }
  have hused : checkedTrialCount (used.effective begun.risk) = .ok trialCount := hcount
  obtain ⟨what, hsearch⟩ : ∃ what, search h.surroundings (used.effective begun.risk) begun.risk events =
      .error (.terminated what) := search_unsupported hobjective hused hevents hfolds
  have hresearch : research h begun.risk s₁.disk used = .error (.terminated what) := by
    have hrun : Research.run h.surroundings used begun.risk events = .error (.terminated what) := by
      unfold Research.run
      dsimp only
      rw [hsearch]
      rfl
    have hevents' : readCsv h s₁.disk used.dataset used.symbol = .ok events := hread
    unfold research
    rw [hused, hevents']
    exact hrun
  have hstage : stage h spec begun.risk s₁ = (.terminated what, s₁) := by
    unfold stage runSingle
    rw [if_pos hkind, hconfig]
    show (match s₁.manifest.datasets with
      | [] => _
      | front :: _ => _ : Run File Unit) s₁ = _
    rw [hdatasets]
    show (ofFailure (research h begun.risk s₁.disk used) >>= _) s₁ = _
    rw [hresearch]
    rfl
  exact ⟨what, (outcome_terminated hprepare hstage).1⟩

end

/-! ## Two runs -/

def catalogDocument : Json :=
  .object [("datasets", .array [
    .object [("id", .string "btc"), ("symbol", .string "BTCUSDT"), ("path", .string "btc.csv")]])]

/-- Nothing fails outside; the file of the only dataset has two events. -/
def exampleRunHost : RunHost String :=
  { exampleHost with
    sha256 := fun _ => "e3b0c44298fc1c14"
    fails := fun _ => none
    document := fun path =>
      if path = "datasets.json" then .ok catalogDocument
      else if path = "config/risk.json" then .ok shippedDocument
      else .ok (exampleDocument 5)
    hash := fun _ => .ok "e3b0c44298fc1c14"
    artifact := fun _ _ => .ok none
    gitCommit := "unknown", startedAtMs := 1000, finishedAtMs := 2000, surroundings := probe }

theorem exampleRunHost_saves (pass : Pass) : exampleRunHost.Saves pass := ⟨rfl, fun _ => rfl, fun _ => ⟨none, rfl⟩⟩

/-- A research experiment on one dataset. -/
def singleSpec (id : String) : ExperimentSpec :=
  { name := "r", datasetCatalog := "datasets.json", researchConfig := "research.json", datasets := [{ id }] }

def exampleBegun : Begun where
  catalog := [{ id := "btc", symbol := "BTCUSDT", path := "btc.csv" }]
  risk := shippedRisk
  manifest :=
    { runId := "1000-e3b0c44298fc", outputDirectory := "log/experiments/1000-e3b0c44298fc", name := "r"
      kind := "research", startedAtMs := 1000, gitCommit := "unknown", configSha256 := "e3b0c44298fc1c14"
      riskSha256 := "e3b0c44298fc1c14" }

/-- The dataset is too short: that is noticed in the `try` block. -/
theorem shortDataset_recorded : Recorded (outcome exampleRunHost (singleSpec "btc") exampleBegun) := by
  have hbegun : createOutput exampleRunHost (singleSpec "btc") "experiment.json" = .ok exampleBegun := by
    decide +kernel
  refine (recorded_iff hbegun (exampleRunHost_saves .final) (by decide +kernel)).mpr ⟨by decide +kernel, ?_, rfl⟩
  exact ⟨"Research robustness requires at least 50 events", by decide +kernel⟩

/-- The dataset is not in the catalog: no row tells of the run, whose directory exists. -/
theorem unknownDataset_not_recorded :
    createOutput exampleRunHost (singleSpec "sol") "experiment.json" = .ok exampleBegun ∧
      exampleRunHost.Saves .final ∧
      (outcome exampleRunHost (singleSpec "sol") exampleBegun).1 = .threw "Unknown dataset id: sol" ∧
      ¬ Recorded (outcome exampleRunHost (singleSpec "sol") exampleBegun) := by
  have hrows : (outcome exampleRunHost (singleSpec "sol") exampleBegun).2.runs = [] := by decide +kernel
  refine ⟨by decide +kernel, exampleRunHost_saves .final, by decide +kernel, fun hr => ?_⟩
  have hlast := hr.2
  rw [hrows] at hlast
  cases hlast

end ExperimentRunner

end Sentum.Research
