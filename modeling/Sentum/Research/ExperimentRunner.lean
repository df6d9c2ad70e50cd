import Sentum.Lib.LastPerKey
import Sentum.Research.DatasetCatalog

/-!
# Managed experiments

`loadExperimentSpec` reads the specification, `materialize` writes the slices
of its selections into the run's directory, hashes each and records it in the
manifest, and `save` puts the records into the registry.  A file holds what was
written to it last, a registry row what was inserted last under its key.

The source files belong to others: what selection number `i` finds at a path is
given.
-/

namespace Sentum.Research

open Sentum Market
open Sentum.Risk (bind_eq_ok)

/-! ## The specification -/

structure ExperimentDatasetSelection where
  id : String := ""
  fromMs : Int := 0
  toMs : Int := 0
  weight : ℚ := 1
deriving DecidableEq

structure ExperimentSpec where
  name : String := ""
  kind : String := "research"
  datasetCatalog : String := ""
  researchConfig : String := ""
  portfolioConfig : String := ""
  riskConfig : String := "config/risk.json"
  outputRoot : String := "log/experiments"
  registryPath : String := "log/experiments.sqlite3"
  datasets : List ExperimentDatasetSelection := []
deriving DecidableEq

/-- One round of the loop over `datasets`. -/
def loadDatasetSelection (item : Json) : Except String ExperimentDatasetSelection := do
  let id ← item.value Json.getString "id" ""
  let fromMs ← item.value Json.getInt64 "from_ms" 0
  let toMs ← item.value Json.getInt64 "to_ms" 0
  let weight ← item.value Json.getDouble "weight" 1
  if id = "" ∨ ¬ 0 < weight ∨ (0 < fromMs ∧ 0 < toMs ∧ toMs < fromMs) then
    .error "Invalid experiment dataset selection"
  else return { id := id, fromMs, toMs, weight }

def loadDatasets (json : Json) : Except String (List ExperimentDatasetSelection) :=
  match json.find? "datasets" with
  | some (.array []) => .error "Experiment requires datasets"
  | some (.array items) => items.mapM loadDatasetSelection
  | _ => .error "Experiment requires datasets"

/-- `load_experiment_spec` of a document that has been opened and parsed. -/
def loadExperimentSpec (json : Json) : Except String ExperimentSpec := do
  let name ← json.value Json.getString "name" ""
  let kind ← json.value Json.getString "kind" "research"
  let datasetCatalog ← json.value Json.getString "dataset_catalog" ""
  let researchConfig ← json.value Json.getString "research_config" ""
  let portfolioConfig ← json.value Json.getString "portfolio_config" ""
  let riskConfig ← json.value Json.getString "risk_config" "config/risk.json"
  let outputRoot ← json.value Json.getString "output_root" "log/experiments"
  let registryPath ← json.value Json.getString "registry_path" "log/experiments.sqlite3"
  if name = "" ∨ datasetCatalog = "" then .error "Experiment requires name and dataset_catalog"
  else if kind ≠ "research" ∧ kind ≠ "portfolio" then
    .error "Experiment kind must be research or portfolio"
  else if kind = "research" ∧ researchConfig = "" then
    .error "Research experiment requires research_config"
  else if kind = "portfolio" ∧ portfolioConfig = "" then
    .error "Portfolio experiment requires portfolio_config"
  else do
    let datasets ← loadDatasets json
    if kind = "research" ∧ datasets.length ≠ 1 then
      .error "Single research experiment requires exactly one dataset selection"
    else return { name := name, kind, datasetCatalog, researchConfig, portfolioConfig, riskConfig,
                  outputRoot, registryPath, datasets }

/-- A research experiment has one selection. -/
theorem loadExperimentSpec_single {json : Json} {spec : ExperimentSpec}
    (h : loadExperimentSpec json = .ok spec) (hkind : spec.kind = "research") :
    ∃ selected, spec.datasets = [selected] := by
  unfold loadExperimentSpec at h
  obtain ⟨name, -, h⟩ := bind_eq_ok h
  obtain ⟨kind, -, h⟩ := bind_eq_ok h
  obtain ⟨datasetCatalog, -, h⟩ := bind_eq_ok h
  obtain ⟨researchConfig, -, h⟩ := bind_eq_ok h
  obtain ⟨portfolioConfig, -, h⟩ := bind_eq_ok h
  obtain ⟨riskConfig, -, h⟩ := bind_eq_ok h
  obtain ⟨outputRoot, -, h⟩ := bind_eq_ok h
  obtain ⟨registryPath, -, h⟩ := bind_eq_ok h
  split at h
  · cases h
  split at h
  · cases h
  split at h
  · cases h
  split at h
  · cases h
  obtain ⟨datasets, -, h⟩ := bind_eq_ok h
  split at h
  · cases h
  · next hsize =>
    cases h
    rw [not_and, not_not] at hsize
    exact List.length_eq_one_iff.mp (hsize hkind)

/-! ## Files and hashes -/

/-- What the program meets outside: the files, and how numbers and hashes come out. -/
structure Host (File : Type) where
  /-- what the `i`-th selection finds at a path; none if it cannot be opened -/
  source : Nat → String → Option String
  /-- the file that a path leads to when it is written -/
  locate : String → Option File
  number : ℚ → String
  sha256 : String → String

/-- The writes so far. -/
abbrev Disk (File : Type) : Type := List (File × String)

variable {File : Type} [DecidableEq File]

namespace Host

variable (h : Host File)

def read (disk : Disk File) (path : String) : Option String :=
  (h.locate path).bind fun file => (LastPerKey.last Prod.fst disk file).map Prod.snd

/-- `std::ofstream` with `trunc`, closed again. -/
def write (disk : Disk File) (path text : String) : Except String (Disk File) :=
  match h.locate path with
  | none => .error ("Cannot write dataset slice: " ++ path)
  | some file => .ok (disk ++ [(file, text)])

/-- `Sha256::file` -/
def hashFile (disk : Disk File) (path : String) : Except String String :=
  match h.read disk path with
  | none => .error ("Cannot hash file: " ++ path)
  | some bytes => .ok (h.sha256 bytes)

/-- The text that `write_selection_csv` prints for selection number `i`. -/
def selectionText (i : Nat) (selection : DatasetSelection) : Except String String :=
  match h.source i selection.dataset.path with
  | none => .error ("Cannot open replay file: " ++ selection.dataset.path)
  | some text => do
    let events ← loadSelection text selection
    return csvText h.number events

end Host

/-! ## The manifest -/

structure ExperimentDatasetRecord where
  datasetId : String
  symbol : String
  sourcePath : String
  materializedPath : String
  sha256 : String
  fromMs : Int
  toMs : Int
deriving DecidableEq

/-- What `materialize` uses of it. -/
structure ExperimentManifest where
  runId : String
  outputDirectory : String
  datasets : List ExperimentDatasetRecord := []
deriving DecidableEq

/-- `std::filesystem::path(left) / right` -/
def joinPath (left right : String) : String :=
  if right.toList.head? = some '/' then right
  else if left = "" ∨ left.toList.getLast? = some '/' then left ++ right
  else left ++ "/" ++ right

/-- Where the slice of a dataset is written. -/
def datasetPath (outputDirectory id : String) : String :=
  joinPath (joinPath outputDirectory "datasets") (id ++ ".csv")

/-- One round of the loop over `spec.datasets`. -/
def materializeOne (h : Host File) (catalog : DatasetCatalog) (m : ExperimentManifest) (disk : Disk File)
    (job : ExperimentDatasetSelection × Nat) : Except String (ExperimentManifest × Disk File) := do
  let entry ← catalog.byId job.1.id
  let selection : DatasetSelection := { dataset := entry, fromMs := job.1.fromMs, toMs := job.1.toMs }
  let output := datasetPath m.outputDirectory entry.id
  let text ← h.selectionText job.2 selection
  let disk ← h.write disk output text
  let sha256 ← h.hashFile disk output
  let record : ExperimentDatasetRecord := {
    datasetId := entry.id, symbol := entry.symbol, sourcePath := entry.path,
    materializedPath := output, sha256 := sha256,
    fromMs := selection.from_, toMs := selection.to_ }
  return ({ m with datasets := m.datasets ++ [record] }, disk)

def materializeAll (h : Host File) (catalog : DatasetCatalog) :
    List (ExperimentDatasetSelection × Nat) → ExperimentManifest → Disk File →
      Except String (ExperimentManifest × Disk File)
  | [], m, disk => .ok (m, disk)
  | job :: jobs, m, disk => do
    let (m, disk) ← materializeOne h catalog m disk job
    materializeAll h catalog jobs m disk

def materialize (h : Host File) (catalog : DatasetCatalog) (spec : ExperimentSpec)
    (m : ExperimentManifest) (disk : Disk File) : Except String (ExperimentManifest × Disk File) :=
  materializeAll h catalog spec.datasets.zipIdx m disk

/-! ## The registry -/

/-- A row of `research_datasets`. -/
structure DatasetRow where
  runId : String
  record : ExperimentDatasetRecord
deriving DecidableEq

/-- `PRIMARY KEY(run_id,dataset_id)` -/
def DatasetRow.key (row : DatasetRow) : String × String := (row.runId, row.record.datasetId)

/-- The inserts so far; a later one replaces the row of its key. -/
abbrev ExperimentRepository : Type := List DatasetRow

namespace ExperimentRepository

def row (repository : ExperimentRepository) (runId datasetId : String) : Option DatasetRow :=
  LastPerKey.last DatasetRow.key repository (runId, datasetId)

/-- The part of `save` that is about datasets. -/
def save (repository : ExperimentRepository) (m : ExperimentManifest) : ExperimentRepository :=
  repository ++ m.datasets.map fun record => { runId := m.runId, record }

end ExperimentRepository

end Sentum.Research
