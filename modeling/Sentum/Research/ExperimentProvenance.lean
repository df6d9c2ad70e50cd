import Sentum.Research.ExperimentRunner

/-!
# The provenance of an experiment

When the research stage starts, the manifest names for every selection of the
specification a file, its hash and its range.  `Provenance` is that this is
exact.  The files and rows are keyed by the dataset id, which the specification
may list twice, so it is exact when the writes do not meet:

    Provenance … ↔ Separate …                                    (provenance_iff)
-/

namespace Sentum.Research

open Sentum Market
open Sentum.Risk (bind_eq_ok)

variable {File : Type}

/-! ## The property -/

/-- The selections with their numbers, each with its record. -/
def recorded (spec : ExperimentSpec) (m : ExperimentManifest) :
    List ((ExperimentDatasetSelection × Nat) × ExperimentDatasetRecord) :=
  spec.datasets.zipIdx.zip m.datasets

/-- The events of the source file of a record, as its selection found it. -/
def Host.sourceEvents (h : Host File) (i : Nat) (r : ExperimentDatasetRecord) :
    Except String (List MarketEvent) :=
  match h.source i r.sourcePath with
  | none => .error ("Cannot open replay file: " ++ r.sourcePath)
  | some text => HistoricalEventReader.readCsv text r.symbol

structure Provenance [DecidableEq File] (h : Host File) (spec : ExperimentSpec) (m : ExperimentManifest)
    (disk : Disk File) (repository : ExperimentRepository) : Prop where
  hashed : ∀ r ∈ m.datasets, ∃ bytes, h.read disk r.materializedPath = some bytes ∧
    r.sha256 = h.sha256 bytes
  exact : ∀ p ∈ recorded spec m, ∃ events, h.sourceEvents p.1.2 p.2 = .ok events ∧
    h.read disk p.2.materializedPath = some (csvText h.number (selectRange p.2.fromMs p.2.toMs events))
  paths : ∀ p ∈ recorded spec m, ∀ q ∈ recorded spec m, p.1.1 ≠ q.1.1 →
    p.2.materializedPath ≠ q.2.materializedPath
  /-- the row of each record is its own -/
  rows : ∀ r ∈ m.datasets, repository.row m.runId r.datasetId = some { runId := m.runId, record := r }
  distinctRows : ∀ p ∈ recorded spec m, ∀ q ∈ recorded spec m, p.1.1 ≠ q.1.1 →
    repository.row m.runId p.2.datasetId ≠ repository.row m.runId q.2.datasetId

/-! ## The condition -/

/-- What a selection writes. -/
def Host.written (h : Host File) (catalog : DatasetCatalog) (job : ExperimentDatasetSelection × Nat) :
    Except String String := do
  let entry ← catalog.byId job.1.id
  h.selectionText job.2 { dataset := entry, fromMs := job.1.fromMs, toMs := job.1.toMs }

structure Separate (h : Host File) (catalog : DatasetCatalog) (spec : ExperimentSpec)
    (outputDirectory : String) : Prop where
  /-- different selections have different output paths -/
  paths : ∀ a ∈ spec.datasets, ∀ b ∈ spec.datasets, a ≠ b →
    datasetPath outputDirectory a.id ≠ datasetPath outputDirectory b.id
  /-- selections whose paths lead to one file select the same text -/
  files : ∀ a ∈ spec.datasets.zipIdx, ∀ b ∈ spec.datasets.zipIdx,
    h.locate (datasetPath outputDirectory a.1.id) = h.locate (datasetPath outputDirectory b.1.id) →
    h.written catalog a = h.written catalog b

/-- A research experiment has nothing that could meet. -/
theorem separate_of_research {json : Json} {spec : ExperimentSpec} (hspec : loadExperimentSpec json = .ok spec)
    (hkind : spec.kind = "research") (h : Host File) (catalog : DatasetCatalog) (directory : String) :
    Separate h catalog spec directory := by
  obtain ⟨selected, hsingle⟩ := loadExperimentSpec_single hspec hkind
  constructor
  · intro a ha b hb hne
    rw [hsingle, List.mem_singleton] at ha hb
    exact absurd (ha.trans hb.symm) hne
  · intro a ha b hb _
    rw [hsingle] at ha hb
    rw [List.mem_singleton.mp ha, List.mem_singleton.mp hb]

/-! ## What the loop leaves -/

/-- What one round has made of a selection. -/
structure Made (File : Type) where
  job : ExperimentDatasetSelection × Nat
  entry : DatasetEntry
  file : File
  text : String

namespace Made

def selection (x : Made File) : DatasetSelection :=
  { dataset := x.entry, fromMs := x.job.1.fromMs, toMs := x.job.1.toMs }

def record (h : Host File) (outputDirectory : String) (x : Made File) : ExperimentDatasetRecord :=
  { datasetId := x.entry.id, symbol := x.entry.symbol, sourcePath := x.entry.path,
    materializedPath := datasetPath outputDirectory x.entry.id, sha256 := h.sha256 x.text,
    fromMs := x.selection.from_, toMs := x.selection.to_ }

def write (x : Made File) : File × String := (x.file, x.text)

structure Sound (h : Host File) (catalog : DatasetCatalog) (outputDirectory : String) (x : Made File) :
    Prop where
  found : catalog.byId x.job.1.id = .ok x.entry
  text : h.selectionText x.job.2 x.selection = .ok x.text
  located : h.locate (datasetPath outputDirectory x.entry.id) = some x.file

variable {h : Host File} {catalog : DatasetCatalog} {directory : String} {x y : Made File}

theorem Sound.id_eq (hx : x.Sound h catalog directory) : x.entry.id = x.job.1.id :=
  DatasetCatalog.byId_id hx.found

theorem Sound.written (hx : x.Sound h catalog directory) : h.written catalog x.job = .ok x.text := by
  unfold Host.written
  rw [hx.found]
  exact hx.text

/-- Two rounds for one selection that wrote the same text made the same record. -/
theorem Sound.record_eq (hx : x.Sound h catalog directory) (hy : y.Sound h catalog directory)
    (hjob : x.job.1 = y.job.1) (htext : x.text = y.text) :
    x.record h directory = y.record h directory := by
  have hentry : x.entry = y.entry := by
    have := hx.found
    rw [hjob, hy.found] at this
    exact (Except.ok.inj this).symm
  unfold record selection
  rw [hjob, htext, hentry]

/-- The text is the range of the record, of the source as it was found. -/
theorem Sound.exact (hx : x.Sound h catalog directory) :
    ∃ events, h.sourceEvents x.job.2 (x.record h directory) = .ok events ∧
      x.text = csvText h.number (selectRange (x.record h directory).fromMs (x.record h directory).toMs
        events) := by
  have htext := hx.text
  unfold Host.selectionText at htext
  unfold Host.sourceEvents
  dsimp only [record, selection] at htext ⊢
  cases hsource : h.source x.job.2 x.entry.path with
  | none =>
    rw [hsource] at htext
    cases htext
  | some text =>
    rw [hsource] at htext
    obtain ⟨events, hevents, htext⟩ := bind_eq_ok htext
    obtain ⟨all, hall, rfl⟩ := loadSelection_selectRange hevents
    exact ⟨all, hall, (Except.ok.inj htext).symm⟩

/-- The manifest after the loop. -/
def manifest (h : Host File) (runId directory : String) (made : List (Made File)) : ExperimentManifest :=
  { runId, outputDirectory := directory, datasets := made.map (record h directory) }

/-- A row holds the record of the last round that inserted it. -/
theorem row_manifest (h : Host File) (directory : String) {made : List (Made File)}
    (repository : ExperimentRepository) (runId : String) (hx : x ∈ made) :
    ∃ y ∈ made, y.entry.id = x.entry.id ∧
      (repository.save (manifest h runId directory made)).row runId x.entry.id
        = some { runId, record := y.record h directory } := by
  have hmem : DatasetRow.mk runId (x.record h directory) ∈
      (made.map (record h directory)).map (DatasetRow.mk runId) :=
    List.mem_map_of_mem (List.mem_map_of_mem hx)
  obtain ⟨z, hz, hmem, hkey⟩ := LastPerKey.exists_last_of_mem DatasetRow.key repository hmem
  obtain ⟨r, hr, rfl⟩ := List.mem_map.mp hmem
  obtain ⟨y, hy, rfl⟩ := List.mem_map.mp hr
  exact ⟨y, hy, congrArg Prod.snd hkey, hz⟩

/-- Each selection stands beside the record that its round made. -/
theorem mem_recorded {spec : ExperimentSpec} {made : List (Made File)} (runId : String)
    (hjobs : made.map job = spec.datasets.zipIdx)
    {p : (ExperimentDatasetSelection × Nat) × ExperimentDatasetRecord} :
    p ∈ recorded spec (manifest h runId directory made) ↔
      ∃ x ∈ made, (x.job, x.record h directory) = p := by
  unfold recorded
  rw [← hjobs]
  show p ∈ (made.map job).zip (made.map (record h directory)) ↔ _
  rw [List.zip_map', List.mem_map]

theorem mem_datasets {spec : ExperimentSpec} {made : List (Made File)}
    (hjobs : made.map job = spec.datasets.zipIdx) {a : ExperimentDatasetSelection} :
    a ∈ spec.datasets ↔ ∃ x ∈ made, x.job.1 = a := by
  have hfst : spec.datasets = (made.map job).map Prod.fst := by rw [hjobs, List.zipIdx_map_fst]
  rw [hfst, List.map_map, List.mem_map]
  rfl

end Made

/-! ## Writes that do not meet -/

section
variable {h : Host File} {catalog : DatasetCatalog} {directory : String} {made : List (Made File)}
  {spec : ExperimentSpec}

/-- Rounds whose paths lead to one file have written the same text. -/
theorem Separate.text_eq (hs : Separate h catalog spec directory)
    (hjobs : made.map Made.job = spec.datasets.zipIdx) (hmade : ∀ x ∈ made, x.Sound h catalog directory)
    {x y : Made File} (hx : x ∈ made) (hy : y ∈ made) (hfile : x.file = y.file) : x.text = y.text := by
  have hlocate : h.locate (datasetPath directory x.job.1.id) = h.locate (datasetPath directory y.job.1.id) := by
    rw [← (hmade x hx).id_eq, ← (hmade y hy).id_eq, (hmade x hx).located, (hmade y hy).located, hfile]
  have hwritten := hs.files x.job (hjobs ▸ List.mem_map_of_mem hx) y.job (hjobs ▸ List.mem_map_of_mem hy) hlocate
  rw [(hmade x hx).written, (hmade y hy).written] at hwritten
  exact Except.ok.inj hwritten

theorem Separate.path_ne (hs : Separate h catalog spec directory)
    (hjobs : made.map Made.job = spec.datasets.zipIdx) (hmade : ∀ x ∈ made, x.Sound h catalog directory)
    {x y : Made File} (hx : x ∈ made) (hy : y ∈ made) (hne : x.job.1 ≠ y.job.1) :
    datasetPath directory x.entry.id ≠ datasetPath directory y.entry.id := by
  rw [(hmade x hx).id_eq, (hmade y hy).id_eq]
  exact hs.paths _ ((Made.mem_datasets hjobs).mpr ⟨x, hx, rfl⟩) _
    ((Made.mem_datasets hjobs).mpr ⟨y, hy, rfl⟩) hne

/-- The round that inserted a row last was for the same selection. -/
theorem Separate.row_eq (hs : Separate h catalog spec directory)
    (hjobs : made.map Made.job = spec.datasets.zipIdx) (hmade : ∀ x ∈ made, x.Sound h catalog directory)
    (runId : String) (repository : ExperimentRepository) {x : Made File} (hx : x ∈ made) :
    (repository.save (Made.manifest h runId directory made)).row runId x.entry.id
      = some { runId, record := x.record h directory } := by
  obtain ⟨y, hy, hsame, hrow⟩ := Made.row_manifest h directory repository runId hx
  have hjob : y.job.1 = x.job.1 := by
    by_contra hne
    exact hs.path_ne hjobs hmade hy hx hne (by rw [hsame])
  have hfile : y.file = x.file := by
    have := (hmade y hy).located
    rw [hsame, (hmade x hx).located] at this
    exact (Option.some.inj this).symm
  rw [hrow, (hmade y hy).record_eq (hmade x hx) hjob (hs.text_eq hjobs hmade hy hx hfile)]

end

/-! ## The loop -/

variable [DecidableEq File]

/-- **Step lemma.**  One round writes one file and adds its record. -/
theorem materializeOne_ok {h : Host File} {catalog : DatasetCatalog} {m m' : ExperimentManifest}
    {disk disk' : Disk File} {job : ExperimentDatasetSelection × Nat}
    (hm : materializeOne h catalog m disk job = .ok (m', disk')) :
    ∃ x : Made File, x.job = job ∧ x.Sound h catalog m.outputDirectory ∧
      m' = { m with datasets := m.datasets ++ [x.record h m.outputDirectory] } ∧
      disk' = disk ++ [x.write] := by
  unfold materializeOne at hm
  obtain ⟨entry, hentry, hm⟩ := bind_eq_ok hm
  obtain ⟨text, htext, hm⟩ := bind_eq_ok hm
  obtain ⟨written, hwrite, hm⟩ := bind_eq_ok hm
  obtain ⟨sha256, hsha, hm⟩ := bind_eq_ok hm
  unfold Host.write at hwrite
  split at hwrite
  · cases hwrite
  · next file hfile =>
    cases hwrite
    have hread : h.read (disk ++ [(file, text)]) (datasetPath m.outputDirectory entry.id) = some text := by
      unfold Host.read
      rw [hfile, Option.bind_some, LastPerKey.last_snoc, if_pos rfl]
      rfl
    unfold Host.hashFile at hsha
    rw [hread] at hsha
    cases hsha
    cases hm
    exact ⟨{ job, entry, file, text }, rfl, ⟨hentry, htext, hfile⟩, rfl, rfl⟩

/-- **Run lemma.** -/
theorem materializeAll_ok {h : Host File} {catalog : DatasetCatalog}
    {jobs : List (ExperimentDatasetSelection × Nat)} {m m' : ExperimentManifest} {disk disk' : Disk File}
    (hm : materializeAll h catalog jobs m disk = .ok (m', disk')) :
    ∃ made : List (Made File), made.map Made.job = jobs ∧
      (∀ x ∈ made, x.Sound h catalog m.outputDirectory) ∧
      m' = { m with datasets := m.datasets ++ made.map (Made.record h m.outputDirectory) } ∧
      disk' = disk ++ made.map Made.write := by
  induction jobs generalizing m disk with
  | nil =>
    cases hm
    exact ⟨[], rfl, fun x hx => absurd hx List.not_mem_nil, by simp, by simp⟩
  | cons job jobs ih =>
    rw [materializeAll] at hm
    obtain ⟨⟨m₁, disk₁⟩, hone, hm⟩ := bind_eq_ok hm
    obtain ⟨x, hjob, hx, rfl, rfl⟩ := materializeOne_ok hone
    obtain ⟨made, hjobs, hmade, rfl, rfl⟩ := ih hm
    refine ⟨x :: made, by rw [List.map_cons, hjob, hjobs], ?_, by simp, by simp⟩
    intro y hy
    rcases List.mem_cons.mp hy with rfl | hy
    · exact hx
    · exact hmade y hy

/-! ## Exactness -/

section
variable {h : Host File} {catalog : DatasetCatalog} {directory : String} {disk : Disk File}
  {made : List (Made File)} {spec : ExperimentSpec}

/-- A file that was written holds the text of the last round that wrote it. -/
theorem read_made (disk : Disk File) {x : Made File} (hx : x ∈ made) (hsound : x.Sound h catalog directory) :
    ∃ y ∈ made, y.file = x.file ∧
      h.read (disk ++ made.map Made.write) (datasetPath directory x.entry.id) = some y.text := by
  obtain ⟨z, hz, hmem, hfile⟩ := LastPerKey.exists_last_of_mem Prod.fst disk
    (List.mem_map_of_mem (f := Made.write) hx)
  obtain ⟨y, hy, rfl⟩ := List.mem_map.mp hmem
  refine ⟨y, hy, hfile, ?_⟩
  unfold Host.read
  rw [hsound.located, Option.bind_some]
  exact congrArg (Option.map Prod.snd) hz

/-- No round's file is lost to a later round. -/
theorem Separate.read_eq (hs : Separate h catalog spec directory)
    (hjobs : made.map Made.job = spec.datasets.zipIdx) (hmade : ∀ x ∈ made, x.Sound h catalog directory)
    (disk : Disk File) {x : Made File} (hx : x ∈ made) :
    h.read (disk ++ made.map Made.write) (datasetPath directory x.entry.id) = some x.text := by
  obtain ⟨y, hy, hfile, hread⟩ := read_made disk hx (hmade x hx)
  rw [hread, hs.text_eq hjobs hmade hy hx hfile]

theorem provenance_of_separate {runId : String} {repository : ExperimentRepository}
    (hjobs : made.map Made.job = spec.datasets.zipIdx)
    (hmade : ∀ x ∈ made, x.Sound h catalog directory) (hs : Separate h catalog spec directory) :
    Provenance h spec (Made.manifest h runId directory made) (disk ++ made.map Made.write)
      (repository.save (Made.manifest h runId directory made)) := by
  constructor
  · intro r hr
    obtain ⟨x, hx, rfl⟩ := List.mem_map.mp hr
    exact ⟨x.text, hs.read_eq hjobs hmade disk hx, rfl⟩
  · intro p hp
    obtain ⟨x, hx, rfl⟩ := (Made.mem_recorded runId hjobs).mp hp
    obtain ⟨events, hevents, hexact⟩ := (hmade x hx).exact
    exact ⟨events, hevents, hexact ▸ hs.read_eq hjobs hmade disk hx⟩
  · intro p hp q hq hne
    obtain ⟨x, hx, rfl⟩ := (Made.mem_recorded runId hjobs).mp hp
    obtain ⟨y, hy, rfl⟩ := (Made.mem_recorded runId hjobs).mp hq
    exact hs.path_ne hjobs hmade hx hy hne
  · intro r hr
    obtain ⟨x, hx, rfl⟩ := List.mem_map.mp hr
    exact hs.row_eq hjobs hmade runId repository hx
  · intro p hp q hq hne hrows
    obtain ⟨x, hx, rfl⟩ := (Made.mem_recorded runId hjobs).mp hp
    obtain ⟨y, hy, rfl⟩ := (Made.mem_recorded runId hjobs).mp hq
    have hsame := (hs.row_eq hjobs hmade runId repository hx).symm.trans
      (hrows.trans (hs.row_eq hjobs hmade runId repository hy))
    have hrecord := congrArg DatasetRow.record (Option.some.inj hsame)
    exact hs.path_ne hjobs hmade hx hy hne (congrArg ExperimentDatasetRecord.materializedPath hrecord)

theorem separate_of_provenance {runId : String} {repository : ExperimentRepository}
    (hjobs : made.map Made.job = spec.datasets.zipIdx)
    (hmade : ∀ x ∈ made, x.Sound h catalog directory)
    (hp : Provenance h spec (Made.manifest h runId directory made) (disk ++ made.map Made.write) repository) :
    Separate h catalog spec directory := by
  have hread : ∀ x ∈ made, h.read (disk ++ made.map Made.write) (datasetPath directory x.entry.id)
      = some x.text := by
    intro x hx
    obtain ⟨events, hevents, hread⟩ := hp.exact _ ((Made.mem_recorded runId hjobs).mpr ⟨x, hx, rfl⟩)
    obtain ⟨events', hevents', htext⟩ := (hmade x hx).exact
    rw [hevents] at hevents'
    cases hevents'
    rw [htext]
    exact hread
  constructor
  · intro a ha b hb hne
    obtain ⟨x, hx, rfl⟩ := (Made.mem_datasets hjobs).mp ha
    obtain ⟨y, hy, rfl⟩ := (Made.mem_datasets hjobs).mp hb
    rw [← (hmade x hx).id_eq, ← (hmade y hy).id_eq]
    exact hp.paths _ ((Made.mem_recorded runId hjobs).mpr ⟨x, hx, rfl⟩) _
      ((Made.mem_recorded runId hjobs).mpr ⟨y, hy, rfl⟩) hne
  · intro a ha b hb hfile
    rw [← hjobs] at ha hb
    obtain ⟨x, hx, rfl⟩ := List.mem_map.mp ha
    obtain ⟨y, hy, rfl⟩ := List.mem_map.mp hb
    rw [← (hmade x hx).id_eq, ← (hmade y hy).id_eq] at hfile
    have hsame : h.read (disk ++ made.map Made.write) (datasetPath directory x.entry.id)
        = h.read (disk ++ made.map Made.write) (datasetPath directory y.entry.id) := by
      unfold Host.read
      rw [hfile]
    rw [hread x hx, hread y hy] at hsame
    rw [(hmade x hx).written, (hmade y hy).written, Option.some.inj hsame]

end

/-- **Main result.**  The manifest is exact when the research stage starts, exactly when the
writes of the selections do not meet. -/
theorem provenance_iff (h : Host File) (catalog : DatasetCatalog) (spec : ExperimentSpec)
    (runId outputDirectory : String) (disk : Disk File) (repository : ExperimentRepository)
    {m : ExperimentManifest} {disk' : Disk File}
    (hm : materialize h catalog spec { runId := runId, outputDirectory } disk = .ok (m, disk')) :
    Provenance h spec m disk' (repository.save m) ↔ Separate h catalog spec outputDirectory := by
  obtain ⟨made, hjobs, hmade, rfl, rfl⟩ := materializeAll_ok hm
  exact ⟨separate_of_provenance hjobs hmade, provenance_of_separate hjobs hmade⟩

/-! ## Specifications -/

/-- Two source files, and hashes that are the texts themselves. -/
def exampleHost : Host String where
  source := fun _ path =>
    if path = "btc.csv" then some "1000,1\n2000,2\n"
    else if path = "eth.csv" then some "1000,3\n"
    else none
  locate := some
  number := fun q => toString q.num
  sha256 := id

def exampleCatalog : DatasetCatalog :=
  [{ id := "btc", symbol := "BTCUSDT", path := "btc.csv" },
    { id := "eth", symbol := "ETHUSDT", path := "eth.csv" }]

def portfolioDocument (datasets : List Json) : Json :=
  .object [("name", .string "p"), ("kind", .string "portfolio"), ("dataset_catalog", .string "datasets.json"),
    ("portfolio_config", .string "portfolio.json"), ("datasets", .array datasets)]

def portfolioSpec (datasets : List ExperimentDatasetSelection) : ExperimentSpec :=
  { name := "p", kind := "portfolio", datasetCatalog := "datasets.json", portfolioConfig := "portfolio.json",
    datasets }

def exampleSpec : ExperimentSpec := portfolioSpec [{ id := "btc", fromMs := 2000 }, { id := "eth" }]

def exampleRun : Except String (ExperimentManifest × Disk String) :=
  materialize exampleHost exampleCatalog exampleSpec { runId := "1", outputDirectory := "out" } []

theorem provenance_iff_example : ∃ m disk, exampleRun = .ok (m, disk) ∧
    Provenance exampleHost exampleSpec m disk (ExperimentRepository.save [] m) := by
  have hok : exampleRun.isOk = true := by decide +kernel
  cases hrun : exampleRun with
  | error what =>
    rw [hrun] at hok
    cases hok
  | ok r =>
    refine ⟨r.1, r.2, rfl, (provenance_iff exampleHost exampleCatalog exampleSpec "1" "out" [] [] hrun).mpr ?_⟩
    exact ⟨by decide +kernel, by decide +kernel⟩

/-- Two ranges of one dataset. -/
def repeatedSpec : ExperimentSpec :=
  portfolioSpec [{ id := "btc", fromMs := 1000, toMs := 1000 }, { id := "btc", fromMs := 2000, toMs := 2000 }]

def repeatedDocument : Json :=
  portfolioDocument [
    .object [("id", .string "btc"), ("from_ms", .integer 1000), ("to_ms", .integer 1000)],
    .object [("id", .string "btc"), ("from_ms", .integer 2000), ("to_ms", .integer 2000)]]

def repeatedRecord (ms : Int) (text : String) : ExperimentDatasetRecord :=
  { datasetId := "btc", symbol := "BTCUSDT", sourcePath := "btc.csv",
    materializedPath := "out/datasets/btc.csv", sha256 := text, fromMs := ms, toMs := ms }

def repeatedManifest : ExperimentManifest :=
  { runId := "1", outputDirectory := "out",
    datasets := [repeatedRecord 1000 "timestamp_ms,price,volume\n1000,1,0\n",
      repeatedRecord 2000 "timestamp_ms,price,volume\n2000,2,0\n"] }

def repeatedDisk : Disk String :=
  [("out/datasets/btc.csv", "timestamp_ms,price,volume\n1000,1,0\n"),
    ("out/datasets/btc.csv", "timestamp_ms,price,volume\n2000,2,0\n")]

/-- The second slice replaces the first, which is recorded with its own hash. -/
theorem repeated_not_exact :
    loadExperimentSpec repeatedDocument = .ok repeatedSpec ∧
      materialize exampleHost exampleCatalog repeatedSpec { runId := "1", outputDirectory := "out" } []
        = .ok (repeatedManifest, repeatedDisk) ∧
      ¬ Provenance exampleHost repeatedSpec repeatedManifest repeatedDisk
        (ExperimentRepository.save [] repeatedManifest) := by
  refine ⟨by decide +kernel, by decide +kernel, ?_⟩
  intro hp
  have hread : exampleHost.read repeatedDisk "out/datasets/btc.csv"
      = some "timestamp_ms,price,volume\n2000,2,0\n" := by decide +kernel
  obtain ⟨bytes, hbytes, hsha⟩ := hp.hashed _ List.mem_cons_self
  rw [show (repeatedRecord 1000 _).materializedPath = "out/datasets/btc.csv" from rfl, hread] at hbytes
  cases hbytes
  exact absurd hsha (by decide +kernel)

end Sentum.Research
