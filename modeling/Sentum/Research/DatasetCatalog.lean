import Mathlib.Algebra.Order.Ring.Rat
import Sentum.Backtest.HistoricalEventReader
import Sentum.Nlohmann.Json
import Sentum.Risk.RiskConfig

/-!
# The dataset catalog

A catalog is loaded from a parsed document.  `loadSelection` picks the events
of a source file that lie in a selection's range, and `selectionCsv` is the
file that is written for them.
-/

namespace Sentum.Research

open Sentum Market
open Sentum.Risk (bind_eq_ok)

structure DatasetEntry where
  id : String := ""
  symbol : String := ""
  path : String := ""
  interval : String := "1s"
  startMs : Int := 0
  endMs : Int := 0
  tags : List String := []
deriving DecidableEq

structure DatasetSelection where
  dataset : DatasetEntry
  fromMs : Int := 0
  toMs : Int := 0

/-- `entries_` -/
abbrev DatasetCatalog : Type := List DatasetEntry

namespace DatasetCatalog

def readTags (item : Json) : Except String (List String) :=
  match item.find? "tags" with
  | none => .ok []
  | some tags => Json.getArray Json.getString tags

/-- One round of the loop over `datasets`. -/
def addEntry (catalog : DatasetCatalog) (item : Json) : Except String DatasetCatalog := do
  let id ← item.value Json.getString "id" ""
  let symbol ← item.value Json.getString "symbol" ""
  let path ← item.value Json.getString "path" ""
  let interval ← item.value Json.getString "interval" "1s"
  let startMs ← item.value Json.getInt64 "start_ms" 0
  let endMs ← item.value Json.getInt64 "end_ms" 0
  let tags ← readTags item
  if id = "" ∨ symbol = "" ∨ path = "" then .error "Every dataset requires id, symbol and path"
  else if catalog.any fun e => e.id = id then .error ("Duplicate dataset id: " ++ id)
  else return catalog ++ [{ id := id, symbol, path, interval, startMs, endMs, tags }]

/-- `DatasetCatalog::load` of a document that has been opened and parsed. -/
def load (json : Json) : Except String DatasetCatalog :=
  match json.find? "datasets" with
  | some (.array items) => items.foldlM addEntry []
  | _ => .error "Dataset catalog requires a datasets array"

def byId (catalog : DatasetCatalog) (id : String) : Except String DatasetEntry :=
  match catalog.find? fun e => e.id = id with
  | some entry => .ok entry
  | none => .error ("Unknown dataset id: " ++ id)

theorem byId_id {catalog : DatasetCatalog} {id : String} {entry : DatasetEntry}
    (h : catalog.byId id = .ok entry) : entry.id = id := by
  unfold byId at h
  split at h
  · next e he =>
    cases h
    simpa using List.find?_some he
  · cases h

/-- **Invariant of `load`**: every entry is named, and no two share an id. -/
structure Valid (catalog : DatasetCatalog) : Prop where
  named : ∀ e ∈ catalog, e.id ≠ "" ∧ e.symbol ≠ "" ∧ e.path ≠ ""
  ids : (catalog.map DatasetEntry.id).Nodup

/-- **Step lemma.** -/
theorem Valid.addEntry {catalog catalog' : DatasetCatalog} (hc : Valid catalog) {item : Json}
    (h : addEntry catalog item = .ok catalog') : Valid catalog' := by
  unfold DatasetCatalog.addEntry at h
  obtain ⟨id, -, h⟩ := bind_eq_ok h
  obtain ⟨symbol, -, h⟩ := bind_eq_ok h
  obtain ⟨path, -, h⟩ := bind_eq_ok h
  obtain ⟨interval, -, h⟩ := bind_eq_ok h
  obtain ⟨startMs, -, h⟩ := bind_eq_ok h
  obtain ⟨endMs, -, h⟩ := bind_eq_ok h
  obtain ⟨tags, -, h⟩ := bind_eq_ok h
  split at h
  · cases h
  · next hnamed =>
    rw [not_or, not_or] at hnamed
    split at h
    · cases h
    · next hnew =>
      cases h
      constructor
      · intro e he
        rcases List.mem_append.mp he with he | he
        · exact hc.named e he
        · rw [List.mem_singleton.mp he]
          exact hnamed
      · rw [List.map_append, List.map_singleton]
        refine List.nodup_append.mpr ⟨hc.ids, List.nodup_singleton id, fun a ha b hb => ?_⟩
        rintro rfl
        rw [List.mem_singleton] at hb
        obtain ⟨e, he, hid⟩ := List.mem_map.mp ha
        exact hnew (List.any_eq_true.mpr ⟨e, he, by simp [hid, hb]⟩)

/-- **Run lemma.** -/
theorem load_valid {json : Json} {catalog : DatasetCatalog} (h : load json = .ok catalog) :
    Valid catalog := by
  have hfold : ∀ (items : List Json) (c : DatasetCatalog), Valid c →
      items.foldlM DatasetCatalog.addEntry c = .ok catalog → Valid catalog := by
    intro items
    induction items with
    | nil =>
      intro c hc h
      cases h
      exact hc
    | cons item items ih =>
      intro c hc h
      rw [List.foldlM_cons] at h
      obtain ⟨c', hc', h⟩ := bind_eq_ok h
      exact ih c' (hc.addEntry hc') h
  unfold load at h
  split at h
  · exact hfold _ [] ⟨fun e he => absurd he List.not_mem_nil, List.nodup_nil⟩ h
  · cases h

end DatasetCatalog

/-! ## Selections -/

def DatasetSelection.from_ (s : DatasetSelection) : Int :=
  if 0 < s.fromMs then s.fromMs else s.dataset.startMs

def DatasetSelection.to_ (s : DatasetSelection) : Int :=
  if 0 < s.toMs then s.toMs else s.dataset.endMs

/-- The events of a range; a bound that is not positive is none. -/
def selectRange (fromMs toMs : Int) (events : List MarketEvent) : List MarketEvent :=
  events.filter fun event =>
    !((0 < fromMs && toMilliseconds event.timestamp < fromMs) ||
      (0 < toMs && toMs < toMilliseconds event.timestamp))

/-- `load_selection`, from the text of the dataset's file on. -/
def loadSelection (text : String) (selection : DatasetSelection) : Except String (List MarketEvent) := do
  let events ← HistoricalEventReader.readCsv text selection.dataset.symbol
  if selection.from_ ≤ 0 ∧ selection.to_ ≤ 0 then return events
  else
    let events := selectRange selection.from_ selection.to_ events
    if events.isEmpty then .error ("Dataset selection contains no events: " ++ selection.dataset.id)
    else return events

/-- What `write_selection_csv` prints; `number` is `operator<<` of a double at precision 17. -/
def csvText (number : ℚ → String) (events : List MarketEvent) : String :=
  events.foldl (fun out event => out ++ toString (toMilliseconds event.timestamp) ++ "," ++
    number event.price ++ "," ++ number event.volume ++ "\n") "timestamp_ms,price,volume\n"

/-- Without bounds the whole file is selected. -/
theorem loadSelection_selectRange {text : String} {selection : DatasetSelection} {events : List MarketEvent}
    (h : loadSelection text selection = .ok events) :
    ∃ all, HistoricalEventReader.readCsv text selection.dataset.symbol = .ok all ∧
      events = selectRange selection.from_ selection.to_ all := by
  unfold loadSelection at h
  cases hall : HistoricalEventReader.readCsv text selection.dataset.symbol with
  | error what =>
    rw [hall] at h
    cases h
  | ok all =>
    rw [hall] at h
    change (if selection.from_ ≤ 0 ∧ selection.to_ ≤ 0 then Except.ok all
      else if (selectRange selection.from_ selection.to_ all).isEmpty then _ else _) = _ at h
    refine ⟨all, rfl, ?_⟩
    split at h
    · next hbounds =>
      cases h
      unfold selectRange
      rw [List.filter_eq_self.mpr]
      intro event _
      simp [not_lt.mpr hbounds.1, not_lt.mpr hbounds.2]
    · split at h
      · cases h
      · cases h
        rfl

end Sentum.Research
