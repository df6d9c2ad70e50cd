import Sentum.Nlohmann.Json
import Sentum.Research.DatasetSlices
import Sentum.Research.TrialsCsv

/-!
# The dashboard's tables

`experiment_trials` reads the table of the trials that `write_artifacts` has
written: lines, cells, and every cell as a boolean, a number or a text.  What the
dashboard shows is what the research run has computed, down to the last bit
(`trials_roundtrip`).
-/

namespace Sentum.Dashboard

open Sentum.Std Research

/-- What `std::getline` finds in a text, piece by piece. -/
def getlines (separator : Char) (text : List Char) : List (List Char) :=
  let pieces := text.splitOn separator
  if pieces.getLast? = some [] then pieces.dropLast else pieces

namespace DashboardRepository

def splitCsv (line : List Char) : List String := (getlines ',' line).map String.ofList

def parseScalar (value : String) : Json :=
  if value = "true" then .boolean true
  else if value = "false" then .boolean false
  else
    match readDouble value with
    | some number => if (stodRest value.toList).isEmpty then .float number else .string value
    | none => .string value

/-- `row[column] = value` -/
def assign (row : List (String × Json)) (entry : String × Json) : List (String × Json) :=
  entry :: row.filter fun e => decide (e.1 ≠ entry.1)

def trialRow (columns values : List String) : Json :=
  .object ((columns.zip (values.map parseScalar)).foldl assign [])

/-- `file` is the text of `trials.csv`, if the run has an output directory with one. -/
def experimentTrials (file : Option (List Char)) (limit : Int) : List Json :=
  match (file.map (getlines '\n')).getD [] with
  | [] => []
  | header :: lines =>
    (lines.take (max 1 (min limit 10000)).toNat).map fun line => trialRow (splitCsv header) (splitCsv line)

end DashboardRepository

/-! ## Lines and cells -/

/-- Pieces that each end in the separator. -/
theorem getlines_lines {separator : Char} {lines : List (List Char)} (h : ∀ line ∈ lines, separator ∉ line) :
    getlines separator (lines.flatMap fun line => line ++ [separator]) = lines := by
  unfold getlines
  dsimp only
  rw [splitOn_lines h, List.getLast?_append, List.getLast?_singleton]
  simp

/-- Pieces with the separator between them, the last one not empty. -/
theorem getlines_intercalate {separator : Char} {cells : List (List Char)} (h : ∀ cell ∈ cells, separator ∉ cell)
    (hne : ∀ cell ∈ cells, cell ≠ []) (hcells : cells ≠ []) :
    getlines separator ([separator].intercalate cells) = cells := by
  unfold getlines
  dsimp only
  rw [List.splitOn_intercalate separator h hcells]
  refine if_neg fun hlast => ?_
  exact hne [] (List.mem_of_getLast? hlast) rfl

theorem not_mem_intercalate {c separator : Char} (hne : c ≠ separator) {cells : List (List Char)}
    (h : ∀ cell ∈ cells, c ∉ cell) : c ∉ [separator].intercalate cells := by
  induction cells with
  | nil => exact List.not_mem_nil
  | cons cell cells ih =>
    rw [List.forall_mem_cons] at h
    cases cells with
    | nil => simpa using h.1
    | cons next cells =>
      rw [List.intercalate_cons_cons, List.mem_append, List.mem_append, List.mem_singleton]
      rintro ((hmem | hmem) | hmem)
      · exact h.1 hmem
      · exact hne hmem
      · exact ih h.2 hmem

namespace DashboardRepository

/-! ## Rows -/

/-- **What a row has under a column**: the last value assigned to it. -/
theorem lookup_foldl_assign {entries : List (String × Json)} (h : (entries.map Prod.fst).Nodup) {entry : String × Json}
    (hentry : entry ∈ entries) : (entries.foldl assign []).lookup entry.1 = some entry.2 := by
  induction entries using List.reverseRecOn with
  | nil => exact absurd hentry List.not_mem_nil
  | append_singleton entries last ih =>
    rw [List.map_append, List.nodup_append] at h
    rw [List.foldl_append, List.foldl_cons, List.foldl_nil]
    unfold assign
    rcases List.mem_append.mp hentry with hentry | hentry
    · have hne : entry.1 ≠ last.1 :=
        h.2.2 entry.1 (List.mem_map_of_mem hentry) last.1 (List.mem_singleton_self _)
      have hkept : ∀ row : List (String × Json),
          (row.filter fun e => decide (e.1 ≠ last.1)).lookup entry.1 = row.lookup entry.1 := by
        intro row
        induction row with
        | nil => rfl
        | cons e row ih =>
          by_cases he : e.1 = last.1
          · have hother : (entry.1 == e.1) = false := beq_eq_false_iff_ne.mpr (he ▸ hne)
            rw [List.filter_cons_of_neg (by simpa using he), ih, List.lookup_cons, hother]
          · rw [List.filter_cons_of_pos (by simpa using he), List.lookup_cons, List.lookup_cons, ih]
      rw [List.lookup_cons, beq_eq_false_iff_ne.mpr hne]
      exact (hkept _).trans (ih h.1 hentry)
    · rw [List.mem_singleton.mp hentry, List.lookup_cons, beq_self_eq_true]

/-- A row whose columns have different names shows every value under its own. -/
theorem find?_trialRow {columns values : List String} (h : columns.Nodup) (hlength : columns.length ≤ values.length)
    {column value : String} (hmem : (column, value) ∈ columns.zip values) :
    (trialRow columns values).find? column = some (parseScalar value) := by
  have hnames : (columns.zip (values.map parseScalar)).map Prod.fst = columns :=
    List.map_fst_zip (by rwa [List.length_map])
  have hentry : (column, parseScalar value) ∈ columns.zip (values.map parseScalar) := by
    rw [List.zip_map_right]
    exact List.mem_map.mpr ⟨(column, value), hmem, rfl⟩
  exact lookup_foldl_assign (by rwa [hnames]) hentry

/-- A numeral is shown as its number. -/
theorem parseScalar_cell {text : String} {q : ℚ} (h : Cell text q) : parseScalar text = .float q := by
  have hword : ∀ word : String, ∀ c ∈ word.toList, isDigit c = false → c ∉ ['-', '+', '.', 'e'] → text ≠ word := by
    rintro word c hc hdigit hsign rfl
    rcases h.chars c hc with hyes | hyes
    · rw [hdigit] at hyes
      cases hyes
    · exact hsign hyes
  unfold parseScalar
  rw [if_neg (hword "true" 't' (by decide) (by decide) (by decide)),
    if_neg (hword "false" 'f' (by decide) (by decide) (by decide)), h.reads, h.ends]
  rfl

/-- The columns of the table. -/
def columns : List String := splitCsv trialsHeader.toList

/-- The row shows every number of the trial under its column. -/
def Shows (t : TrialResult) (row : Json) : Prop :=
  ∀ column ∈ columns.zip t.numbers, row.find? column.1 = some (.float column.2)

theorem columns_nodup : columns.Nodup ∧ columns.length = 19 := by decide +kernel

theorem splitCsv_csvRow {t : TrialResult} (h : t.Writable) : splitCsv t.csvRow = t.cells := by
  have hne : ∀ cell ∈ t.cells.map String.toList, cell ≠ [] := by
    intro cell hcell
    obtain ⟨text, htext, rfl⟩ := List.mem_map.mp hcell
    exact (TrialResult.cells_plain h text htext).2
  have hcomma := TrialResult.not_mem_cells h (c := ',') (by decide) (by decide)
  unfold splitCsv TrialResult.csvRow
  rw [getlines_intercalate hcomma hne (List.cons_ne_nil _ _), List.map_map]
  have hid : (String.ofList ∘ String.toList) = id := funext fun s => String.ofList_toList
  rw [hid, List.map_id]

theorem shows_trialRow {t : TrialResult} (h : t.Writable) : Shows t (trialRow columns (splitCsv t.csvRow)) := by
  rintro ⟨column, number⟩ hcolumn
  obtain ⟨i, hi, hget⟩ := List.getElem_of_mem hcolumn
  have hcells := TrialResult.cells_numbers h
  rw [List.length_zip, lt_min_iff] at hi
  have hcell : i < t.cells.length := hcells.length_eq ▸ hi.2
  rw [List.getElem_zip, Prod.mk.injEq] at hget
  have hread := parseScalar_cell ((List.forall₂_iff_get.mp hcells).2 i hcell hi.2)
  rw [List.get_eq_getElem, List.get_eq_getElem, hget.2] at hread
  rw [splitCsv_csvRow h, ← hread]
  refine find?_trialRow columns_nodup.1 (show columns.length ≤ t.cells.length by rw [columns_nodup.2]; exact le_refl 19) ?_
  have hzip : i < (columns.zip t.cells).length := by
    rw [List.length_zip]
    exact lt_min hi.1 hcell
  have hmem := List.getElem_mem hzip
  rwa [List.getElem_zip, hget.1] at hmem

theorem newline_csvRow {t : TrialResult} (h : t.Writable) : '\n' ∉ t.csvRow := by
  exact not_mem_intercalate (by decide) (TrialResult.not_mem_cells h (by decide) (by decide))

/-- **Main result**: the table that a research run has written is read back row
by row, as many as the limit allows, and every row shows the numbers of its
trial, each `double` the very one that was written. -/
theorem trials_roundtrip (results : List TrialResult) (limit : Int) (h : ∀ t ∈ results, t.Writable) :
    List.Forall₂ Shows (results.take (max 1 (min limit 10000)).toNat)
      (experimentTrials (some (trialsCsv results)) limit) := by
  have hlines : ∀ line ∈ trialsHeader.toList :: results.map TrialResult.csvRow, '\n' ∉ line := by
    refine List.forall_mem_cons.mpr ⟨by decide +kernel, fun line hline => ?_⟩
    obtain ⟨t, ht, rfl⟩ := List.mem_map.mp hline
    exact newline_csvRow (h t ht)
  have hread : experimentTrials (some (trialsCsv results)) limit =
      (results.take (max 1 (min limit 10000)).toNat).map fun t => trialRow columns (splitCsv t.csvRow) := by
    unfold experimentTrials trialsCsv
    rw [Option.map_some, Option.getD_some, getlines_lines hlines]
    dsimp only
    rw [← List.map_take, List.map_map]
    rfl
  rw [hread, List.forall₂_map_right_iff, List.forall₂_same]
  exact fun t ht => shows_trialRow (h t (List.mem_of_mem_take ht))

/-- A trial with a third, as a `double` has it, for the entry threshold. -/
def thirdTrial : TrialResult where
  trialId := 1
  parameters := { entryThreshold := 6004799503160661 / 2 ^ 54, stopLossPercent := 0, takeProfitPercent := 1, slippagePercent := 0 }
  eligible := true

theorem trials_roundtrip_third : List.Forall₂ Shows [thirdTrial] (experimentTrials (some (trialsCsv [thirdTrial])) 1) := by
  have hthird : IsDouble (6004799503160661 / 2 ^ 54) :=
    ⟨⟨6004799503160661, -54, by decide, by norm_num⟩, .inr (by decide +kernel)⟩
  have hzero : IsDouble 0 := isDouble_natCast (n := 0) (by decide)
  have hone : IsDouble 1 := by simpa using isDouble_natCast (n := 1) (by decide)
  have hwritable : thirdTrial.Writable := by
    refine ⟨?_, by decide⟩
    simp only [List.forall_mem_cons]
    exact ⟨hthird, hzero, hone, hzero, hzero, hzero, hzero, hzero, hzero, hzero, hzero, hzero, hzero, hzero,
      List.forall_mem_nil _⟩
  exact trials_roundtrip [thirdTrial] 1 (List.forall_mem_singleton.mpr hwritable)

end DashboardRepository

end Sentum.Dashboard
