import Mathlib.Data.List.Forall2
import Sentum.Research.ResearchPlatform
import Sentum.Std.ReadDouble

/-!
# The table of the trials

The CSV artifact of `write_artifacts`: a header, and a row of nineteen cells for
every trial, doubles with 17 significant digits and counts in full.
-/

namespace Sentum.Research

open Sentum.Std

def trialsHeader : String :=
  "trial_id,lookback,entry_threshold,stop_loss_percent,take_profit_percent,slippage_percent,eligible,train_score," ++
    "validation_score,overfit_gap,parameter_stability_score,deflated_sharpe,train_trades,validation_trades," ++
    "train_net_profit,validation_net_profit,validation_max_drawdown,validation_sharpe,validation_sortino"

/-- `csv << std::setprecision(17) << q` -/
def real (q : ℚ) : String := general 17 q

def count (n : Nat) : String := toString n

namespace TrialResult

variable (t : TrialResult)

/-- The cells of a row. -/
def cells : List String :=
  [count t.trialId, count t.parameters.lookback, real t.parameters.entryThreshold, real t.parameters.stopLossPercent,
    real t.parameters.takeProfitPercent, real t.parameters.slippagePercent, if t.eligible then "1" else "0",
    real t.trainScore, real t.validationScore, real t.overfitGap, real t.parameterStabilityScore, real t.deflatedSharpe,
    count t.train.trades, count t.validation.trades, real t.train.netProfit, real t.validation.netProfit,
    real t.validation.maxDrawdown, real t.validation.sharpe, real t.validation.sortino]

/-- The numbers of a row. -/
def numbers : List ℚ :=
  [t.trialId, t.parameters.lookback, t.parameters.entryThreshold, t.parameters.stopLossPercent,
    t.parameters.takeProfitPercent, t.parameters.slippagePercent, if t.eligible then 1 else 0, t.trainScore,
    t.validationScore, t.overfitGap, t.parameterStabilityScore, t.deflatedSharpe, t.train.trades, t.validation.trades,
    t.train.netProfit, t.validation.netProfit, t.validation.maxDrawdown, t.validation.sharpe, t.validation.sortino]

def csvRow : List Char := [','].intercalate (t.cells.map String.toList)

end TrialResult

/-- The file behind `csv_path`. -/
def trialsCsv (results : List TrialResult) : List Char :=
  (trialsHeader.toList :: results.map TrialResult.csvRow).flatMap fun line => line ++ ['\n']

/-! ## Cells -/

/-- The text is a numeral, and reads as `q`. -/
structure Cell (text : String) (q : ℚ) : Prop where
  reads : readDouble text = some q
  ends : stodRest text.toList = []
  chars : ∀ c ∈ text.toList, isDigit c = true ∨ c ∈ ['-', '+', '.', 'e']
  nonempty : text.toList ≠ []

theorem cell_of_denotes {text : String} {v q : ℚ} (h : Denotes text.toList v) (hread : readDouble text = some q) :
    Cell text q := ⟨hread, h.rest, fun _ hc => h.chars hc, h.ne_nil⟩

theorem cell_real {q : ℚ} (h : IsDouble q) : Cell (real q) q := by
  obtain ⟨v, hv, -⟩ := general_nearest h.1
  exact cell_of_denotes hv (readDouble_general h)

theorem cell_count {n : Nat} (h : n < 2 ^ 53) : Cell (count n) n :=
  cell_of_denotes (natCast_denotes n) (readDouble_natCast h)

theorem cell_flag (b : Bool) : Cell (if b then "1" else "0") (if b then 1 else 0) := by
  cases b with
  | true => exact cell_count (n := 1) (by decide)
  | false => exact cell_count (n := 0) (by decide)

namespace TrialResult

/-- What the table can hold: doubles that are finite and not subnormal, and counts a double holds. -/
structure Writable (t : TrialResult) : Prop where
  reals : ∀ q ∈ [t.parameters.entryThreshold, t.parameters.stopLossPercent, t.parameters.takeProfitPercent,
    t.parameters.slippagePercent, t.trainScore, t.validationScore, t.overfitGap, t.parameterStabilityScore,
    t.deflatedSharpe, t.train.netProfit, t.validation.netProfit, t.validation.maxDrawdown, t.validation.sharpe,
    t.validation.sortino], IsDouble q
  counts : ∀ n ∈ [t.trialId, t.parameters.lookback, t.train.trades, t.validation.trades], n < 2 ^ 53

/-- **Every cell is the text of its number.** -/
theorem cells_numbers {t : TrialResult} (h : t.Writable) : List.Forall₂ Cell t.cells t.numbers := by
  obtain ⟨hreals, hcounts⟩ := h
  simp only [List.forall_mem_cons] at hreals hcounts
  obtain ⟨hentry, hstop, htake, hslippage, htrain, hvalidation, hgap, hstability, hdeflated, hnet, hnet', hdrawdown,
    hsharpe, hsortino, -⟩ := hreals
  obtain ⟨hid, hlookback, htrades, htrades', -⟩ := hcounts
  exact .cons (cell_count hid) <| .cons (cell_count hlookback) <| .cons (cell_real hentry) <|
    .cons (cell_real hstop) <| .cons (cell_real htake) <| .cons (cell_real hslippage) <|
    .cons (cell_flag t.eligible) <| .cons (cell_real htrain) <| .cons (cell_real hvalidation) <|
    .cons (cell_real hgap) <| .cons (cell_real hstability) <| .cons (cell_real hdeflated) <|
    .cons (cell_count htrades) <| .cons (cell_count htrades') <| .cons (cell_real hnet) <|
    .cons (cell_real hnet') <| .cons (cell_real hdrawdown) <| .cons (cell_real hsharpe) <|
    .cons (cell_real hsortino) .nil

theorem cells_plain {t : TrialResult} (h : t.Writable) :
    ∀ text ∈ t.cells, (∀ c ∈ text.toList, isDigit c = true ∨ c ∈ ['-', '+', '.', 'e']) ∧ text.toList ≠ [] :=
  ((List.forall₂_and_left _ _).mp <| (cells_numbers h).imp fun _ _ hcell => ⟨⟨hcell.chars, hcell.nonempty⟩, hcell⟩).1

/-- A cell stays in its row and its column. -/
theorem not_mem_cells {t : TrialResult} (h : t.Writable) {c : Char} (hc : isDigit c = false)
    (hsign : c ∉ ['-', '+', '.', 'e']) : ∀ cell ∈ t.cells.map String.toList, c ∉ cell := by
  intro cell hcell hmem
  obtain ⟨text, htext, rfl⟩ := List.mem_map.mp hcell
  rcases (cells_plain h text htext).1 c hmem with hdigit | hmem
  · rw [hc] at hdigit
    cases hdigit
  · exact hsign hmem

end TrialResult

end Sentum.Research
