import Sentum.Research.PortfolioResearch

/-!
# The books of a portfolio run

Every accepted trade is in one of two lists, open or closed, at its final
size, and the equity has moved by the profits of the closed ones.  Each step
of the acceptance loop keeps this (`Accounted`), and the last `close_until`
leaves nothing open.
-/

namespace Sentum.Research

open Sentum Market Strategy Risk Trader Backtest PortfolioRiskManager

namespace PortfolioLoop

/-- What visiting open positions does to the books. -/
structure Visited (time : WithTop TimePoint) (ts : List TradePosition) (s s' : PortfolioLoop) : Prop where
  accepted : s'.accepted = s.accepted ++ ts.filter (due time)
  openTrades : s'.openTrades = s.openTrades ++ ts.filter fun t => !due time t
  equity : s'.equity = s.equity + ((ts.filter (due time)).map TradePosition.netProfit).sum
  acceptedTrades : s'.acceptedTrades = s.acceptedTrades
  rejectedTrades : s'.rejectedTrades = s.rejectedTrades

theorem visited_foldl (time : WithTop TimePoint) (ts : List TradePosition) (s : PortfolioLoop) :
    Visited time ts s (ts.foldl (visit time) s) := by
  induction ts generalizing s with
  | nil => exact ⟨by simp, by simp, by simp, rfl, rfl⟩
  | cons t ts ih =>
    obtain ⟨hacc, hopen, heq, hcount, hrej⟩ := ih (visit time s t)
    rw [List.foldl_cons]
    cases hd : due time t with
    | true =>
      have hv : visit time s t = s.close t := by rw [visit, hd, if_pos rfl]
      rw [hv] at hacc hopen heq hcount hrej ⊢
      refine ⟨?_, ?_, ?_, hcount, hrej⟩
      · rw [hacc]
        simp [close, hd]
      · rw [hopen]
        simp [close, hd]
      · rw [heq]
        simp [close, hd, add_assoc]
    | false =>
      have hv : visit time s t = { s with openTrades := s.openTrades ++ [t] } := by
        rw [visit, hd, if_neg (by simp)]
      rw [hv] at hacc hopen heq hcount hrej ⊢
      refine ⟨?_, ?_, ?_, hcount, hrej⟩
      · rw [hacc]
        simp [hd]
      · rw [hopen]
        simp [hd]
      · rw [heq]
        simp [hd]

/-- **`close_until`** moves exactly the positions that are due. -/
theorem closeUntil_visited (time : WithTop TimePoint) (s : PortfolioLoop) :
    Visited time s.openTrades { s with openTrades := [] } (s.closeUntil time) :=
  visited_foldl time s.openTrades _

/-! ## The invariant -/

/-- The candidates that are accepted from here on, as they are opened. -/
def admitted (terms : PortfolioTerms) : PortfolioLoop → List TradePosition → List TradePosition
  | _, [] => []
  | s, trade :: trades =>
    if (s.decision terms trade).approved then s.sized terms trade :: admitted terms (s.step terms trade) trades
    else admitted terms (s.step terms trade) trades

/-- **Invariant**: after `seen` candidates, of which `taken` were accepted. -/
structure Accounted (start : ℚ) (taken : List TradePosition) (seen : Nat) (s : PortfolioLoop) : Prop where
  counted : s.acceptedTrades + s.rejectedTrades = seen
  taken_count : s.acceptedTrades = taken.length
  placed : (s.accepted ++ s.openTrades).Perm taken
  equity : s.equity = start + (s.accepted.map TradePosition.netProfit).sum

theorem accounted_closeUntil {start : ℚ} {taken : List TradePosition} {seen : Nat} {s : PortfolioLoop}
    (h : Accounted start taken seen s) (time : WithTop TimePoint) :
    Accounted start taken seen (s.closeUntil time) := by
  obtain ⟨hacc, hopen, heq, hcount, hrej⟩ := closeUntil_visited time s
  obtain ⟨hcounted, htaken, hplaced, hequity⟩ := h
  refine ⟨?_, ?_, ?_, ?_⟩
  · rw [hcount, hrej]
    exact hcounted
  · rw [hcount]
    exact htaken
  · rw [hacc, hopen, List.nil_append, List.append_assoc]
    exact ((List.filter_append_perm (due time) s.openTrades).append_left s.accepted).trans hplaced
  · rw [heq, hacc, List.map_append, List.sum_append, ← add_assoc]
    exact congrArg (· + _) hequity

/-- **Step lemma.** -/
theorem accounted_step {start : ℚ} {taken : List TradePosition} {seen : Nat} {s : PortfolioLoop}
    (h : Accounted start taken seen s) (terms : PortfolioTerms) (trade : TradePosition) :
    Accounted start (if (s.decision terms trade).approved then taken ++ [s.sized terms trade] else taken)
      (seen + 1) (s.step terms trade) := by
  obtain ⟨hcounted, htaken, hplaced, hequity⟩ := accounted_closeUntil h (trade.entryTime : WithTop TimePoint)
  unfold step
  cases ha : (s.decision terms trade).approved with
  | true =>
    simp only [Bool.not_true, Bool.false_eq_true, if_false, if_true]
    refine ⟨?_, ?_, ?_, hequity⟩
    · show (s.before trade).acceptedTrades + 1 + (s.before trade).rejectedTrades = seen + 1
      have hsum : (s.before trade).acceptedTrades + (s.before trade).rejectedTrades = seen := hcounted
      omega
    · rw [List.length_append]
      exact congrArg (· + 1) htaken
    · rw [← List.append_assoc]
      exact hplaced.append_right _
  | false =>
    simp only [Bool.not_false, if_true, Bool.false_eq_true, if_false]
    exact ⟨congrArg (· + 1) hcounted, htaken, hplaced, hequity⟩

/-- **Run lemma.** -/
theorem accounted_foldl {start : ℚ} {taken : List TradePosition} {seen : Nat} {s : PortfolioLoop}
    (h : Accounted start taken seen s) (terms : PortfolioTerms) (trades : List TradePosition) :
    Accounted start (taken ++ admitted terms s trades) (seen + trades.length)
      (trades.foldl (step terms) s) := by
  induction trades generalizing taken seen s with
  | nil => simpa [admitted] using h
  | cons trade trades ih =>
    have hnext := ih (accounted_step h terms trade)
    rw [List.foldl_cons, List.length_cons, admitted]
    have hseen : seen + 1 + trades.length = seen + (trades.length + 1) := by omega
    rw [hseen] at hnext
    cases ha : (s.decision terms trade).approved with
    | true =>
      rw [ha, if_pos rfl, List.append_assoc] at hnext
      exact hnext
    | false =>
      rw [ha, if_neg (by simp)] at hnext
      exact hnext

/-- `close_until` the end of time leaves nothing open. -/
theorem closeUntil_top (s : PortfolioLoop) : (s.closeUntil ⊤).openTrades = [] := by
  rw [(closeUntil_visited ⊤ s).openTrades, List.nil_append, List.filter_eq_nil_iff]
  intro t _
  simp [due]

end PortfolioLoop

open PortfolioLoop

theorem acceptanceLoop_accounted (terms : PortfolioTerms) (rawTrades : List TradePosition) :
    Accounted terms.dayStart (admitted terms { equity := terms.dayStart } rawTrades) rawTrades.length
      (acceptanceLoop terms rawTrades) := by
  have hstart : Accounted terms.dayStart [] 0 { equity := terms.dayStart } :=
    ⟨rfl, rfl, List.Perm.refl _, by simp⟩
  have hrun := accounted_foldl hstart terms rawTrades
  rw [List.nil_append, Nat.zero_add] at hrun
  exact accounted_closeUntil hrun ⊤

/-- **Trades and money are conserved.**  Every candidate is accepted or
rejected, every accepted one is closed once, and the equity has moved by the
net profit that is reported. -/
theorem portfolio_conserved (fn : Cmath) (sorts : PortfolioSorts) (config : PortfolioResearchConfig)
    (assets : List AssetData) :
    (summarize fn sorts config assets).acceptedTrades + (summarize fn sorts config assets).rejectedTrades =
        (summarize fn sorts config assets).candidateTrades ∧
      (summarize fn sorts config assets).portfolioFiltered.trades =
        (summarize fn sorts config assets).acceptedTrades ∧
      (finalLoop fn sorts config assets).openTrades = [] ∧
      (finalLoop fn sorts config assets).accepted.Perm
        (admitted (terms fn config assets) config.start (sorts.byEntry.sort (rawTrades assets))) ∧
      (finalLoop fn sorts config assets).equity =
        config.startingEquity + (summarize fn sorts config assets).portfolioFiltered.netProfit := by
  obtain ⟨hcounted, htaken, hplaced, hequity⟩ :=
    acceptanceLoop_accounted (terms fn config assets) (sorts.byEntry.sort (rawTrades assets))
  have hopen : (finalLoop fn sorts config assets).openTrades = [] := closeUntil_top _
  have hperm : (finalLoop fn sorts config assets).accepted.Perm
      (admitted (terms fn config assets) config.start (sorts.byEntry.sort (rawTrades assets))) := by
    have hplaced' := hplaced
    rw [show (acceptanceLoop (terms fn config assets) (sorts.byEntry.sort (rawTrades assets))).openTrades = []
      from hopen, List.append_nil] at hplaced'
    exact hplaced'
  refine ⟨?_, ?_, hopen, hperm, ?_⟩
  · rw [Std.Sorting.length_sort] at hcounted
    exact hcounted
  · rw [summarize, MetricsCalculator.calculate_trades, Std.Sorting.length_sort]
    exact hperm.length_eq.trans htaken.symm
  · rw [summarize, MetricsCalculator.calculate_netProfit,
      ((sorts.byExit.perm (finalLoop fn sorts config assets).accepted).map TradePosition.netProfit).sum_eq]
    exact hequity

end Sentum.Research
