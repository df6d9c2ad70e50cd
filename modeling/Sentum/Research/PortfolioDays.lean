import Sentum.Lib.Run
import Sentum.Research.PortfolioRate

/-!
# The equity at the start of the day

The risk manager measures the daily drawdown from `day_start_equity`.  `run`
follows the closings with `equity` (`equity_followed`), but `day_start` stays
the equity that the run started with, so it is that of the candidate's day only
while the earlier days add up to nothing (`dayStart_iff`).
-/

namespace Sentum.Research

open Sentum Market Strategy Risk Trader Backtest PortfolioRiskManager Run

/-- `std::chrono::days(1)` -/
def day : Int := seconds 86400

/-- Midnight UTC before the time. -/
def startOfDay (time : TimePoint) : TimePoint := time - time % day

theorem startOfDay_le (time : TimePoint) : startOfDay time ≤ time :=
  Int.sub_le_self time (Int.emod_nonneg time (by decide))

namespace PortfolioLoop

/-- Accepted so far, closed or open. -/
def taken (s : PortfolioLoop) : List TradePosition := s.accepted ++ s.openTrades

/-- What the closings with these dates have brought. -/
def profitDated (s : PortfolioLoop) (dated : TimePoint → Bool) : ℚ :=
  ((s.taken.filter fun t => dated t.exitTime).map TradePosition.netProfit).sum

/-- The profit of the days before the candidate's. -/
def earlierDays (s : PortfolioLoop) (trade : TradePosition) : ℚ :=
  s.profitDated fun time => decide (time < startOfDay trade.entryTime)

variable (terms : PortfolioTerms)

/-- The risk manager is given the equity after all closings dated before the
candidate's day. -/
def DayStartKept (s : PortfolioLoop) (trade : TradePosition) : Prop :=
  (snapshot terms (s.before trade)).dayStartEquity = terms.dayStart + s.earlierDays trade

/-- The closings of earlier days add up to nothing. -/
def EarlierDaysEven (s : PortfolioLoop) (trade : TradePosition) : Prop := s.earlierDays trade = 0

instance (s : PortfolioLoop) (trade : TradePosition) : Decidable (s.EarlierDaysEven trade) :=
  inferInstanceAs (Decidable (s.earlierDays trade = 0))

instance (s : PortfolioLoop) (trade : TradePosition) : Decidable (s.DayStartKept terms trade) :=
  inferInstanceAs (Decidable (_ = _))

/-! ## The equity follows the dates -/

variable {terms} {s : PortfolioLoop} {trade : TradePosition}

/-- **Invariant**: the equity is that of the closings made, none of which is
dated after the last entry. -/
structure Dated (start : ℚ) (last : TimePoint) (s : PortfolioLoop) : Prop where
  equity : s.equity = start + (s.accepted.map TradePosition.netProfit).sum
  past : ∀ t ∈ s.accepted, t.exitTime ≤ last

theorem dated_closeUntil {start : ℚ} {last time : TimePoint} (h : Dated start last s) (hle : last ≤ time) :
    Dated start time (s.closeUntil (time : WithTop TimePoint)) := by
  obtain ⟨hacc, -, heq, -, -⟩ := closeUntil_visited (time : WithTop TimePoint) s
  refine ⟨?_, fun t ht => ?_⟩
  · rw [heq, hacc, List.map_append, List.sum_append, ← add_assoc]
    exact congrArg (· + _) h.equity
  · rw [hacc] at ht
    rcases List.mem_append.mp ht with ht | ht
    · exact (h.past t ht).trans hle
    · exact of_decide_eq_true (List.mem_filter.mp ht).2

/-- `close_until` leaves the equity after the closings dated up to then. -/
theorem equity_closeUntil {start : ℚ} {last time : TimePoint} (h : Dated start last s) (hle : last ≤ time) :
    (s.closeUntil (time : WithTop TimePoint)).equity = start + s.profitDated fun t => decide (t ≤ time) := by
  obtain ⟨hacc, -, -, -, -⟩ := closeUntil_visited (time : WithTop TimePoint) s
  have hpast : s.accepted.filter (fun t => decide (t.exitTime ≤ time)) = s.accepted := by
    rw [List.filter_eq_self]
    exact fun t ht => decide_eq_true ((h.past t ht).trans hle)
  have hclosed : (s.closeUntil (time : WithTop TimePoint)).accepted =
      s.taken.filter fun t => decide (t.exitTime ≤ time) := by
    rw [taken, List.filter_append, hpast]
    exact hacc
  rw [(dated_closeUntil h hle).equity, hclosed]
  rfl

/-- Closing at midnight would leave the equity that the day starts with. -/
theorem equity_at_midnight {start : ℚ} {last : TimePoint} (h : Dated start last s)
    (hle : last ≤ startOfDay trade.entryTime - 1) :
    (s.closeUntil ((startOfDay trade.entryTime - 1 : TimePoint) : WithTop TimePoint)).equity =
      start + s.earlierDays trade := by
  rw [equity_closeUntil h hle]
  unfold earlierDays
  simp only [Int.le_sub_one_iff]

theorem dated_step {start : ℚ} {last : TimePoint} (h : Dated start last s) (hle : last ≤ trade.entryTime) :
    Dated start trade.entryTime (s.step terms trade) := by
  have hb : Dated start trade.entryTime (s.before trade) := dated_closeUntil h hle
  unfold step
  split
  · exact ⟨hb.equity, hb.past⟩
  · exact ⟨hb.equity, hb.past⟩

/-- **Run lemma.** -/
theorem equity_followed {start : ℚ} {last : TimePoint} {trades : List TradePosition} (h : Dated start last s)
    (hlast : ∀ t ∈ trades, last ≤ t.entryTime) (hsorted : trades.Pairwise entryLe) :
    Guarded (step terms)
      (fun s trade => (s.before trade).equity = start + s.profitDated fun time => decide (time ≤ trade.entryTime))
      s trades := by
  induction trades generalizing s last with
  | nil => trivial
  | cons trade trades ih =>
    obtain ⟨hfirst, hrest⟩ := List.pairwise_cons.mp hsorted
    have hle := hlast trade List.mem_cons_self
    exact ⟨equity_closeUntil h hle,
      ih (dated_step h hle) (fun t ht => entryTime_le_of_entryLe (hfirst t ht)) hrest⟩

/-! ## The start of the day does not -/

theorem dayStartKept_iff (s : PortfolioLoop) (trade : TradePosition) :
    s.DayStartKept terms trade ↔ s.EarlierDaysEven trade := by
  show terms.dayStart = terms.dayStart + s.earlierDays trade ↔ s.earlierDays trade = 0
  exact left_eq_add

/-- Within one day nothing is dated before it. -/
theorem earlierDaysEven_of_oneDay (h : ∀ t ∈ s.taken, startOfDay trade.entryTime ≤ t.exitTime) :
    s.EarlierDaysEven trade := by
  unfold EarlierDaysEven earlierDays profitDated
  rw [List.filter_eq_nil_iff.mpr]
  · rfl
  · intro t ht
    rw [decide_eq_true_eq]
    exact not_lt.mpr (h t ht)

end PortfolioLoop

open PortfolioLoop

/-- **The daily drawdown gate.**  Every candidate of a run is judged against
the equity at the start of its day exactly when, at every candidate, the
closings of earlier days add up to nothing. -/
theorem dayStart_iff (config : PortfolioResearchConfig) (correlations : CorrelationMap) (volatility : SymbolMap)
    (trades : List TradePosition) :
    Guarded (step (config.terms correlations volatility)) (DayStartKept (config.terms correlations volatility))
        config.start trades ↔
      Guarded (step (config.terms correlations volatility)) EarlierDaysEven config.start trades :=
  guarded_congr dayStartKept_iff

/-- A loss of 400 on the first day, closed after ten seconds. -/
def firstDayLoss : TradePosition :=
  { symbol := "BTCUSDT", entryPrice := 100, quantity := 100, netProfit := -400, entryTime := seconds 10
    exitTime := seconds 20 }

/-- An entry on the second day. -/
def secondDayEntry : TradePosition :=
  { symbol := "BTCUSDT", entryPrice := 100, quantity := 100, entryTime := seconds 86410, exitTime := seconds 86420 }

/-- The second day starts with 99600, and the gate is given 100000. -/
theorem secondDayEntry_misjudged :
    ¬ Guarded (step (({} : PortfolioResearchConfig).terms ∅ ∅)) (DayStartKept (({} : PortfolioResearchConfig).terms ∅ ∅))
      ({} : PortfolioResearchConfig).start [firstDayLoss, secondDayEntry] := by
  decide +kernel

end Sentum.Research
