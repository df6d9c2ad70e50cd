import Mathlib.Data.List.TakeWhile
import Sentum.Research.PortfolioAccounting

/-!
# The hourly trade rate

`run` keeps the entry times of the last hour only, and the risk manager counts
them at each candidate.  A loop that keeps every entry time decides the same
(`decisions_keeping`), and in its full history no hour holds more entries than
are allowed (`rate_limited`).
-/

namespace Sentum.Research

open Sentum Market Strategy Risk Trader Backtest PortfolioRiskManager

namespace PortfolioLoop

/-! ## The loop without the `while` -/

/-- The loop with another `trade_times`. -/
def withTimes (s : PortfolioLoop) (times : List TimePoint) : PortfolioLoop := { s with tradeTimes := times }

/-- `step` that never drops an entry time. -/
def keepingStep (terms : PortfolioTerms) (s : PortfolioLoop) (trade : TradePosition) : PortfolioLoop :=
  if (s.decision terms trade).approved then
    (s.step terms trade).withTimes ((s.before trade).tradeTimes ++ [trade.entryTime])
  else s.step terms trade

/-- The decisions on the candidates, one after the other. -/
def decisions (terms : PortfolioTerms) (next : PortfolioLoop → TradePosition → PortfolioLoop) :
    PortfolioLoop → List TradePosition → List PortfolioDecision
  | _, [] => []
  | s, trade :: trades => s.decision terms trade :: decisions terms next (next s trade) trades

theorem entryTime_le_of_entryLe {a b : TradePosition} (h : entryLe a b) : a.entryTime ≤ b.entryTime := by
  rcases h with h | h
  · exact h.le
  · exact h.1.le

/-! ## What the entry times are used for -/

theorem visit_withTimes (time : WithTop TimePoint) (s : PortfolioLoop) (times : List TimePoint)
    (t : TradePosition) : visit time (s.withTimes times) t = (visit time s t).withTimes times := by
  unfold visit
  split <;> rfl

theorem closeUntil_withTimes (time : WithTop TimePoint) (s : PortfolioLoop) (times : List TimePoint) :
    (s.withTimes times).closeUntil time = (s.closeUntil time).withTimes times := by
  have hfold : ∀ (ts : List TradePosition) (s : PortfolioLoop),
      ts.foldl (visit time) (s.withTimes times) = (ts.foldl (visit time) s).withTimes times := by
    intro ts
    induction ts with
    | nil => intro s; rfl
    | cons t ts ih =>
      intro s
      rw [List.foldl_cons, List.foldl_cons, visit_withTimes, ih]
  exact hfold s.openTrades { s with openTrades := [] }

theorem closeUntil_tradeTimes (time : WithTop TimePoint) (s : PortfolioLoop) :
    (s.closeUntil time).tradeTimes = s.tradeTimes := by
  have h := closeUntil_withTimes time s s.tradeTimes
  have hself : s.withTimes s.tradeTimes = s := rfl
  rw [hself] at h
  rw [h]
  rfl

/-- They are counted, and nothing else. -/
theorem approve_tradeTimes (config : PortfolioRiskConfig) (symbol : String) (proposed : ℚ)
    (snapshot : PortfolioRiskSnapshot) (now : TimePoint) {times : List TimePoint}
    (h : tradesLastHour { snapshot with tradeTimes := times } now = tradesLastHour snapshot now) :
    approve config symbol proposed { snapshot with tradeTimes := times } now =
      approve config symbol proposed snapshot now := by
  have hexposure : exposure config { snapshot with tradeTimes := times } symbol = exposure config snapshot symbol :=
    rfl
  unfold approve
  rw [h, hexposure]

/-- Times that are no longer counted at the entry may be added in front. -/
theorem decision_withTimes (terms : PortfolioTerms) (s : PortfolioLoop) (trade : TradePosition)
    {dropped : List TimePoint} (h : ∀ x ∈ dropped, x < trade.entryTime - hour) :
    (s.withTimes (dropped ++ s.tradeTimes)).decision terms trade = s.decision terms trade := by
  unfold decision before
  rw [closeUntil_withTimes]
  refine approve_tradeTimes _ _ _ (snapshot terms (s.closeUntil trade.entryTime)) _ ?_
  have hnone : dropped.filter (fun time => decide (trade.entryTime - hour ≤ time)) = [] := by
    rw [List.filter_eq_nil_iff]
    intro x hx
    rw [decide_eq_true_eq]
    exact not_le.mpr (h x hx)
  have htimes : (snapshot terms (s.closeUntil trade.entryTime)).tradeTimes = s.tradeTimes :=
    closeUntil_tradeTimes _ s
  show ((dropped ++ s.tradeTimes).filter fun time => decide (trade.entryTime - hour ≤ time)).length = _
  unfold tradesLastHour
  rw [htimes, List.filter_append, hnone, List.nil_append]

/-! ## The full history -/

/-- **Invariant**: the loop has the end of the full history, and what it has
dropped counts at none of the candidates to come. -/
def Remembered (history : List TimePoint) (trades : List TradePosition) (s : PortfolioLoop) : Prop :=
  ∃ dropped, history = dropped ++ s.tradeTimes ∧ ∀ x ∈ dropped, ∀ trade ∈ trades, x < trade.entryTime - hour

/-- The history after a candidate. -/
def nextHistory (terms : PortfolioTerms) (s : PortfolioLoop) (trade : TradePosition) (history : List TimePoint) :
    List TimePoint :=
  if (s.decision terms trade).approved then history ++ [trade.entryTime] else history

section Step

variable {terms : PortfolioTerms} {s : PortfolioLoop} {trade : TradePosition} {trades : List TradePosition}
  {history : List TimePoint}

theorem Remembered.decision (h : Remembered history (trade :: trades) s) :
    (s.withTimes history).decision terms trade = s.decision terms trade := by
  obtain ⟨dropped, rfl, hold⟩ := h
  exact decision_withTimes terms s trade fun x hx => hold x hx trade List.mem_cons_self

/-- What `while` drops is more than an hour before the candidate, so it is more
than an hour before all later ones. -/
theorem Remembered.step (h : Remembered history (trade :: trades) s)
    (hsorted : ∀ t ∈ trades, trade.entryTime ≤ t.entryTime) :
    Remembered (nextHistory terms s trade history) trades (s.step terms trade) := by
  obtain ⟨dropped, rfl, hold⟩ := h
  have htail : ∀ x ∈ dropped, ∀ t ∈ trades, x < t.entryTime - hour :=
    fun x hx t ht => hold x hx t (List.mem_cons_of_mem _ ht)
  have htimes : (s.before trade).tradeTimes = s.tradeTimes := closeUntil_tradeTimes _ s
  unfold nextHistory PortfolioLoop.step
  cases ha : (s.decision terms trade).approved with
  | false =>
    rw [if_neg (by simp), if_pos (by simp)]
    exact ⟨dropped, by rw [← htimes], htail⟩
  | true =>
    rw [if_pos rfl, if_neg (by simp)]
    let old : TimePoint → Bool := fun time => decide (time < trade.entryTime - hour)
    refine ⟨dropped ++ (s.tradeTimes ++ [trade.entryTime]).takeWhile old, ?_, ?_⟩
    · show _ = _ ++ ((s.before trade).tradeTimes ++ [trade.entryTime]).dropWhile old
      rw [htimes, List.append_assoc, List.append_assoc, List.takeWhile_append_dropWhile]
    · intro x hx t ht
      rcases List.mem_append.mp hx with hx | hx
      · exact htail x hx t ht
      · have hold : old x = true := List.mem_takeWhile_imp hx
        have hlt : x < trade.entryTime - hour := of_decide_eq_true hold
        exact hlt.trans_le (Int.sub_le_sub_right (hsorted t ht) hour)

/-- The two loops differ in the entry times only. -/
theorem Remembered.keepingStep (h : Remembered history (trade :: trades) s) :
    (s.withTimes history).keepingStep terms trade =
      (s.step terms trade).withTimes (nextHistory terms s trade history) := by
  have hdecision := @Remembered.decision terms _ _ _ _ h
  have hbefore : (s.withTimes history).before trade = (s.before trade).withTimes history :=
    closeUntil_withTimes _ s history
  have hsized : (s.withTimes history).sized terms trade = s.sized terms trade := by
    unfold sized
    rw [hdecision]
  unfold PortfolioLoop.keepingStep nextHistory PortfolioLoop.step
  rw [hdecision, hbefore, hsized]
  cases ha : (s.decision terms trade).approved <;> rfl

end Step

/-- **Dropping old entries changes no decision.** -/
theorem decisions_keeping (terms : PortfolioTerms) {trades : List TradePosition} (hsorted : trades.Pairwise entryLe)
    {s : PortfolioLoop} {history : List TimePoint} (h : Remembered history trades s) :
    decisions terms (step terms) s trades = decisions terms (keepingStep terms) (s.withTimes history) trades := by
  induction trades generalizing s history with
  | nil => rfl
  | cons trade trades ih =>
    obtain ⟨hfirst, hrest⟩ := List.pairwise_cons.mp hsorted
    have hnext := @Remembered.step terms _ _ _ _ h fun t ht => entryTime_le_of_entryLe (hfirst t ht)
    unfold decisions
    rw [h.decision, h.keepingStep, ih hrest hnext]

/-! ## Any hour -/

/-- No closed hour holds more entries than `limit`. -/
def RateBound (limit : Nat) (history : List TimePoint) : Prop :=
  ∀ t : TimePoint, (history.filter fun x => decide (t ≤ x ∧ x ≤ t + hour)).length ≤ limit

/-- A candidate is accepted when there is room in the hour before it. -/
theorem Remembered.room {terms : PortfolioTerms} {s : PortfolioLoop} {trade : TradePosition}
    {trades : List TradePosition} {history : List TimePoint} (h : Remembered history (trade :: trades) s)
    (ha : (s.decision terms trade).approved = true) :
    (history.filter fun x => decide (trade.entryTime - hour ≤ x)).length < terms.risk.maxTradesPerHour := by
  rw [← h.decision] at ha
  have hrate := (approve_approved_iff.mp ha).rate
  have htimes : (snapshot terms ((s.withTimes history).before trade)).tradeTimes = history :=
    closeUntil_tradeTimes _ (s.withTimes history)
  unfold tradesLastHour at hrate
  rwa [htimes] at hrate

/-- An hour that holds the new entry holds only entries that counted there. -/
theorem rateBound_append {limit : Nat} {history : List TimePoint} (h : RateBound limit history) {now : TimePoint}
    (hroom : (history.filter fun x => decide (now - hour ≤ x)).length < limit) :
    RateBound limit (history ++ [now]) := by
  intro t
  rw [List.filter_append]
  by_cases hin : t ≤ now ∧ now ≤ t + hour
  · have hsub : (history.filter fun x => decide (t ≤ x ∧ x ≤ t + hour)).length ≤
        (history.filter fun x => decide (now - hour ≤ x)).length := by
      apply List.Sublist.length_le
      apply List.monotone_filter_right
      intro x hx
      rw [decide_eq_true_eq] at hx ⊢
      exact (Int.sub_right_le_of_le_add hin.2).trans hx.1
    rw [List.filter_cons_of_pos (by simpa using hin), List.filter_nil, List.length_append, List.length_singleton]
    omega
  · rw [List.filter_cons_of_neg (by simpa using hin), List.filter_nil, List.append_nil]
    exact h t

/-- **Run lemma.** -/
theorem rateBound_admitted {terms : PortfolioTerms} {trades : List TradePosition}
    (hsorted : trades.Pairwise entryLe) {s : PortfolioLoop} {history : List TimePoint}
    (h : Remembered history trades s) (hbound : RateBound terms.risk.maxTradesPerHour history) :
    RateBound terms.risk.maxTradesPerHour
      (history ++ (admitted terms s trades).map TradePosition.entryTime) := by
  induction trades generalizing s history with
  | nil => simpa [admitted] using hbound
  | cons trade trades ih =>
    obtain ⟨hfirst, hrest⟩ := List.pairwise_cons.mp hsorted
    have hnext := @Remembered.step terms _ _ _ _ h fun t ht => entryTime_le_of_entryLe (hfirst t ht)
    unfold nextHistory at hnext
    unfold admitted
    cases ha : (s.decision terms trade).approved with
    | false =>
      rw [ha, if_neg (by simp)] at hnext
      exact ih hrest hnext hbound
    | true =>
      rw [ha, if_pos rfl] at hnext
      have hrun := ih hrest hnext (rateBound_append hbound (h.room ha))
      rwa [List.append_assoc] at hrun

end PortfolioLoop

open PortfolioLoop

/-- **The hourly trade-rate limit.**  No hour holds more entries of accepted
trades than allowed, and the decisions are those of a loop that forgets none. -/
theorem rate_limited (fn : Cmath) (sorts : PortfolioSorts) (config : PortfolioResearchConfig)
    (assets : List AssetData) :
    (∀ t : TimePoint,
      ((finalLoop fn sorts config assets).accepted.filter fun trade =>
        decide (t ≤ trade.entryTime ∧ trade.entryTime ≤ t + hour)).length ≤ config.portfolioRisk.maxTradesPerHour) ∧
      decisions (terms fn config assets) (step (terms fn config assets)) config.start
          (sorts.byEntry.sort (rawTrades assets)) =
        decisions (terms fn config assets) (keepingStep (terms fn config assets)) config.start
          (sorts.byEntry.sort (rawTrades assets)) := by
  have hsorted := sorts.byEntry.sorted (rawTrades assets)
  have hstart : Remembered [] (sorts.byEntry.sort (rawTrades assets)) config.start :=
    ⟨[], rfl, fun x hx => absurd hx List.not_mem_nil⟩
  refine ⟨fun t => ?_, decisions_keeping (terms fn config assets) hsorted hstart⟩
  have hbound := @rateBound_admitted (terms fn config assets) _ hsorted _ _ hstart (fun t => Nat.zero_le _) t
  have hperm := (portfolio_conserved fn sorts config assets).2.2.2.1
  rw [List.nil_append, List.filter_map, List.length_map] at hbound
  rw [(hperm.filter _).length_eq]
  exact hbound

end Sentum.Research
